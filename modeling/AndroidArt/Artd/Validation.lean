/-
What each validator of `path_utils.cc` accepts, and what its errors say.

# The normal-form check compares paths, not strings

`ValidateAbsoluteNormalPath` rejects a path that is `"not in normal
form"` by `path.lexically_normal() != path_str`, where `path_str`
converts to a `path` and `operator!=` compares elements. A run of
separators is one element boundary, so `"/a//b"` equals its normal form
`"/a/b"` as a path and passes, though it is not in normal form as a
string. `validateAbsoluteNormalPath_ok_iff` says exactly what passes:
the absolute pathnames without `'\0'` whose pieces are never `.` or `..`;
`validateAbsoluteNormalPath_ok_iff_normal_or_double_slash` splits that
set into the strings equal to their normal form and those holding `//`.

# Errors

Every error of the element validators names the field checked, and
every error of `ValidateAbsoluteNormalPath` but the empty-path one
quotes the path (`validatePathElement_error_names`,
`validateAbsoluteNormalPath_error_quotes`).
-/
import AndroidArt.Artd.PathUtils

namespace AndroidArt.Artd

open AndroidArt.Filesystem

-- ================================================== Except plumbing

/-- A `do` step succeeded iff its first action did and so did the rest. -/
theorem bind_eq_ok {α β : Type} {x : Except String α} {f : α → Except String β} {b : β} :
    x >>= f = .ok b ↔ ∃ a, x = .ok a ∧ f a = .ok b := by
  cases x <;> simp [bind, Except.bind]

theorem bind_unit_eq_ok {β : Type} {x : Except String Unit} {f : Unit → Except String β} {b : β} :
    x >>= f = .ok b ↔ x = .ok () ∧ f () = .ok b := by
  rw [bind_eq_ok]
  exact ⟨fun ⟨⟨⟩, h⟩ => h, fun h => ⟨(), h⟩⟩

-- ============================================== element validators

variable {s : List Char} {name : String}

theorem validatePathElementSubstring_ok_iff :
    validatePathElementSubstring s name = .ok () ↔ s ≠ [] ∧ '/' ∉ s ∧ '\x00' ∉ s := by
  unfold validatePathElementSubstring
  by_cases h0 : s = [] <;> by_cases h1 : '/' ∈ s <;> by_cases h2 : '\x00' ∈ s <;> simp [*]

theorem validatePathElement_ok_iff :
    validatePathElement s name = .ok () ↔
      (s ≠ [] ∧ '/' ∉ s ∧ '\x00' ∉ s) ∧ s ≠ ['.'] ∧ s ≠ ['.', '.'] := by
  rw [validatePathElement, bind_unit_eq_ok, validatePathElementSubstring_ok_iff]
  by_cases h : s = ['.'] ∨ s = ['.', '.']
  · rcases h with rfl | rfl <;> simp
  · simp_all

/-- A validated path element is a plain filename: it cannot be empty,
climb with `..`, stay with `.`, or hold a separator. -/
theorem isPlainName_of_validatePathElement (h : validatePathElement s name = .ok ()) :
    IsPlainName s := by
  obtain ⟨⟨h0, h1, -⟩, h2, h3⟩ := validatePathElement_ok_iff.mp h
  exact ⟨⟨h0, h1⟩, h2, h3⟩

/-- A validated substring is a filename (it may still be `.` or `..`). -/
theorem isFileName_of_validatePathElementSubstring
    (h : validatePathElementSubstring s name = .ok ()) : IsFileName s := by
  obtain ⟨h0, h1, -⟩ := validatePathElementSubstring_ok_iff.mp h
  exact ⟨h0, h1⟩

/-- Every error of `ValidatePathElementSubstring` names the field it checks. -/
theorem validatePathElementSubstring_error_names {msg : String}
    (h : validatePathElementSubstring s name = .error msg) :
    ∃ pre post : String, msg = pre ++ name ++ post := by
  unfold validatePathElementSubstring at h
  split_ifs at h <;> cases h
  · exact ⟨"", " is empty", by simp⟩
  · exact ⟨"", " '" ++ String.mk s ++ "' has invalid character '/'", by simp [String.append_assoc]⟩
  · exact ⟨"", " '" ++ String.mk s ++ "' has invalid character '\\0'", by
      simp [String.append_assoc]⟩

/-- Every error of the element validators names the field it checks. -/
theorem validatePathElement_error_names {msg : String}
    (h : validatePathElement s name = .error msg ∨ validatePathElementSubstring s name = .error msg) :
    ∃ pre post : String, msg = pre ++ name ++ post := by
  rcases h with h | h
  · rw [validatePathElement] at h
    cases hv : validatePathElementSubstring s name with
    | error e => cases hv ▸ h; exact validatePathElementSubstring_error_names hv
    | ok u =>
      simp only [hv, bind, Except.bind] at h
      split_ifs at h
      · exact ⟨"Invalid ", " '" ++ String.mk s ++ "'", by cases h; simp [String.append_assoc]⟩
  · exact validatePathElementSubstring_error_names h

-- ===================================== ValidateAbsoluteNormalPath

/-- What `ValidateAbsoluteNormalPath` (and so `ValidateDexPath`) accepts:
the absolute pathnames without `'\0'` none of whose pieces is `.` or
`..`. Runs of separators are not rejected. -/
theorem validateAbsoluteNormalPath_ok_iff :
    validateAbsoluteNormalPath s = .ok () ↔ '\x00' ∉ s ∧ isAbsolute s ∧ NoDotComponents s := by
  unfold validateAbsoluteNormalPath
  by_cases habs : isAbsolute s
  · have hne : s.isEmpty = false := by
      cases s
      · simp [isAbsolute, hasRootDirectory] at habs
      · rfl
    have hcmp : pathEquals (lexicallyNormal s) s = true ↔ NoDotComponents s := by
      rw [pathEquals, beq_iff_eq]
      exact elements_lexicallyNormal_eq_iff habs
    by_cases h0 : '\x00' ∈ s <;> by_cases hd : NoDotComponents s <;> simp_all
  · by_cases h0 : s.isEmpty <;> by_cases h1 : '\x00' ∈ s <;> simp_all

theorem validateDexPath_eq (dexPath : List Char) :
    validateDexPath dexPath = validateAbsoluteNormalPath dexPath := by
  cases h : validateAbsoluteNormalPath dexPath with
  | error e => simp [validateDexPath, h, bind, Except.bind]
  | ok u => simp [validateDexPath, h, bind, Except.bind]; rfl

/-- The validator's accepted set, split by the string comparison the
error text promises: the strings equal to their normal form, and the
absolute, dot-free strings holding `//`, which are not in normal form. -/
theorem validateAbsoluteNormalPath_ok_iff_normal_or_double_slash :
    validateAbsoluteNormalPath s = .ok () ↔
      ('\x00' ∉ s ∧ isAbsolute s ∧ lexicallyNormal s = s) ∨
      ('\x00' ∉ s ∧ isAbsolute s ∧ NoDotComponents s ∧ ['/', '/'] <:+: s ∧ lexicallyNormal s ≠ s) := by
  rw [validateAbsoluteNormalPath_ok_iff]
  constructor
  · rintro ⟨h0, habs, hd⟩
    by_cases hss : ['/', '/'] <:+: s
    · exact .inr ⟨h0, habs, hd, hss, fun e => (lexicallyNormal_eq_self_iff habs hd).mp e hss⟩
    · exact .inl ⟨h0, habs, (lexicallyNormal_eq_self_iff habs hd).mpr hss⟩
  · rintro (⟨h0, habs, hn⟩ | ⟨h0, habs, hd, -⟩)
    · refine ⟨h0, habs, (elements_lexicallyNormal_eq_iff habs).mp (by rw [hn])⟩
    · exact ⟨h0, habs, hd⟩

/-- `"/a//b"` passes `ValidateAbsoluteNormalPath` although its normal form
is `"/a/b"`. -/
theorem validateAbsoluteNormalPath_accepts_double_slash :
    validateAbsoluteNormalPath "/a//b".toList = .ok () ∧
      lexicallyNormal "/a//b".toList = "/a/b".toList :=
  ⟨rfl, by decide⟩

/-- Every error but the empty-path one quotes the path it rejects. -/
theorem validateAbsoluteNormalPath_error_quotes {msg : String}
    (h : validateAbsoluteNormalPath s = .error msg) :
    msg = "Path is empty" ∨ ∃ rest : String, msg = "Path '" ++ String.mk s ++ rest := by
  unfold validateAbsoluteNormalPath at h
  split at h
  · cases h; exact .inl rfl
  split at h
  · cases h; exact .inr ⟨_, rfl⟩
  split at h
  · cases h; exact .inr ⟨_, rfl⟩
  split at h
  · cases h; exact .inr ⟨_, rfl⟩
  · cases h

end AndroidArt.Artd
