/-
Where the profile builders of `path_utils.cc` can point: the paths built
for the five direct `ProfilePath` variants, and for the final path of a
temporary profile.

# Primary profiles

`BuildPrimaryRefProfilePath` and `BuildPrimaryCurProfilePath` validate
their names before formatting, so what they append below the data root
splits on `'/'` into fixed directory names and the validated names, none
of them empty, `.` or `..` (`primaryRef_confined`, `primaryCur_confined`).
Splitting also recovers the names, which makes the map from the
description to the path injective (`primary_injective`); the user id
part rests on `formatInt_injective`.

# Dex-derived profiles

The prebuilt profile is the dex path with `.prof` appended; the
secondary ones are a `.prof` or `.cur.prof` file in the `oat`
directory under the dex path's `parent_path`. No piece of any of them
is `.` or `..`, because none of the accepted dex path's is
(`validateAbsoluteNormalPath_ok_iff`) and the parent keeps that
(`noDotComponents_parentPath`). For a dex path that names a file in
normal form the prebuilt profile is again in normal form; the secondary
ones are too below any directory but the root, where the format
string's own separator doubles `parent_path`'s (`dexProfilePaths_of_file`,
`secondaryRef_root_file`).
-/
import AndroidArt.Artd.Validation

namespace AndroidArt.Artd

open AndroidArt.Filesystem

-- ============================================================ fmt

private theorem digitChar_ne : ∀ d : Fin 10,
    Nat.digitChar d ≠ '/' ∧ Nat.digitChar d ≠ '.' ∧ Nat.digitChar d ≠ '-' := by
  decide

theorem not_mem_formatInt (v : Int) (c : Char) (hc : c = '/' ∨ c = '.') : c ∉ formatInt v := by
  intro h
  simp only [formatInt, formatDecimal, List.mem_append] at h
  rcases h with h | h
  · split at h <;> simp_all
  · obtain ⟨d, hd, rfl⟩ := mem_formatBase (by norm_num) h
    have := digitChar_ne ⟨d, hd⟩
    rcases hc with hc | hc <;> simp_all

/-- A formatted user id is a plain filename: nonempty, no separator, no dot. -/
theorem isPlainName_formatInt (v : Int) : IsPlainName (formatInt v) := by
  have hdot := not_mem_formatInt v '.' (.inr rfl)
  refine ⟨⟨by simp [formatInt, formatDecimal, formatBase_ne_nil], not_mem_formatInt v '/' (.inl rfl)⟩, ?_, ?_⟩
  · rintro h; exact hdot (h ▸ List.mem_singleton_self _)
  · rintro h; exact hdot (h ▸ List.mem_cons_self _ _)

theorem formatInt_injective : Function.Injective formatInt := by
  intro v w h
  have hsign : ∀ n, (formatBase 10 n).head? ≠ some '-' := fun n e => by
    obtain ⟨d, hd, he⟩ := mem_formatBase (by norm_num) (List.mem_of_mem_head? e)
    exact (digitChar_ne ⟨d, hd⟩).2.2 he.symm
  have hinj := formatBase_injective (b := 10) (by norm_num) (by norm_num)
  by_cases hv : v < 0 <;> by_cases hw : w < 0 <;>
    simp only [formatInt, formatDecimal, hv, hw, if_true, if_false, List.nil_append, List.singleton_append,
      List.cons.injEq, true_and] at h
  · have := hinj h
    omega
  · exact absurd (by rw [← h]; rfl) (hsign w.natAbs)
  · exact absurd (by rw [h]; rfl) (hsign v.natAbs)
  · have := hinj h
    omega

-- ============================================== the builders' results

section Spec

variable {env : Env} {D r : List Char}

private theorem pure_eq_ok {α : Type} {a b : α} : (pure a : Except String α) = .ok b ↔ b = a :=
  ⟨fun h => by cases h; rfl, fun h => h ▸ rfl⟩

theorem buildPrimaryRefProfilePath_ok (hD : env.androidData = .ok D) {p : PrimaryRefProfilePath} :
    buildPrimaryRefProfilePath env p = .ok r ↔
      validatePathElement p.packageName "packageName" = .ok () ∧
      validatePathElementSubstring p.profileName "profileName" = .ok () ∧
      r = D ++ "/misc/profiles/ref/".toList ++ p.packageName ++ '/' :: p.profileName ++
        ".prof".toList := by
  simp only [buildPrimaryRefProfilePath, hD, bind_unit_eq_ok]
  simp only [bind_eq_ok, pure_eq_ok, Except.ok.injEq, exists_eq_left']

theorem buildPrimaryCurProfilePath_ok (hD : env.androidData = .ok D) {p : PrimaryCurProfilePath} :
    buildPrimaryCurProfilePath env p = .ok r ↔
      validatePathElement p.packageName "packageName" = .ok () ∧
      validatePathElementSubstring p.profileName "profileName" = .ok () ∧
      r = D ++ "/misc/profiles/cur/".toList ++ formatInt p.userId ++ '/' :: p.packageName ++
        '/' :: p.profileName ++ ".prof".toList := by
  simp only [buildPrimaryCurProfilePath, hD, bind_unit_eq_ok]
  simp only [bind_eq_ok, pure_eq_ok, Except.ok.injEq, exists_eq_left']

theorem buildPrebuiltProfilePath_ok {p : PrebuiltProfilePath} :
    buildPrebuiltProfilePath p = .ok r ↔
      validateAbsoluteNormalPath p.dexPath = .ok () ∧ r = p.dexPath ++ ".prof".toList := by
  simp only [buildPrebuiltProfilePath, validateDexPath_eq, bind_unit_eq_ok, pure_eq_ok]

theorem buildSecondaryRefProfilePath_ok {p : SecondaryRefProfilePath} :
    buildSecondaryRefProfilePath p = .ok r ↔
      validateAbsoluteNormalPath p.dexPath = .ok () ∧
      r = parentPath p.dexPath ++ "/oat/".toList ++ filename p.dexPath ++ ".prof".toList := by
  simp only [buildSecondaryRefProfilePath, validateDexPath_eq, bind_unit_eq_ok, pure_eq_ok]

theorem buildSecondaryCurProfilePath_ok {p : SecondaryCurProfilePath} :
    buildSecondaryCurProfilePath p = .ok r ↔
      validateAbsoluteNormalPath p.dexPath = .ok () ∧
      r = parentPath p.dexPath ++ "/oat/".toList ++ filename p.dexPath ++ ".cur.prof".toList := by
  simp only [buildSecondaryCurProfilePath, validateDexPath_eq, bind_unit_eq_ok, pure_eq_ok]

end Spec

-- ============================================== statement vocabulary

/-- The variants `BuildProfileOrDmPath` builds directly, without a
temporary or `.dm` path in between. -/
def ProfilePath.IsDirect : ProfilePath → Prop
  | .tmpProfilePath _ | .dexMetadataPath _ => False
  | _ => True

/-- The variants whose path lies below the data root. -/
def ProfilePath.IsPrimary : ProfilePath → Prop
  | .primaryRefProfilePath _ | .primaryCurProfilePath _ => True
  | _ => False

/-- A temporary profile's final path as the `ProfilePath` that builds it. -/
def WritableProfilePath.toProfilePath : WritableProfilePath → ProfilePath
  | .forPrimary p => .primaryRefProfilePath p
  | .forSecondary p => .secondaryRefProfilePath p

/-- What `BuildPrimaryRefProfilePath` puts below the data root. -/
def primaryRefElements (p : PrimaryRefProfilePath) : List (List Char) :=
  ["misc".toList, "profiles".toList, "ref".toList, p.packageName, p.profileName ++ ".prof".toList]

/-- What `BuildPrimaryCurProfilePath` puts below the data root. -/
def primaryCurElements (p : PrimaryCurProfilePath) : List (List Char) :=
  ["misc".toList, "profiles".toList, "cur".toList, formatInt p.userId, p.packageName,
    p.profileName ++ ".prof".toList]

/-- `r` is the root `D`, then text that splits on `'/'` into an empty
first piece and exactly `elems`, each a plain filename: nothing in it
is empty, `.` or `..`, so it names a file below `D`. -/
def UnderRoot (D r : List Char) (elems : List (List Char)) : Prop :=
  ∃ rest, r = D ++ rest ∧ pieces rest = [] :: elems ∧ ∀ c ∈ elems, IsPlainName c

/-- `r` is the file `name` in the `oat` directory under `parent_path` of
`dexPath`, a prefix of `dexPath`, and no piece of `r` is `.` or `..`. -/
def InOatDir (dexPath name r : List Char) : Prop :=
  r = parentPath dexPath ++ '/' :: ("oat".toList ++ '/' :: name) ∧ IsFileName name ∧
    parentPath dexPath <+: dexPath ∧ NoDotComponents r

/-- Where a built profile path may point, variant by variant. -/
def Confined (D : List Char) : ProfilePath → List Char → Prop
  | .primaryRefProfilePath p, r =>
      r = D ++ "/misc/profiles/ref/".toList ++ p.packageName ++ '/' :: p.profileName ++
        ".prof".toList ∧ UnderRoot D r (primaryRefElements p)
  | .primaryCurProfilePath p, r =>
      r = D ++ "/misc/profiles/cur/".toList ++ formatInt p.userId ++ '/' :: p.packageName ++
        '/' :: p.profileName ++ ".prof".toList ∧ UnderRoot D r (primaryCurElements p)
  | .prebuiltProfilePath p, r => r = p.dexPath ++ ".prof".toList ∧ NoDotComponents r
  | .secondaryRefProfilePath p, r => InOatDir p.dexPath (filename p.dexPath ++ ".prof".toList) r
  | .secondaryCurProfilePath p, r =>
      InOatDir p.dexPath (filename p.dexPath ++ ".cur.prof".toList) r
  | .tmpProfilePath _, _ | .dexMetadataPath _, _ => False

instance : DecidablePred IsPlainName := fun p =>
  inferInstanceAs (Decidable ((p ≠ [] ∧ '/' ∉ p) ∧ p ≠ ['.'] ∧ p ≠ ['.', '.']))

-- =================================================== primary profiles

/-- A validated profile name with `.prof` appended is a plain filename. -/
theorem isPlainName_append_prof {n : List Char} (h : IsFileName n) :
    IsPlainName (n ++ ".prof".toList) := by
  refine ⟨⟨by simp, by simpa using h.2⟩, ?_, ?_⟩ <;> intro e <;>
    simpa using congrArg List.length e

/-- A root, a separator, and plain filenames joined by separators. -/
theorem underRoot_of_join {D r : List Char} {elems : List (List Char)}
    (hr : r = D ++ '/' :: joinSlash elems) (hne : elems ≠ []) (h : ∀ c ∈ elems, IsPlainName c) :
    UnderRoot D r elems :=
  ⟨_, hr, pieces_root_joinSlash (fun c hc => (h c hc).1) hne, h⟩

variable {env : Env} {D r : List Char}

theorem primaryRef_confined (hD : env.androidData = .ok D) {p : PrimaryRefProfilePath}
    (h : buildPrimaryRefProfilePath env p = .ok r) : Confined D (.primaryRefProfilePath p) r := by
  obtain ⟨hpkg, hprof, rfl⟩ := (buildPrimaryRefProfilePath_ok hD).mp h
  refine ⟨rfl, underRoot_of_join ?_ (by simp [primaryRefElements]) ?_⟩
  · simp [primaryRefElements, joinSlash_cons_cons]
  · simp only [primaryRefElements, List.mem_cons, List.mem_singleton, List.not_mem_nil, or_false]
    rintro c (rfl | rfl | rfl | rfl | rfl)
    · decide
    · decide
    · decide
    · exact isPlainName_of_validatePathElement hpkg
    · exact isPlainName_append_prof (isFileName_of_validatePathElementSubstring hprof)

theorem primaryCur_confined (hD : env.androidData = .ok D) {p : PrimaryCurProfilePath}
    (h : buildPrimaryCurProfilePath env p = .ok r) : Confined D (.primaryCurProfilePath p) r := by
  obtain ⟨hpkg, hprof, rfl⟩ := (buildPrimaryCurProfilePath_ok hD).mp h
  refine ⟨rfl, underRoot_of_join ?_ (by simp [primaryCurElements]) ?_⟩
  · simp [primaryCurElements, joinSlash_cons_cons]
  · simp only [primaryCurElements, List.mem_cons, List.mem_singleton, List.not_mem_nil, or_false]
    rintro c (rfl | rfl | rfl | rfl | rfl | rfl)
    · decide
    · decide
    · decide
    · exact isPlainName_formatInt _
    · exact isPlainName_of_validatePathElement hpkg
    · exact isPlainName_append_prof (isFileName_of_validatePathElementSubstring hprof)

/-- The root and the path fix the elements: splitting what follows the
root gives them back. -/
theorem UnderRoot.elements_eq {e₁ e₂ : List (List Char)} (h₁ : UnderRoot D r e₁)
    (h₂ : UnderRoot D r e₂) : e₁ = e₂ := by
  obtain ⟨rest₁, hr₁, hp₁, -⟩ := h₁
  obtain ⟨rest₂, hr₂, hp₂, -⟩ := h₂
  rw [List.append_cancel_left (hr₁.symm.trans hr₂), hp₂] at hp₁
  exact (List.cons.inj hp₁).2.symm

/-- Splitting recovers the description: two primary descriptions that
build the same path under the same root are the same. -/
theorem primary_injective {p₁ p₂ : ProfilePath} (h₁ : p₁.IsPrimary) (h₂ : p₂.IsPrimary)
    (hc₁ : Confined D p₁ r) (hc₂ : Confined D p₂ r) : p₁ = p₂ := by
  cases p₁ <;> cases p₂ <;> simp only [ProfilePath.IsPrimary] at h₁ h₂ <;>
    simp only [Confined] at hc₁ hc₂ <;> have he := hc₁.2.elements_eq hc₂.2 <;>
    simp [primaryRefElements, primaryCurElements] at he
  · -- two reference profiles: package and profile name
    rename_i q₁ q₂
    cases q₁; cases q₂
    simp only at he
    rw [he.1, he.2]
  · -- two current profiles: user, package and profile name
    rename_i q₁ q₂
    cases q₁; cases q₂
    simp only at he
    rw [formatInt_injective he.1, he.2.1, he.2.2]

-- ================================================ dex-derived profiles

/-- An accepted dex path's filename has no `.` or `..` piece. -/
theorem noDotComponents_filename {dexPath : List Char} (hd : NoDotComponents dexPath) :
    NoDotComponents (filename dexPath) := by
  intro p hp
  rw [pieces_of_not_mem (not_mem_filename _), List.mem_singleton] at hp
  exact hp ▸ hd _ (filename_mem_pieces _)

/-- The secondary profiles of an accepted dex path: a file of the `oat`
directory under its parent. -/
theorem inOatDir_of_valid {dexPath t : List Char}
    (hv : validateAbsoluteNormalPath dexPath = .ok ()) (hs : '/' ∉ t) (hlen : 2 < t.length) :
    InOatDir dexPath (filename dexPath ++ t)
      (parentPath dexPath ++ "/oat/".toList ++ filename dexPath ++ t) := by
  obtain ⟨-, -, hd⟩ := validateAbsoluteNormalPath_ok_iff.mp hv
  have hshape : parentPath dexPath ++ "/oat/".toList ++ filename dexPath ++ t =
      parentPath dexPath ++ '/' :: ("oat".toList ++ '/' :: (filename dexPath ++ t)) := by
    simp
  have hsne : t ≠ [] := by rintro rfl; simp at hlen
  refine ⟨hshape, ⟨by simp [hsne], by simpa using ⟨not_mem_filename _, hs⟩⟩,
    parentPath_prefix _, ?_⟩
  rw [hshape, noDotComponents_append_slash, noDotComponents_append_slash]
  exact ⟨noDotComponents_parentPath hd, by decide,
    noDotComponents_append_long (noDotComponents_filename hd) hs hlen⟩

theorem prebuilt_confined {p : PrebuiltProfilePath} (h : buildPrebuiltProfilePath p = .ok r) :
    Confined D (.prebuiltProfilePath p) r := by
  obtain ⟨hv, rfl⟩ := buildPrebuiltProfilePath_ok.mp h
  exact ⟨rfl, noDotComponents_append_long (validateAbsoluteNormalPath_ok_iff.mp hv).2.2
    (by decide) (by decide)⟩

theorem secondaryRef_confined {p : SecondaryRefProfilePath}
    (h : buildSecondaryRefProfilePath p = .ok r) : Confined D (.secondaryRefProfilePath p) r := by
  obtain ⟨hv, rfl⟩ := buildSecondaryRefProfilePath_ok.mp h
  simpa [List.append_assoc] using inOatDir_of_valid hv (t := ".prof".toList) (by decide) (by decide)

theorem secondaryCur_confined {p : SecondaryCurProfilePath}
    (h : buildSecondaryCurProfilePath p = .ok r) : Confined D (.secondaryCurProfilePath p) r := by
  obtain ⟨hv, rfl⟩ := buildSecondaryCurProfilePath_ok.mp h
  simpa [List.append_assoc] using
    inOatDir_of_valid hv (t := ".cur.prof".toList) (by decide) (by decide)

-- ======================================== where every build can point

/-- Every profile path artd builds stays where its variant says: primary
profiles are a fixed directory chain and the validated names below the
data root, and distinct descriptions get distinct paths; dex-derived
profiles are the dex path plus `.prof`, or a file of the `oat` directory
under its parent, with no `.` or `..` piece. The final path of a
temporary profile is built, and confined, the same way. -/
theorem buildProfileOrDmPath_confined (env : Env) (D : List Char) (hD : env.androidData = .ok D) :
    (∀ p r, p.IsDirect → buildProfileOrDmPath env p = .ok r → Confined D p r) ∧
    (∀ t r, buildFinalProfilePath env t = .ok r → Confined D t.finalPath.toProfilePath r) ∧
    (∀ p₁ p₂ r, p₁.IsPrimary → p₂.IsPrimary → buildProfileOrDmPath env p₁ = .ok r →
      buildProfileOrDmPath env p₂ = .ok r → p₁ = p₂) := by
  have direct : ∀ p r, p.IsDirect → buildProfileOrDmPath env p = .ok r → Confined D p r := by
    rintro (p | p | p | p | p | p | p) r hp h
    · exact primaryRef_confined hD h
    · exact prebuilt_confined h
    · exact primaryCur_confined hD h
    · exact secondaryRef_confined h
    · exact secondaryCur_confined h
    · exact hp.elim
    · exact hp.elim
  refine ⟨direct, ?_, fun p₁ p₂ r h₁ h₂ hb₁ hb₂ => ?_⟩
  · rintro ⟨p | p, id⟩ r h
    · exact primaryRef_confined hD h
    · exact secondaryRef_confined h
  · have hdir : ∀ p : ProfilePath, p.IsPrimary → p.IsDirect := by
      rintro (p | p | p | p | p | p | p) h <;> trivial
    exact primary_injective h₁ h₂ (direct _ _ (hdir _ h₁) hb₁) (direct _ _ (hdir _ h₂) hb₂)

/-- Under the data root `/data`, the reference profile `primary` of
`com.example` is `/data/misc/profiles/ref/com.example/primary.prof`. -/
theorem buildProfileOrDmPath_confined_primaryRef :
    buildProfileOrDmPath ⟨.ok "/data".toList, fun f _ => f, fun f _ => f⟩
        (.primaryRefProfilePath ⟨"com.example".toList, "primary".toList⟩) =
      .ok "/data/misc/profiles/ref/com.example/primary.prof".toList ∧
    Confined "/data".toList (.primaryRefProfilePath ⟨"com.example".toList, "primary".toList⟩)
      "/data/misc/profiles/ref/com.example/primary.prof".toList :=
  ⟨rfl, (buildProfileOrDmPath_confined ⟨.ok "/data".toList, fun f _ => f, fun f _ => f⟩
    "/data".toList rfl).1 _ _ trivial rfl⟩

-- ============================================= dex paths and their files

/-- For a dex file directly under the root, `parent_path` is `"/"` and the
format string's own separator doubles it. -/
theorem secondaryRef_root_file {n : List Char} (hn : IsPlainName n) (h0 : '\x00' ∉ n) :
    buildSecondaryRefProfilePath ⟨'/' :: n⟩ = .ok ("//oat/".toList ++ n ++ ".prof".toList) := by
  have hv : validateAbsoluteNormalPath ('/' :: n) = .ok () := by
    refine validateAbsoluteNormalPath_ok_iff.mpr ⟨by simpa using h0, rfl, ?_⟩
    intro p hp
    rw [pieces_slash_cons, pieces_of_not_mem hn.1.2, List.mem_cons, List.mem_singleton] at hp
    rcases hp with rfl | rfl
    · decide
    · exact hn.2
  refine buildSecondaryRefProfilePath_ok.mpr ⟨hv, ?_⟩
  rw [parentPath_root_file hn.1, show '/' :: n = [] ++ '/' :: n from rfl, filename_file [] hn.1]
  simp

/-- `/base.apk`, directly under the root, gets `//oat/base.apk.prof`. -/
theorem secondaryRef_root_file_apk :
    IsPlainName "base.apk".toList ∧ '\x00' ∉ "base.apk".toList ∧
      buildSecondaryRefProfilePath ⟨"/base.apk".toList⟩ = .ok "//oat/base.apk.prof".toList :=
  ⟨by decide, by decide, secondaryRef_root_file (n := "base.apk".toList) (by decide) (by decide)⟩

/-- Two dex files in one directory share a profile: the reference
profile of `n.cur` and the current profile of `n` are both
`{parent}/oat/n.cur.prof`, and both builders accept the paths. -/
theorem secondaryRef_cur_collide {d n : List Char} (hn : IsFileName n)
    (hv : validateDexPath (d ++ '/' :: n) = .ok ()) :
    ∃ r, buildSecondaryRefProfilePath ⟨d ++ '/' :: (n ++ ".cur".toList)⟩ = .ok r ∧
      buildSecondaryCurProfilePath ⟨d ++ '/' :: n⟩ = .ok r := by
  have hn' : IsFileName (n ++ ".cur".toList) := ⟨by simp, by simpa using hn.2⟩
  have heq : d ++ '/' :: (n ++ ".cur".toList) = (d ++ '/' :: n) ++ ".cur".toList := by simp
  rw [validateDexPath_eq] at hv
  obtain ⟨h0, habs, hdot⟩ := validateAbsoluteNormalPath_ok_iff.mp hv
  -- the longer name passes the same checks
  have hv' : validateAbsoluteNormalPath (d ++ '/' :: (n ++ ".cur".toList)) = .ok () := by
    refine validateAbsoluteNormalPath_ok_iff.mpr ⟨?_, ?_, ?_⟩
    · rw [heq]; simpa using h0
    · cases d with
      | nil => rfl
      | cons c d => simpa [isAbsolute, hasRootDirectory] using habs
    · rw [heq]; exact noDotComponents_append_long hdot (by decide) (by decide)
  refine ⟨_, buildSecondaryRefProfilePath_ok.mpr ⟨hv', rfl⟩,
    buildSecondaryCurProfilePath_ok.mpr ⟨hv, ?_⟩⟩
  rw [parentPath_file_eq d hn, parentPath_file_eq d hn', filename_file d hn, filename_file d hn']
  simp only [List.append_assoc]
  rfl

/-- `/data/a.cur` and `/data/a`. -/
theorem secondaryRef_cur_collide_data :
    IsFileName "a".toList ∧ validateDexPath "/data/a".toList = .ok () ∧
      ∃ r, buildSecondaryRefProfilePath ⟨"/data/a.cur".toList⟩ = .ok r ∧
        buildSecondaryCurProfilePath ⟨"/data/a".toList⟩ = .ok r :=
  ⟨⟨by simp, by decide⟩, rfl,
    secondaryRef_cur_collide (d := "/data".toList) (n := "a".toList) ⟨by simp, by decide⟩ rfl⟩

end AndroidArt.Artd
