/-
What `lexically_normal` does to an absolute pathname, and when the
result compares equal to the pathname it came from.

# The rooted stack

On an absolute pathname the first element is the root, so the stack of
`normalStep` always holds filenames on top of the root (`normalStep_rooted`):
a `..` finds either a filename to pop or the root and is dropped, and is
never pushed. A kept filename is never `.` or `..` (`IsPlainName`). The
result is therefore the root followed by plain filenames, with at most a
trailing separator (`lexicallyNormal_absolute`).

# Comparing with the input

`operator!=` compares elements. A pathname whose filenames are all plain
keeps every one of them, so its normal form has its elements
(`lexicallyNormal_of_plain`); a pathname with a `.` or `..` has
an element the normal form lacks. Hence `elements_lexicallyNormal_eq_iff`:
the element comparison accepts exactly the absolute pathnames with no
`.` or `..` piece, whatever runs of separators they hold.
-/
import AndroidArt.Filesystem.Path

namespace AndroidArt.Filesystem

-- ============================================== statement vocabulary

/-- A filename `lexically_normal` keeps: a filename other than `.` and `..`. -/
def IsPlainName (p : List Char) : Prop := IsFileName p ∧ p ≠ ['.'] ∧ p ≠ ['.', '.']

/-- No `'/'`-separated piece of the pathname is `.` or `..`. -/
def NoDotComponents (s : List Char) : Prop := ∀ p ∈ pieces s, p ≠ ['.'] ∧ p ≠ ['.', '.']

instance (s : List Char) : Decidable (NoDotComponents s) :=
  inferInstanceAs (Decidable (∀ p ∈ pieces s, _))

/-- The pathname `lexically_normal` renders from the root, filenames `F`
and a trailing-separator flag. -/
def renderRooted (F : List (List Char)) (trailing : Bool) : List Char :=
  '/' :: (joinSlash F ++ if trailing then ['/'] else [])

-- ======================================================= filenames

theorem mem_fileNames {s p : List Char} (hp : p ∈ fileNames s) : IsFileName p := by
  obtain ⟨hp, hne⟩ := List.mem_filter.mp hp
  exact ⟨by simpa using hne, not_mem_of_mem_pieces hp⟩

theorem classifyPathPart_dotDot : classifyPathPart ['.', '.'] = .dotDot := rfl

theorem classifyPathPart_of_plain {p : List Char} (hp : IsPlainName p) :
    classifyPathPart p = .filename := by
  have hslash : p ≠ ['/'] := fun e => hp.1.2 (by simp [e])
  simp [classifyPathPart, hp.1.1, hp.2.1, hp.2.2, hslash]

/-- Over filenames, having no `.` or `..` piece is having only plain ones. -/
theorem noDotComponents_iff {s : List Char} :
    NoDotComponents s ↔ ∀ p ∈ fileNames s, IsPlainName p := by
  constructor
  · intro h p hp
    exact ⟨mem_fileNames hp, h p (List.mem_filter.mp hp).1⟩
  · intro h p hp
    by_cases hp0 : p = []
    · simp [hp0]
    · exact (h p (List.mem_filter.mpr ⟨hp, by simpa using hp0⟩)).2

theorem fileNames_ne_nil_of_trailing {s : List Char} (h : hasTrailingSeparator s = true) :
    fileNames s ≠ [] := by
  simp only [hasTrailingSeparator, Bool.and_eq_true] at h
  simpa using h.1

/-- An absolute pathname's elements: the root, its filenames, and the
trailing empty element if any. -/
theorem elements_of_absolute {s : List Char} (hs : isAbsolute s) :
    elements s = ['/'] :: (fileNames s ++ if hasTrailingSeparator s then [[]] else []) := by
  simp [elements, isAbsolute] at hs ⊢
  simp [hs]

-- ==================================================== the stack step

variable {F : List (List Char)} {m : Bool}

@[simp] theorem normalStep_root (st : NormalState) :
    normalStep st ['/'] = ⟨['/'] :: st.parts, false⟩ := rfl

/-- A plain filename is pushed. -/
theorem normalStep_plain {p : List Char} (hp : IsPlainName p) (st : NormalState) :
    normalStep st p = ⟨p :: st.parts, false⟩ := by
  simp [normalStep, classifyPathPart_of_plain hp]

/-- The stack step on a rooted stack: it stays filenames on the root,
and the filenames stay plain. -/
theorem normalStep_rooted (hF : ∀ f ∈ F, IsPlainName f) {p : List Char}
    (hp : p = [] ∨ IsFileName p) :
    ∃ F' m', normalStep ⟨F ++ [['/']], m⟩ p = ⟨F' ++ [['/']], m'⟩ ∧ ∀ f ∈ F', IsPlainName f := by
  by_cases hd : p = ['.', '.']
  · subst hd
    cases F with
    | nil => exact ⟨[], false, rfl, by simp⟩
    | cons f F =>
        have hf := classifyPathPart_of_plain (hF f (List.mem_cons_self _ _))
        refine ⟨F, true, ?_, fun g hg => hF g (List.mem_cons_of_mem _ hg)⟩
        simp [normalStep, classifyPathPart_dotDot, lastPartKind, hf]
  by_cases hdot : p = ['.']
  · subst hdot
    exact ⟨F, true, rfl, hF⟩
  rcases hp with rfl | hp
  · exact ⟨F, true, rfl, hF⟩
  · have hplain : IsPlainName p := ⟨hp, hdot, hd⟩
    refine ⟨p :: F, false, normalStep_plain hplain _, ?_⟩
    simpa [hplain] using hF

/-- The rooted shape survives a whole run over filenames and empty elements. -/
theorem foldl_normalStep_rooted (hF : ∀ f ∈ F, IsPlainName f) {ps : List (List Char)}
    (hps : ∀ p ∈ ps, p = [] ∨ IsFileName p) :
    ∃ F' m', ps.foldl normalStep ⟨F ++ [['/']], m⟩ = ⟨F' ++ [['/']], m'⟩ ∧
      ∀ f ∈ F', IsPlainName f := by
  induction ps generalizing F m with
  | nil => exact ⟨F, m, rfl, hF⟩
  | cons p ps ih =>
      obtain ⟨F₁, m₁, hstep, hF₁⟩ := normalStep_rooted (m := m) hF (hps p (List.mem_cons_self _ _))
      rw [List.foldl_cons, hstep]
      exact ih hF₁ fun q hq => hps q (List.mem_cons_of_mem _ hq)

/-- A run over plain filenames pushes them all. -/
theorem foldl_normalStep_plain {ps : List (List Char)} (hps : ∀ p ∈ ps, IsPlainName p)
    (st : NormalState) :
    ps.foldl normalStep st = ⟨ps.reverse ++ st.parts, st.maybeNeedTrailingSep && ps.isEmpty⟩ := by
  induction ps generalizing st with
  | nil => simp
  | cons p ps ih =>
      rw [List.foldl_cons, normalStep_plain (hps p (List.mem_cons_self _ _)),
        ih fun q hq => hps q (List.mem_cons_of_mem _ hq)]
      simp

-- ================================================= the rendered result

/-- Rendering a rooted stack: the root, the filenames bottom to top, and
a trailing separator when one was asked for and a filename is on top. -/
theorem lexicallyNormal_of_rooted {s : List Char} (hs : s ≠ [])
    (hF : ∀ f ∈ F, IsPlainName f) (hrun : (elements s).foldl normalStep ⟨[], false⟩ = ⟨F ++ [['/']], m⟩) :
    lexicallyNormal s = renderRooted F.reverse (m && !F.isEmpty) := by
  have hnames : ∀ p ∈ F.reverse, IsFileName p := fun p hp => (hF p (List.mem_reverse.mp hp)).1
  have hrender : (F ++ [['/']]).reverse.foldl appendPath [] = '/' :: joinSlash F.reverse := by
    simpa using render_root hnames
  have hlast : (lastPartKind (F ++ [['/']]) == some .filename) = !F.isEmpty := by
    cases F with
    | nil => decide
    | cons f F => simp [lastPartKind, classifyPathPart_of_plain (hF f (List.mem_cons_self _ _))]
  have hne : ¬(F ++ [['/']]).isEmpty := by simp
  rw [lexicallyNormal, if_neg (by simpa [List.isEmpty_iff] using hs)]
  simp only [hrun, hrender, hlast, if_neg hne]
  cases ht : (m && !F.isEmpty)
  · simp [renderRooted]
  · obtain ⟨f, G, hfG⟩ := List.exists_cons_of_ne_nil (by simpa using ht : m = true ∧ F ≠ []).2
    have hf := (hF f (hfG ▸ List.mem_cons_self _ _)).1
    rw [if_pos rfl, appendPath_nil (by rw [hfG, List.reverse_cons,
      filename_root_joinSlash_concat _ hf.2]; exact hf.1)]
    simp [renderRooted]

/-- Every absolute pathname runs to a rooted stack. -/
theorem normalRun_absolute {s : List Char} (hs : isAbsolute s) :
    ∃ F m, (elements s).foldl normalStep ⟨[], false⟩ = ⟨F ++ [['/']], m⟩ ∧
      ∀ f ∈ F, IsPlainName f := by
  rw [elements_of_absolute hs, List.foldl_cons]
  refine foldl_normalStep_rooted (F := []) (by simp) fun p hp => ?_
  rcases List.mem_append.mp hp with hp | hp
  · exact .inr (mem_fileNames hp)
  · left
    split at hp <;> simp_all

/-- The normal form of an absolute pathname is the root, plain filenames
and at most a trailing separator after the last of them. -/
theorem lexicallyNormal_absolute {s : List Char} (hs : isAbsolute s) :
    ∃ F t, (∀ f ∈ F, IsPlainName f) ∧ (t = true → F ≠ []) ∧
      lexicallyNormal s = renderRooted F t := by
  obtain ⟨F, m, hrun, hF⟩ := normalRun_absolute hs
  have hne : s ≠ [] := by rintro rfl; simp [isAbsolute, hasRootDirectory] at hs
  refine ⟨F.reverse, m && !F.isEmpty, fun f hf => hF f (List.mem_reverse.mp hf), ?_,
    lexicallyNormal_of_rooted hne hF hrun⟩
  intro ht
  simpa using (by simpa using ht : m = true ∧ F ≠ []).2

/-- A pathname with only plain filenames normalises to the root, those
filenames, and its own trailing separator. -/
theorem lexicallyNormal_of_plain {s : List Char} (hs : isAbsolute s) (hd : NoDotComponents s) :
    lexicallyNormal s = renderRooted (fileNames s) (hasTrailingSeparator s) := by
  have hplain := noDotComponents_iff.mp hd
  have hne : s ≠ [] := by rintro rfl; simp [isAbsolute, hasRootDirectory] at hs
  have hrun : (elements s).foldl normalStep ⟨[], false⟩ =
      ⟨(fileNames s).reverse ++ [['/']], hasTrailingSeparator s⟩ := by
    rw [elements_of_absolute hs, List.foldl_cons, List.foldl_append,
      foldl_normalStep_plain hplain]
    cases ht : hasTrailingSeparator s
    · simp
    · have hfn := fileNames_ne_nil_of_trailing ht
      simp [normalStep, classifyPathPart, hfn]
  rw [lexicallyNormal_of_rooted hne (fun f hf => hplain f (List.mem_reverse.mp hf)) hrun,
    List.reverse_reverse]
  congr 1
  cases ht : hasTrailingSeparator s
  · rfl
  · simp [fileNames_ne_nil_of_trailing ht]

/-- The elements of a rendered normal form. -/
theorem elements_renderRooted {F : List (List Char)} (hF : ∀ f ∈ F, IsFileName f) {t : Bool}
    (ht : t = true → F ≠ []) :
    elements (renderRooted F t) = ['/'] :: (F ++ if t then [[]] else []) := by
  cases t
  · simpa [renderRooted] using elements_root_joinSlash hF
  · simpa [renderRooted] using elements_root_joinSlash_slash hF (ht rfl)

/-- The element comparison of `ValidateAbsoluteNormalPath`: an absolute
pathname compares equal to its normal form exactly when no piece of it
is `.` or `..`. -/
theorem elements_lexicallyNormal_eq_iff {s : List Char} (hs : isAbsolute s) :
    elements (lexicallyNormal s) = elements s ↔ NoDotComponents s := by
  constructor
  · intro heq
    obtain ⟨F, t, hF, ht, hnorm⟩ := lexicallyNormal_absolute hs
    rw [hnorm, elements_renderRooted (fun f hf => (hF f hf).1) ht, elements_of_absolute hs,
      List.cons.injEq] at heq
    refine noDotComponents_iff.mpr fun p hp => ?_
    have hmem : p ∈ F ++ (if t then [[]] else []) := heq.2 ▸ List.mem_append_left _ hp
    rcases List.mem_append.mp hmem with hpF | hpT
    · exact hF p hpF
    · have := (mem_fileNames hp).1
      split at hpT <;> simp_all
  · intro hd
    rw [lexicallyNormal_of_plain hs hd, elements_of_absolute hs,
      elements_renderRooted (fun f hf => mem_fileNames hf) fileNames_ne_nil_of_trailing]

-- ============================================= runs of separators

private theorem joinSlash_nil_cons {ps : List (List Char)} (h : ps ≠ []) :
    joinSlash ([] :: ps) = '/' :: joinSlash ps := by
  simpa using @joinSlash_append [[]] _ (by simp) h

/-- A pathname holds `//` exactly when a piece other than its first and
last is empty. -/
theorem slash_slash_infix_iff {s p q : List Char} {M : List (List Char)}
    (h : pieces s = p :: (M ++ [q])) : ['/', '/'] <:+: s ↔ [] ∈ M := by
  constructor
  · rintro ⟨a, b, rfl⟩
    rw [List.append_assoc, List.cons_append, List.cons_append, List.nil_append,
      pieces_append_slash, pieces_slash_cons] at h
    obtain ⟨a₀, as, ha⟩ := List.exists_cons_of_ne_nil (pieces_ne_nil a)
    obtain ⟨bs, bl, hb⟩ := List.eq_nil_or_concat (pieces b) |>.resolve_left (pieces_ne_nil b)
    rw [ha, hb, List.concat_eq_append, List.cons_append, List.cons.injEq] at h
    have h2 : M ++ [q] = (as ++ [] :: bs) ++ [bl] := by simpa using h.2.symm
    simp [List.append_inj_left' h2 rfl]
  · intro hm
    obtain ⟨m₁, m₂, rfl⟩ := List.append_of_mem hm
    have hs : s = joinSlash (p :: m₁) ++ '/' :: joinSlash ([] :: (m₂ ++ [q])) := by
      rw [← joinSlash_pieces s, h, ← joinSlash_append (List.cons_ne_nil _ _) (List.cons_ne_nil _ _)]
      simp
    rw [joinSlash_nil_cons (by simp)] at hs
    exact ⟨joinSlash (p :: m₁), joinSlash (m₂ ++ [q]), by rw [hs]; simp⟩

variable {t : Bool}

/-- The pieces of a rendered normal form with at least one filename. -/
theorem pieces_renderRooted (hF : ∀ f ∈ F, IsFileName f) (hne : F ≠ []) (t : Bool) :
    pieces (renderRooted F t) = [] :: (F ++ if t then [[]] else []) := by
  cases t
  · simpa [renderRooted] using pieces_root_joinSlash hF hne
  · rw [renderRooted, if_pos rfl, ← joinSlash_concat hne, pieces_slash_cons,
      pieces_joinSlash _ (by simp)]
    · simp
    · intro p hp
      rcases List.mem_append.mp hp with hp | hp
      · exact (hF p hp).2
      · simp_all

/-- A rendered normal form holds no `//`. -/
theorem renderRooted_not_infix (hF : ∀ f ∈ F, IsFileName f) (ht : t = true → F ≠ []) :
    ¬['/', '/'] <:+: renderRooted F t := by
  rcases List.eq_nil_or_concat F with rfl | ⟨G, f, rfl⟩
  · cases t
    · exact fun h => by simpa [renderRooted] using h.length_le
    · exact absurd rfl (ht rfl)
  simp only [List.concat_eq_append] at hF ⊢
  have hnil : [] ∉ G := fun h => (hF [] (by simp [h])).1 rfl
  have hne : G ++ [f] ≠ [] := by simp
  cases t
  · rw [slash_slash_infix_iff (M := G) (q := f) (by simpa using pieces_renderRooted hF hne false)]
    exact hnil
  · rw [slash_slash_infix_iff (M := G ++ [f]) (q := [])
      (by simpa using pieces_renderRooted hF hne true)]
    simpa [hnil] using (hF f (by simp)).1.symm

/-- On an absolute pathname with no `.` or `..` piece, being character for
character its own normal form is holding no `//`. -/
theorem lexicallyNormal_eq_self_iff {s : List Char} (hs : isAbsolute s) (hd : NoDotComponents s) :
    lexicallyNormal s = s ↔ ¬['/', '/'] <:+: s := by
  constructor
  · intro h
    rw [← h, lexicallyNormal_of_plain hs hd]
    exact renderRooted_not_infix (fun f hf => mem_fileNames hf) fileNames_ne_nil_of_trailing
  · intro hno
    obtain ⟨s', rfl⟩ : ∃ s', s = '/' :: s' := by
      cases s with
      | nil => simp [isAbsolute, hasRootDirectory] at hs
      | cons c s' => exact ⟨s', by simpa [isAbsolute, hasRootDirectory] using hs⟩
    obtain ⟨mid, q, hq⟩ := (List.eq_nil_or_concat (pieces s')).resolve_left (pieces_ne_nil s')
    rw [List.concat_eq_append] at hq
    have hps : pieces ('/' :: s') = [] :: (mid ++ [q]) := by rw [pieces_slash_cons, hq]
    have hmid : [] ∉ mid := fun h => hno ((slash_slash_infix_iff hps).mpr h)
    have hself : '/' :: s' = '/' :: joinSlash (mid ++ [q]) := by
      conv => lhs; rw [← joinSlash_pieces ('/' :: s'), hps]
      exact joinSlash_nil_cons (by simp)
    have hmid' : mid.filter (fun p => !p.isEmpty) = mid :=
      List.filter_eq_self.mpr fun p hp => by
        cases p
        · exact absurd hp hmid
        · rfl
    rw [lexicallyNormal_of_plain hs hd, fileNames, hasTrailingSeparator, fileNames, hps,
      getLast?_cons_concat, List.filter_cons_of_neg (by simp), List.filter_append, hmid', hself]
    rcases eq_or_ne q [] with rfl | hq0
    · rcases eq_or_ne mid [] with rfl | hm0
      · rfl
      · simp [renderRooted, hm0, joinSlash_concat hm0]
    · simp [renderRooted, hq0]

end AndroidArt.Filesystem
