/-
`std::filesystem::path` on POSIX, as far as artd's `path_utils.cc` reads
it: construction from a `std::string`, `is_absolute`, `lexically_normal`,
`operator!=`, `parent_path`, `filename` and `string`. The library is not
part of the repository; each definition follows the generic-format
grammar and the operation's wording in [fs.path], and `lexically_normal`
follows the element stack libc++ runs.

A pathname is its `List Char`. POSIX has no root-name, so a pathname is
an optional root-directory (one or more leading separators) followed by
filenames separated by runs of separators, possibly with a trailing run.

# Elements

`elements` is what `path::iterator` visits: the root-directory as `"/"`,
each filename, then one empty element when a separator follows the last
filename. Two paths compare equal exactly when their elements do, which
is why `"/a//b"` and `"/a/b"` are the same path although they are not
the same string.

# Rendering

`lexically_normal` rebuilds its result with `operator/=`; `appendPath`
models that operator and `render_root` computes what it builds from a
root and a list of filenames, so that `elements_render` can read the
elements of a normalised path back (the round trip the comparison in
`ValidateAbsoluteNormalPath` depends on).
-/
import Mathlib.Data.List.Basic
import Mathlib.Data.List.DropRight

namespace AndroidArt.Filesystem

-- ================================================ the generic grammar

/-- The `'/'`-separated pieces of a pathname, empty ones included:
`"/a//b"` has the pieces `"", "a", "", "b"`. -/
def pieces (s : List Char) : List (List Char) := s.splitOn '/'

/-- The filenames of a pathname: its nonempty pieces, in order. -/
def fileNames (s : List Char) : List (List Char) :=
  (pieces s).filter fun p => !p.isEmpty

/-- `has_root_directory()`: with no root-name on POSIX, a pathname has a
root-directory exactly when it starts with a separator. -/
def hasRootDirectory (s : List Char) : Bool := s.head? == some '/'

/-- `is_absolute()`: on POSIX, having a root-directory. -/
def isAbsolute (s : List Char) : Bool := hasRootDirectory s

/-- A separator after the last filename (the last piece is empty), which
iteration reports as a final empty element. -/
def hasTrailingSeparator (s : List Char) : Bool :=
  !(fileNames s).isEmpty && (pieces s).getLast? == some []

/-- The elements `path::iterator` visits ([fs.path.itr]): the
root-directory as `"/"`, each filename, and an empty element for a
trailing separator. -/
def elements (s : List Char) : List (List Char) :=
  (if hasRootDirectory s then [['/']] else []) ++ fileNames s
    ++ (if hasTrailingSeparator s then [[]] else [])

/-- `operator==` on paths: `compare` walks the two element sequences
([fs.path.compare]), so paths are equal when their elements are. -/
def pathEquals (a b : List Char) : Bool := elements a == elements b

-- ================================================== decomposition

/-- `filename()`: the text after the last separator, which is the last
filename, or empty when the pathname ends in a separator. -/
def filename (s : List Char) : List Char := s.rtakeWhile (· != '/')

/-- `parent_path()`: the pathname itself when it has no filename, else
its longest prefix with one element fewer ([fs.path.decompose]).
Dropping a trailing separator's empty element leaves the prefix up to
the last filename; dropping a last filename also drops the separators
before it, unless those are the root-directory. -/
def parentPath (s : List Char) : List Char :=
  if (fileNames s).isEmpty then s
  else if hasTrailingSeparator s then s.rdropWhile (· == '/')
  else
    let dir := s.rdropWhile (· != '/')
    if dir.all (· == '/') then dir else dir.rdropWhile (· == '/')

/-- `operator/=` on POSIX ([fs.path.append]): an absolute operand
replaces the pathname; otherwise a separator goes in first when the
pathname has a filename. -/
def appendPath (s p : List Char) : List Char :=
  if isAbsolute p then p else if (filename s).isEmpty then s ++ p else s ++ '/' :: p

-- ================================================= lexically_normal

/-- How `lexically_normal` classifies an element (libc++'s
`PathPartKind`, less the `PK_None` that no element has). -/
inductive PartKind
  | trailingSep
  | dot
  | dotDot
  | rootSep
  | filename
  deriving DecidableEq, Repr

/-- `ClassifyPathPart`. -/
def classifyPathPart (part : List Char) : PartKind :=
  if part = [] then .trailingSep
  else if part = ['.'] then .dot
  else if part = ['.', '.'] then .dotDot
  else if part = ['/'] then .rootSep
  else .filename

/-- The kind of the part on top of the stack (`LastPartKind`). -/
def lastPartKind (parts : List (List Char)) : Option PartKind :=
  parts.head?.map classifyPathPart

/-- The state of `lexically_normal`'s loop: the parts kept so far, top
first, and `MaybeNeedTrailingSep`. -/
structure NormalState where
  parts : List (List Char)
  maybeNeedTrailingSep : Bool

/-- One element through `lexically_normal`'s loop: filenames and the
root are pushed, `..` pops a filename (and is dropped right after the
root), `.` and the trailing empty element only ask for a trailing
separator. -/
def normalStep (st : NormalState) (part : List Char) : NormalState :=
  match classifyPathPart part with
  | .filename | .rootSep => ⟨part :: st.parts, false⟩
  | .dotDot =>
      let lastKind := lastPartKind st.parts
      ⟨if lastKind = some .filename then st.parts.tail
        else if lastKind ≠ some .rootSep then ['.', '.'] :: st.parts
        else st.parts,
       lastKind = some .filename⟩
  | .dot | .trailingSep => ⟨st.parts, true⟩

/-- `lexically_normal()` ([fs.path.generic] normalization): run the
element stack, then rebuild the kept parts with `operator/=`, adding a
trailing separator when a dropped `.` or empty element followed the
last kept filename. -/
def lexicallyNormal (s : List Char) : List Char :=
  if s.isEmpty then s
  else
    let st := (elements s).foldl normalStep ⟨[], false⟩
    if st.parts.isEmpty then ['.']
    else
      let result := st.parts.reverse.foldl appendPath []
      if st.maybeNeedTrailingSep && lastPartKind st.parts == some .filename then
        appendPath result []
      else result

example : lexicallyNormal "/a/./b/../c/".toList = "/a/c/".toList := by decide

example : lexicallyNormal "/a//b".toList = "/a/b".toList := by decide

-- ======================================================= the pieces

/-- Filenames joined by single separators. -/
def joinSlash (ps : List (List Char)) : List Char := ['/'].intercalate ps

@[simp] theorem pieces_nil : pieces [] = [[]] := rfl

@[simp] theorem pieces_slash_cons (s : List Char) : pieces ('/' :: s) = [] :: pieces s := by
  simp [pieces, List.splitOn]

theorem pieces_cons_of_ne {c : Char} (hc : c ≠ '/') (s : List Char) :
    pieces (c :: s) = (pieces s).modifyHead (c :: ·) := by
  simp [pieces, List.splitOn, hc]

theorem pieces_ne_nil (s : List Char) : pieces s ≠ [] := List.splitOnP_ne_nil _ _

/-- A pathname without separators is one piece. -/
theorem pieces_of_not_mem {s : List Char} (h : '/' ∉ s) : pieces s = [s] :=
  List.splitOnP_eq_single _ _ fun c hc hsep => h (by rwa [← beq_iff_eq.mp hsep])

/-- A separator between two pathnames splits between their pieces. -/
theorem pieces_append_slash (a b : List Char) : pieces (a ++ '/' :: b) = pieces a ++ pieces b := by
  induction a with
  | nil => simp
  | cons c a ih =>
      by_cases hc : c = '/'
      · subst hc
        simp [ih]
      · obtain ⟨q, qs, hq⟩ := List.exists_cons_of_ne_nil (pieces_ne_nil a)
        rw [List.cons_append, pieces_cons_of_ne hc, pieces_cons_of_ne hc, ih, hq]
        rfl

/-- Text without separators appended to a pathname extends its last piece. -/
theorem pieces_append_of_not_mem (s : List Char) {t : List Char} (ht : '/' ∉ t) :
    ∃ init last, pieces s = init ++ [last] ∧ pieces (s ++ t) = init ++ [last ++ t] := by
  induction s with
  | nil => exact ⟨[], [], rfl, by simpa using pieces_of_not_mem ht⟩
  | cons c s ih =>
      obtain ⟨init, last, h1, h2⟩ := ih
      by_cases hc : c = '/'
      · subst hc
        exact ⟨[] :: init, last, by simp [h1], by simp [h2]⟩
      · rw [List.cons_append, pieces_cons_of_ne hc, pieces_cons_of_ne hc, h1, h2]
        cases init with
        | nil => exact ⟨[], c :: last, rfl, rfl⟩
        | cons i is => exact ⟨(c :: i) :: is, last, rfl, rfl⟩

/-- No piece holds a separator. -/
theorem not_mem_of_mem_pieces {s p : List Char} (hp : p ∈ pieces s) : '/' ∉ p := by
  induction s generalizing p with
  | nil => simp_all
  | cons c s ih =>
      by_cases hc : c = '/'
      · subst hc
        simp only [pieces_slash_cons, List.mem_cons] at hp
        rcases hp with rfl | hp
        · simp
        · exact ih hp
      · rw [pieces_cons_of_ne hc] at hp
        obtain ⟨q, qs, hq⟩ := List.exists_cons_of_ne_nil (pieces_ne_nil s)
        rw [hq] at hp ih
        simp only [List.modifyHead_cons, List.mem_cons] at hp
        rcases hp with rfl | hp
        · simpa [Ne.symm hc] using ih (List.mem_cons_self _ _)
        · exact ih (List.mem_cons_of_mem _ hp)

/-- Splitting a join of separator-free pieces gives them back. -/
theorem pieces_joinSlash {ps : List (List Char)} (h : ∀ p ∈ ps, '/' ∉ p) (hne : ps ≠ []) :
    pieces (joinSlash ps) = ps :=
  List.splitOn_intercalate ps '/' h hne

/-- Joining the pieces gives the pathname back. -/
theorem joinSlash_pieces (s : List Char) : joinSlash (pieces s) = s :=
  List.intercalate_splitOn s '/'

-- ============================================= joins and filenames

@[simp] theorem joinSlash_nil : joinSlash [] = [] := rfl

@[simp] theorem joinSlash_singleton (p : List Char) : joinSlash [p] = p := by
  simp [joinSlash, List.intercalate]

theorem joinSlash_cons_cons (p q : List Char) (ps : List (List Char)) :
    joinSlash (p :: q :: ps) = p ++ '/' :: joinSlash (q :: ps) := by
  simp [joinSlash, List.intercalate]

/-- Joining two nonempty lists of pieces puts one separator between them. -/
theorem joinSlash_append {ps qs : List (List Char)} (hp : ps ≠ []) (hq : qs ≠ []) :
    joinSlash (ps ++ qs) = joinSlash ps ++ '/' :: joinSlash qs := by
  induction ps with
  | nil => contradiction
  | cons p ps ih =>
      obtain ⟨q, qs', rfl⟩ := List.exists_cons_of_ne_nil hq
      cases ps with
      | nil => simp [joinSlash_cons_cons]
      | cons r rs =>
          rw [List.cons_append, List.cons_append, joinSlash_cons_cons, ← List.cons_append,
            ih (List.cons_ne_nil _ _), joinSlash_cons_cons]
          simp

/-- Joining one more piece puts one more separator. -/
theorem joinSlash_concat {ps : List (List Char)} (h : ps ≠ []) (n : List Char) :
    joinSlash (ps ++ [n]) = joinSlash ps ++ '/' :: n := by
  simpa using joinSlash_append h (List.cons_ne_nil n [])

/-- The filename of a pathname whose last separator precedes `n` is `n`. -/
theorem filename_append_slash (s : List Char) {n : List Char} (h : '/' ∉ n) :
    filename (s ++ '/' :: n) = n := by
  have hn : ∀ c ∈ n.reverse, (c != '/') = true := fun c hc =>
    bne_iff_ne.mpr fun e => h (e ▸ List.mem_reverse.mp hc)
  simp [filename, List.rtakeWhile, List.takeWhile_append_of_pos hn]

/-- The filename of a rendered root-and-filenames pathname is its last
filename. -/
theorem filename_root_joinSlash_concat (ns : List (List Char)) {n : List Char} (hn : '/' ∉ n) :
    filename ('/' :: joinSlash (ns ++ [n])) = n := by
  cases ns with
  | nil => simpa using filename_append_slash [] hn
  | cons p ps =>
      rw [joinSlash_concat (List.cons_ne_nil _ _), ← List.cons_append]
      exact filename_append_slash _ hn

/-- A pathname that is not absolute is appended after a separator when
the left side has a filename, and directly when it does not. -/
theorem appendPath_of_not_absolute (s : List Char) {p : List Char} (hp : p.head? ≠ some '/') :
    appendPath s p = if (filename s).isEmpty then s ++ p else s ++ '/' :: p := by
  simp [appendPath, isAbsolute, hasRootDirectory, hp]


/-- A filename is neither empty nor holds a separator. -/
def IsFileName (p : List Char) : Prop := p ≠ [] ∧ '/' ∉ p

theorem IsFileName.head_ne {p : List Char} (h : IsFileName p) : p.head? ≠ some '/' := by
  cases p with
  | nil => simp
  | cons c cs =>
      intro e
      obtain rfl : c = '/' := by simpa using e
      exact h.2 (List.mem_cons_self _ _)

/-- Appending the empty path adds a separator after a filename. -/
theorem appendPath_nil {s : List Char} (h : filename s ≠ []) : appendPath s [] = s ++ ['/'] := by
  rw [appendPath_of_not_absolute _ (by simp), if_neg (by simpa [List.isEmpty_iff] using h)]

/-- `operator/=` through filenames after a last filename `n` puts one
separator before each. -/
theorem foldl_appendPath (acc : List Char) {n : List Char} (hn : IsFileName n)
    {ns : List (List Char)} (h : ∀ p ∈ ns, IsFileName p) :
    ns.foldl appendPath (acc ++ '/' :: n) = acc ++ '/' :: joinSlash (n :: ns) := by
  induction ns generalizing acc n with
  | nil => simp
  | cons m ms ih =>
      have hm := h m (List.mem_cons_self _ _)
      rw [List.foldl_cons, appendPath_of_not_absolute _ hm.head_ne, filename_append_slash _ hn.2]
      rw [if_neg (by simpa [List.isEmpty_iff] using hn.1)]
      rw [show acc ++ '/' :: n ++ '/' :: m = (acc ++ '/' :: n) ++ '/' :: m by simp,
        ih _ hm fun p hp => h p (List.mem_cons_of_mem _ hp), joinSlash_cons_cons]
      simp

/-- What `lexically_normal` builds from the root and a list of filenames. -/
theorem render_root {names : List (List Char)} (h : ∀ p ∈ names, IsFileName p) :
    (['/'] :: names).foldl appendPath [] = '/' :: joinSlash names := by
  cases names with
  | nil => rfl
  | cons n ns =>
      have hn := h n (List.mem_cons_self _ _)
      have hroot : appendPath [] ['/'] = [] ++ '/' :: [] := rfl
      rw [List.foldl_cons, List.foldl_cons, hroot, appendPath_of_not_absolute _ hn.head_ne]
      simpa [filename] using foldl_appendPath [] hn fun p hp => h p (List.mem_cons_of_mem _ hp)

theorem getLast?_cons_concat {α : Type} (x : α) (l : List α) (y : α) :
    (x :: (l ++ [y])).getLast? = some y := by
  rw [← List.cons_append, List.getLast?_concat]

/-- The pieces of a rendered root-and-filenames pathname. -/
theorem pieces_root_joinSlash {names : List (List Char)} (h : ∀ p ∈ names, IsFileName p)
    (hne : names ≠ []) : pieces ('/' :: joinSlash names) = [] :: names := by
  rw [pieces_slash_cons, pieces_joinSlash (fun p hp => (h p hp).2) hne]

/-- Reading a rendered root-and-filenames pathname back gives its parts. -/
theorem elements_root_joinSlash {names : List (List Char)} (h : ∀ p ∈ names, IsFileName p) :
    elements ('/' :: joinSlash names) = ['/'] :: names := by
  rcases List.eq_nil_or_concat names with rfl | ⟨ns, n, rfl⟩
  · decide
  · rw [List.concat_eq_append] at h ⊢
    have hn := h n (by simp)
    have hfn : fileNames ('/' :: joinSlash (ns ++ [n])) = ns ++ [n] := by
      rw [fileNames, pieces_root_joinSlash h (by simp), List.filter_cons_of_neg (by simp),
        List.filter_eq_self]
      exact fun p hp => by simpa using (h p hp).1
    rw [elements, hasTrailingSeparator, hfn, pieces_root_joinSlash h (by simp),
      getLast?_cons_concat]
    simp [hasRootDirectory, hn.1]

/-- The same with a trailing separator: the final empty element appears. -/
theorem elements_root_joinSlash_slash {names : List (List Char)}
    (h : ∀ p ∈ names, IsFileName p) (hne : names ≠ []) :
    elements ('/' :: (joinSlash names ++ ['/'])) = ['/'] :: names ++ [[]] := by
  have hp : pieces ('/' :: (joinSlash names ++ ['/'])) = [] :: (names ++ [[]]) := by
    rw [← joinSlash_concat hne, pieces_slash_cons, pieces_joinSlash _ (by simp)]
    intro p hp
    rcases List.mem_append.mp hp with hp | hp
    · exact (h p hp).2
    · simp_all
  have hfn : fileNames ('/' :: (joinSlash names ++ ['/'])) = names := by
    rw [fileNames, hp, List.filter_cons_of_neg (by simp), List.filter_append,
      List.filter_eq_self.mpr fun p hp => by simpa using (h p hp).1]
    simp
  rw [elements, hasTrailingSeparator, hfn, hp, getLast?_cons_concat]
  simp [hasRootDirectory, hne]

end AndroidArt.Filesystem
