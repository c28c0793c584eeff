/-
`StripParameters` from `native_stack_dump.cc`, which deletes the
parameter lists of a demangled function name before `DumpNativeStack`
prints the frame.

# The loop

`name` is walked from its last index down to index 1
(`for (ssize_t i = name.size() - 1; i > 0; i--)`). A `)` counts
`nesting` up and, met at nesting 0, records `end = i + 1`; a `(` counts
it down and, bringing it back to 0, erases `[i, end)`. `stripIter` is
the state after the loop's first `m` iterations, so the states the loop
reaches are `stripIter name m` for `m < name.size()`.

`nesting` is an `int` and is an `Int` here: the model does not follow it
past `2^31 - 1` parentheses. `end - i` is a `size_t` difference and a
`Nat` one here; the two agree because `i < end` at every erase
(`stripParameters_deletes_groups`).

# The scan it implements

`scan` reads a string right to left and keeps the characters of the
group still open (`pending`) apart from those already decided (`kept`).
At every iteration the string is the part not yet visited, then
`pending`, then `kept` (`stripIter_inv`). Index 0 is never visited, so
the result is the first character followed by what the scan of the rest
left (`stripParameters_eq_scan`).

# What follows

On every input, balanced or not, the result is the input with some
disjoint groups `(w)`, `w` balanced, deleted, and every erase stays
inside the string (`stripParameters_deletes_groups`). On balanced input
every top-level group is deleted except one that starts at index 0,
which the loop never reaches and so keeps whole
(`stripParameters_balanced`). The comment above the function says the
top-level groups are removed; the bound `i > 0` is one short of that,
and `"(a)"` comes back whole (`stripParameters_skips_index_zero`).
-/
import Mathlib.Data.List.Basic

namespace AndroidArt.NativeStackDump

-- ====================================================== parentheses

/-- How a character moves the depth, read left to right. -/
def parenDelta (c : Char) : Int :=
  if c = '(' then 1 else if c = ')' then -1 else 0

/-- Opening minus closing parentheses. -/
def parenDepth : List Char → Int
  | [] => 0
  | c :: s => parenDelta c + parenDepth s

@[simp] theorem parenDepth_nil : parenDepth [] = 0 := rfl

@[simp] theorem parenDepth_cons (c : Char) (s : List Char) :
    parenDepth (c :: s) = parenDelta c + parenDepth s := rfl

@[simp] theorem parenDepth_append (s t : List Char) :
    parenDepth (s ++ t) = parenDepth s + parenDepth t := by
  induction s with
  | nil => simp
  | cons c s ih => simp [ih]; omega

@[simp] theorem parenDelta_open : parenDelta '(' = 1 := rfl

@[simp] theorem parenDelta_close : parenDelta ')' = -1 := rfl

theorem parenDelta_of_ne {c : Char} (h1 : c ≠ '(') (h2 : c ≠ ')') : parenDelta c = 0 := by
  simp [parenDelta, h1, h2]

theorem parenDelta_nonneg {c : Char} (h : c ≠ ')') : 0 ≤ parenDelta c := by
  unfold parenDelta; split_ifs <;> simp_all

theorem parenDelta_nonpos {c : Char} (h : c ≠ '(') : parenDelta c ≤ 0 := by
  unfold parenDelta; split_ifs <;> simp_all

theorem parenDepth_take_add_drop (s : List Char) (j : Nat) :
    parenDepth (s.take j) + parenDepth (s.drop j) = parenDepth s := by
  rw [← parenDepth_append, List.take_append_drop]

/-- Balanced parentheses: no prefix closes more than it opens, and the
whole string closes all it opens. -/
def Balanced (s : List Char) : Prop :=
  (∀ j ≤ s.length, 0 ≤ parenDepth (s.take j)) ∧ parenDepth s = 0

instance : DecidablePred Balanced := fun _ => inferInstanceAs (Decidable (_ ∧ _))

theorem Balanced.take_nonneg {s : List Char} (h : Balanced s) (j : Nat) :
    0 ≤ parenDepth (s.take j) := by
  rcases le_or_lt j s.length with hj | hj
  · exact h.1 j hj
  · rw [List.take_of_length_le hj.le]; have := h.2; omega

/-- Balance read from the right: no suffix opens more than it closes. -/
theorem balanced_iff_drop {s : List Char} :
    Balanced s ↔ (∀ j, parenDepth (s.drop j) ≤ 0) ∧ parenDepth s = 0 := by
  refine ⟨fun h => ⟨fun j => ?_, h.2⟩, fun ⟨hd, h0⟩ => ⟨fun j _ => ?_, h0⟩⟩
  · have := parenDepth_take_add_drop s j
    have := h.take_nonneg j; have := h.2; omega
  · have := parenDepth_take_add_drop s j
    have := hd j; omega

-- ========================================================== the loop

/-- The variables of `StripParameters`' loop. -/
structure StripState where
  name : List Char
  «end» : Nat
  nesting : Int
  deriving DecidableEq, Repr

/-- `std::string::erase(pos, count)`: remove `count` characters from
`pos`, fewer where the string ends first. -/
def erase (s : List Char) (pos count : Nat) : List Char :=
  s.take pos ++ s.drop (pos + count)

/-- The loop body at index `i`. -/
def stripStep (st : StripState) (i : Nat) : StripState :=
  -- `if (name[i] == ')' && nesting++ == 0) end = i + 1;`
  let st := if st.name[i]? = some ')' then
      { st with «end» := if st.nesting = 0 then i + 1 else st.«end», nesting := st.nesting + 1 }
    else st
  -- `if (name[i] == '(' && --nesting == 0) name = name.erase(i, end - i);`
  if st.name[i]? = some '(' then
    { st with
      name := if st.nesting - 1 = 0 then erase st.name i (st.«end» - i) else st.name
      nesting := st.nesting - 1 }
  else st

/-- The loop's state after its first `m` iterations, which visit the
indices `name.size() - 1` down to `name.size() - m`. -/
def stripIter (name : List Char) : Nat → StripState
  | 0 => ⟨name, name.length, 0⟩
  | m + 1 => stripStep (stripIter name m) (name.length - 1 - m)

/-- `StripParameters`: the loop visits `name.size() - 1` down to `1`. -/
def stripParameters (name : List Char) : List Char :=
  (stripIter name (name.length - 1)).name

-- ========================================================== the scan

/-- What a right-to-left reading of a suffix has decided: `nesting` as
the loop counts it, the characters of the group still open, and the
characters kept. -/
structure Scan where
  nesting : Int
  pending : List Char
  kept : List Char

/-- Read one more character, right to left. A `(` that closes the open
group drops it; a character inside a group joins `pending`, any other
joins `kept`. -/
def scanStep (c : Char) (sc : Scan) : Scan :=
  if c = '(' ∧ sc.nesting = 1 then ⟨0, [], sc.kept⟩
  else if 0 < sc.nesting - parenDelta c then ⟨sc.nesting - parenDelta c, c :: sc.pending, sc.kept⟩
  else ⟨sc.nesting - parenDelta c, sc.pending, c :: sc.kept⟩

def scan (t : List Char) : Scan := t.foldr scanStep ⟨0, [], []⟩

/-- A parenthesis read where the nesting stays non-negative moves the
nesting by its delta and is never kept. -/
theorem scanStep_paren {c : Char} (hc : c = '(' ∨ c = ')') (sc : Scan) (h0 : 0 ≤ sc.nesting)
    (h1 : 0 ≤ sc.nesting - parenDelta c) :
    (scanStep c sc).nesting = sc.nesting - parenDelta c ∧ (scanStep c sc).kept = sc.kept := by
  unfold scanStep
  split_ifs with h2 h3
  · obtain ⟨rfl, h⟩ := h2; simp [h]
  · exact ⟨rfl, rfl⟩
  · rcases hc with rfl | rfl <;> simp at h1 h2 h3 ⊢ <;> omega

theorem scanStep_other {c : Char} (h1 : c ≠ '(') (h2 : c ≠ ')') (sc : Scan) :
    scanStep c sc =
      if 0 < sc.nesting then ⟨sc.nesting, c :: sc.pending, sc.kept⟩
      else ⟨sc.nesting, sc.pending, c :: sc.kept⟩ := by
  simp [scanStep, h1, parenDelta_of_ne h1 h2]

@[simp] theorem scan_nil : scan [] = ⟨0, [], []⟩ := rfl

@[simp] theorem scan_cons (c : Char) (t : List Char) : scan (c :: t) = scanStep c (scan t) := rfl

/-- `r` is `s` with some disjoint groups `(w)`, `w` balanced, deleted,
and every other character kept in order. -/
inductive DeletesGroups : List Char → List Char → Prop
  | nil : DeletesGroups [] []
  | keep (c : Char) {s r : List Char} : DeletesGroups s r → DeletesGroups (c :: s) (c :: r)
  | drop {w s r : List Char} : Balanced w → DeletesGroups s r →
      DeletesGroups ('(' :: w ++ ')' :: s) r

theorem DeletesGroups.keep_append {s r : List Char} (p : List Char) (h : DeletesGroups s r) :
    DeletesGroups (p ++ s) (p ++ r) := by
  induction p with
  | nil => exact h
  | cons c p ih => exact .keep c ih

/-- What the scan of any suffix has decided. With no group open, `kept`
is the suffix with groups deleted. With one open, the suffix is the
group's inside `w` so far, its `)`, and a rest with groups deleted into
`kept`; no suffix of `w` opens more than it closes. -/
def ScanInv (t : List Char) (sc : Scan) : Prop :=
  (sc.nesting ≤ 0 → sc.pending = [] ∧ DeletesGroups t sc.kept) ∧
  (0 < sc.nesting → ∃ w u, t = w ++ ')' :: u ∧ sc.pending = w ++ [')'] ∧
    DeletesGroups u sc.kept ∧ parenDepth w = 1 - sc.nesting ∧ ∀ j, parenDepth (w.drop j) ≤ 0)

/-- A group whose inside no suffix over-opens and whose depth is 0 is balanced. -/
theorem balanced_of_drop {w : List Char} (h0 : parenDepth w = 0)
    (hd : ∀ j, parenDepth (w.drop j) ≤ 0) : Balanced w :=
  balanced_iff_drop.mpr ⟨hd, h0⟩

/-- A character joins `pending` only inside a group open before it, or
as the `)` that opens one. -/
theorem scanStep_inside {c : Char} {ν : Int} (h1 : ¬(c = '(' ∧ ν = 1))
    (h2 : 0 < ν - parenDelta c) : 0 < ν ∨ (c = ')' ∧ ν = 0) := by
  by_cases hc : c = ')'
  · subst hc; simp at h2 ⊢; omega
  · have := parenDelta_nonneg hc; omega

/-- A character joins `kept` only when no group is open before it. -/
theorem scanStep_kept {c : Char} {ν : Int} (h1 : ¬(c = '(' ∧ ν = 1))
    (h2 : ¬0 < ν - parenDelta c) : ν ≤ 0 := by
  by_cases hc : c = '('
  · subst hc; simp at h1 h2; omega
  · have := parenDelta_nonpos hc; omega

theorem scanStep_inv {c : Char} {t : List Char} {sc : Scan} (h : ScanInv t sc) :
    ScanInv (c :: t) (scanStep c sc) := by
  obtain ⟨hle, hlt⟩ := h
  unfold scanStep ScanInv
  split_ifs with hclose hpos <;> dsimp only
  · -- the `(` of the open group: the whole group is deleted
    obtain ⟨rfl, hn⟩ := hclose
    obtain ⟨w, u, rfl, -, hu, hw, hdrop⟩ := hlt (by omega)
    exact ⟨fun _ => ⟨rfl, .drop (balanced_of_drop (by omega) hdrop) hu⟩, fun h => by omega⟩
  · -- `c` lies inside a group, open before it or opened by it
    refine ⟨fun h => absurd h (by omega), fun _ => ?_⟩
    rcases scanStep_inside hclose hpos with hn | ⟨rfl, hn⟩
    · obtain ⟨w, u, rfl, hp, hu, hw, hdrop⟩ := hlt hn
      refine ⟨c :: w, u, rfl, by simp [hp], hu, by simp [hw]; omega, fun j => ?_⟩
      cases j with
      | zero => simp only [List.drop_zero, parenDepth_cons]; omega
      | succ j => exact hdrop j
    · obtain ⟨hp, ht⟩ := hle (by omega)
      exact ⟨[], t, rfl, by simp [hp], ht, by simp [hn], fun j => by simp⟩
  · -- `c` is kept: no group is open before it
    obtain ⟨hp, ht⟩ := hle (scanStep_kept hclose hpos)
    exact ⟨fun _ => ⟨hp, .keep c ht⟩, fun h => by omega⟩

theorem scan_inv (t : List Char) : ScanInv t (scan t) := by
  induction t with
  | nil => exact ⟨fun _ => ⟨rfl, .nil⟩, fun h => by simp at h⟩
  | cons c t ih => exact scanStep_inv ih

theorem scan_pending_eq_nil {t : List Char} (h : (scan t).nesting ≤ 0) : (scan t).pending = [] :=
  ((scan_inv t).1 h).1

-- ===================================================== the simulation

/-- The loop once it has visited the indices from `k` on of the original
`s`: the unvisited prefix, then the scan's open group and kept text, with
`end` just past the open group. -/
def StripInv (s : List Char) (k : Nat) (st : StripState) : Prop :=
  st.name = s.take k ++ (scan (s.drop k)).pending ++ (scan (s.drop k)).kept ∧
  st.nesting = (scan (s.drop k)).nesting ∧
  (0 < (scan (s.drop k)).nesting → st.«end» = k + (scan (s.drop k)).pending.length)

/-- Erasing a group that starts right after `a`. -/
theorem erase_group (a g k : List Char) : erase (a ++ g ++ k) a.length g.length = a ++ k := by
  simp [erase, List.take_left', List.drop_left']

/-- The loop body at an index holding `c`: it erases the group when `c`
is the `(` that closes it, records `end` when `c` is the `)` that opens
one, and counts `nesting` by `c`. -/
theorem stripStep_of_getElem? {st : StripState} {i : Nat} {c : Char} (h : st.name[i]? = some c) :
    stripStep st i =
      { name := if c = '(' ∧ st.nesting = 1 then erase st.name i (st.«end» - i) else st.name
        «end» := if c = ')' ∧ st.nesting = 0 then i + 1 else st.«end»
        nesting := st.nesting - parenDelta c } := by
  unfold stripStep
  by_cases h1 : c = ')'
  · subst h1; simp [h]
  · by_cases h2 : c = '('
    · subst h2
      simp [h, show st.nesting - 1 = 0 ↔ st.nesting = 1 by omega]
    · simp [h, h1, h2, parenDelta_of_ne h2 h1]

/-- One iteration at index `i` keeps the loop in step with the scan. -/
theorem stripStep_inv {s : List Char} {i : Nat} {st : StripState} (hi : i < s.length)
    (h : StripInv s (i + 1) st) : StripInv s i (stripStep st i) := by
  obtain ⟨hname, hnest, hend⟩ := h
  have hpend := @scan_pending_eq_nil (s.drop (i + 1))
  rw [StripInv, List.drop_eq_getElem_cons hi, scan_cons]
  rw [← List.take_concat_get' s i hi] at hname
  have hlen : (s.take i).length = i := by simp; omega
  generalize s[i] = c at hname ⊢
  generalize scan (s.drop (i + 1)) = sc at hname hnest hend hpend ⊢
  generalize s.take i = a at hname hlen ⊢
  subst hlen
  obtain ⟨ν, p, k⟩ := sc
  dsimp only at hname hnest hend hpend
  have hget : st.name[a.length]? = some c := by
    rw [hname, List.append_assoc, List.append_assoc, List.getElem?_append_right (le_refl _)]
    simp
  rw [stripStep_of_getElem? hget, scanStep]
  dsimp only
  subst hnest
  by_cases hclose : c = '(' ∧ st.nesting = 1
  · -- the `(` that closes the open group: the group is erased
    obtain ⟨rfl, hn⟩ := hclose
    have hg := erase_group a ('(' :: p) k
    simp only [List.length_cons, List.append_assoc, List.cons_append] at hg
    simp [hn, hname, hend (by omega), hg,
      show a.length + 1 + p.length - a.length = p.length + 1 by omega]
  by_cases hpos : 0 < st.nesting - parenDelta c
  · -- `c` joins the open group, or is the `)` that opens one
    simp only [if_neg hclose, if_pos hpos]
    refine ⟨by simp [hname], trivial, fun _ => ?_⟩
    rcases scanStep_inside hclose hpos with h0 | ⟨rfl, h0⟩
    · simp [hend h0, show st.nesting ≠ 0 by omega]; omega
    · simp [h0, hpend (by omega)]
  · -- `c` is kept, and no group is open
    simp only [if_neg hclose, if_neg hpos]
    obtain rfl := hpend (scanStep_kept hclose hpos)
    exact ⟨by simp [hname], trivial, fun h => absurd h hpos⟩

/-- The loop is in step with the scan at every iteration. -/
theorem stripIter_inv (s : List Char) {m : Nat} (hm : m ≤ s.length - 1) :
    StripInv s (s.length - m) (stripIter s m) := by
  induction m with
  | zero => simp [StripInv, stripIter]
  | succ m ih =>
    rw [stripIter, show s.length - (m + 1) = s.length - 1 - m by omega]
    refine stripStep_inv (by omega) ?_
    rw [show s.length - 1 - m + 1 = s.length - m by omega]
    exact ih (by omega)

/-- In step with the scan, the string keeps its unvisited prefix, and an
open group ends inside it. -/
theorem StripInv.bounds {s : List Char} {k : Nat} {st : StripState} (h : StripInv s k st)
    (hk : k ≤ s.length) :
    k ≤ st.name.length ∧ (0 < st.nesting → k ≤ st.«end» ∧ st.«end» ≤ st.name.length) := by
  obtain ⟨hname, hnest, hend⟩ := h
  have hlen : st.name.length = k + (scan (s.drop k)).pending.length + (scan (s.drop k)).kept.length := by
    simp [hname]; omega
  exact ⟨by omega, fun hn => by have := hend (hnest ▸ hn); omega⟩

/-- The result is the first character, then the group the scan of the
rest left open, then what it kept. -/
theorem stripParameters_eq_scan (s : List Char) :
    stripParameters s = s.take 1 ++ (scan s.tail).pending ++ (scan s.tail).kept := by
  have h := (stripIter_inv s (le_refl _)).1
  rcases s with _ | ⟨c, t⟩
  · rfl
  · simpa [stripParameters] using h

-- ==================================================== what it deletes

/-- What the scan leaves after the first character deletes groups:
with no group open the kept text, with one open its text and the kept
text. -/
theorem deletesGroups_stripParameters (s : List Char) : DeletesGroups s (stripParameters s) := by
  rw [stripParameters_eq_scan]
  rcases s with _ | ⟨c, t⟩
  · exact .nil
  · obtain ⟨hle, hlt⟩ := scan_inv t
    by_cases hn : (scan t).nesting ≤ 0
    · obtain ⟨hp, ht⟩ := hle hn
      simpa [hp] using ht.keep c
    · obtain ⟨w, u, rfl, hp, hu, -⟩ := hlt (by omega)
      simpa [hp] using hu.keep_append (c :: w ++ [')'])

/-- On every input the result is the input with some groups `(w)`, `w`
balanced, deleted. At every iteration the index is inside the string,
and an erase at index `i` covers `[i, end)` with `end` inside it. -/
theorem stripParameters_deletes_groups (s : List Char) :
    DeletesGroups s (stripParameters s) ∧
    ∀ m, m + 1 < s.length →
      s.length - 1 - m < (stripIter s m).name.length ∧
      ((stripIter s m).name[s.length - 1 - m]? = some '(' → (stripIter s m).nesting - 1 = 0 →
        s.length - 1 - m < (stripIter s m).«end» ∧
        (stripIter s m).«end» ≤ (stripIter s m).name.length) := by
  refine ⟨deletesGroups_stripParameters s, fun m hm => ?_⟩
  have h := (stripIter_inv s (m := m) (by omega)).bounds (by omega)
  rw [show s.length - m = s.length - 1 - m + 1 by omega] at h
  exact ⟨by omega, fun _ hn => by have := h.2 (by omega); omega⟩

/-- In `"f(a)"` the loop erases `(a)` at index 1, within the string. -/
theorem stripParameters_deletes_groups_call :
    DeletesGroups "f(a)".toList "f".toList ∧
      (stripIter "f(a)".toList 2).name[1]? = some '(' ∧ (stripIter "f(a)".toList 2).nesting - 1 = 0 ∧
      1 < (stripIter "f(a)".toList 2).«end» ∧
      (stripIter "f(a)".toList 2).«end» ≤ (stripIter "f(a)".toList 2).name.length :=
  have h := stripParameters_deletes_groups "f(a)".toList
  ⟨h.1, rfl, rfl, (h.2 2 (by decide)).2 rfl rfl⟩

/-- Deleting groups leaves a subsequence. -/
theorem DeletesGroups.sublist {s r : List Char} (h : DeletesGroups s r) : List.Sublist r s := by
  induction h with
  | nil => exact .slnil
  | keep c _ ih => exact ih.cons₂ c
  | drop _ _ ih => exact ih.trans ((List.sublist_cons_self _ _).trans (List.sublist_append_right _ _))

/-- The result is a subsequence of the input: the loop only erases. -/
theorem stripParameters_sublist (s : List Char) : List.Sublist (stripParameters s) s :=
  (deletesGroups_stripParameters s).sublist

-- ====================================================== applied twice

/-- What the scan has kept, read from the right, never goes above depth 0:
every suffix of it opens at least as much as it closes. With no group
open the nesting is minus the kept depth; with one open the kept depth
is 0, since the group opened at nesting 0. -/
def KeptInv (sc : Scan) : Prop :=
  (∀ j, 0 ≤ parenDepth (sc.kept.drop j)) ∧
  (sc.nesting ≤ 0 → sc.nesting = -parenDepth sc.kept) ∧
  (0 < sc.nesting → parenDepth sc.kept = 0)

theorem scanStep_keptInv (c : Char) {sc : Scan} (h : KeptInv sc) : KeptInv (scanStep c sc) := by
  obtain ⟨hdrop, hle, hlt⟩ := h
  unfold scanStep KeptInv
  split_ifs with hclose hpos <;> dsimp only
  · -- a group is deleted and the nesting is back to 0
    exact ⟨hdrop, fun _ => by rw [hlt (by omega)]; rfl, fun h => by omega⟩
  · -- `c` joins the open group, which opened at nesting 0
    refine ⟨hdrop, fun h => absurd h (by omega), fun _ => ?_⟩
    rcases scanStep_inside hclose hpos with h0 | ⟨-, h0⟩
    · exact hlt h0
    · have := hle (by omega); omega
  · -- `c` is kept at nesting at most 0
    have hk := hle (scanStep_kept hclose hpos)
    refine ⟨fun j => ?_, fun _ => by simp only [parenDepth_cons]; omega, fun h => absurd h hpos⟩
    cases j with
    | zero => simp only [List.drop_zero, parenDepth_cons]; omega
    | succ j => exact hdrop j

theorem scan_keptInv (t : List Char) : KeptInv (scan t) := by
  induction t with
  | nil => exact ⟨fun j => by simp, fun _ => rfl, fun h => by simp at h⟩
  | cons c t ih => exact scanStep_keptInv c ih

/-- Text that never goes above depth 0 from the right is kept whole. -/
theorem scan_of_drop_nonneg {k : List Char} (h : ∀ j, 0 ≤ parenDepth (k.drop j)) :
    scan k = ⟨-parenDepth k, [], k⟩ := by
  induction k with
  | nil => rfl
  | cons c k ih =>
    have h0 : 0 ≤ parenDelta c + parenDepth k := by simpa using h 0
    have h1 : 0 ≤ parenDepth k := by simpa using h 1
    rw [scan_cons, ih (fun j => h (j + 1)), scanStep]
    dsimp only
    rw [if_neg (fun hc => by omega), if_neg (by omega)]
    simp only [parenDepth_cons, Scan.mk.injEq, and_true, true_and]
    omega

/-- An open group whose inside no suffix over-opens is read back into
`pending` whole. -/
theorem foldr_scanStep_group {w : List Char} (h : ∀ j, parenDepth (w.drop j) ≤ 0) (kept : List Char) :
    w.foldr scanStep ⟨1, [')'], kept⟩ = ⟨1 - parenDepth w, w ++ [')'], kept⟩ := by
  induction w with
  | nil => rfl
  | cons c w ih =>
    have h0 : parenDelta c + parenDepth w ≤ 0 := by simpa using h 0
    have h1 : parenDepth w ≤ 0 := by simpa using h 1
    rw [List.foldr_cons, ih (fun j => h (j + 1)), scanStep]
    dsimp only
    have hclose : ¬(c = '(' ∧ 1 - parenDepth w = 1) := by
      rintro ⟨rfl, hD⟩
      simp only [parenDelta_open] at h0
      omega
    rw [if_neg hclose, if_pos (by omega)]
    simp only [parenDepth_cons, List.cons_append, Scan.mk.injEq, and_true, true_and]
    omega

/-- Stripping the result again changes nothing, on every input: the
loop leaves no group it would delete. -/
theorem stripParameters_stripParameters (s : List Char) :
    stripParameters (stripParameters s) = stripParameters s := by
  rcases s with _ | ⟨c, t⟩
  · rfl
  have hr : stripParameters (c :: t) = c :: ((scan t).pending ++ (scan t).kept) := by
    simpa using stripParameters_eq_scan (c :: t)
  obtain ⟨hdrop, hle, hlt⟩ := scan_keptInv t
  suffices hscan : (scan ((scan t).pending ++ (scan t).kept)).pending = (scan t).pending ∧
      (scan ((scan t).pending ++ (scan t).kept)).kept = (scan t).kept by
    rw [stripParameters_eq_scan, hr]
    simp [hscan.1, hscan.2]
  by_cases hn : (scan t).nesting ≤ 0
  · -- no group open: only kept text, read back as it is
    rw [scan_pending_eq_nil hn, List.nil_append, scan_of_drop_nonneg hdrop]
    exact ⟨rfl, rfl⟩
  · -- an open group `w)` over kept text of depth 0
    obtain ⟨w, u, -, hp, -, -, hwd⟩ := (scan_inv t).2 (by omega)
    have hk : scan (scan t).kept = ⟨0, [], (scan t).kept⟩ := by
      rw [scan_of_drop_nonneg hdrop, hlt (by omega)]; rfl
    have hopen : scanStep ')' ⟨0, [], (scan t).kept⟩ = ⟨1, [')'], (scan t).kept⟩ := by
      simp [scanStep]
    rw [hp, scan, List.foldr_append, List.foldr_append, ← scan, hk, List.foldr_cons, List.foldr_nil,
      hopen, foldr_scanStep_group hwd]
    exact ⟨rfl, rfl⟩

-- ===================================================== balanced names

/-- The characters of `s` other than `(` and `)` that stand at depth 0,
reading from depth `d`. -/
def topLevelFrom : Int → List Char → List Char
  | _, [] => []
  | d, c :: s =>
    if c = '(' ∨ c = ')' then topLevelFrom (d + parenDelta c) s
    else if d = 0 then c :: topLevelFrom d s else topLevelFrom d s

theorem topLevelFrom_cons (d : Int) (c : Char) (s : List Char) :
    topLevelFrom d (c :: s) =
      if c = '(' ∨ c = ')' then topLevelFrom (d + parenDelta c) s
      else if d = 0 then c :: topLevelFrom d s else topLevelFrom d s := rfl

theorem topLevelFrom_close (d : Int) (s : List Char) :
    topLevelFrom d (')' :: s) = topLevelFrom (d - 1) s := by
  simp [topLevelFrom_cons]; rfl

theorem topLevelFrom_other {c : Char} (h1 : c ≠ '(') (h2 : c ≠ ')') (d : Int) (s : List Char) :
    topLevelFrom d (c :: s) = if d = 0 then c :: topLevelFrom d s else topLevelFrom d s := by
  simp [topLevelFrom_cons, h1, h2]

/-- `s` with every top-level parenthesised group removed: the characters
other than `(` and `)` at depth 0. -/
def topLevelText (s : List Char) : List Char := topLevelFrom 0 s

theorem paren_not_mem_topLevelFrom (d : Int) (s : List Char) :
    '(' ∉ topLevelFrom d s ∧ ')' ∉ topLevelFrom d s := by
  induction s generalizing d with
  | nil => simp [topLevelFrom]
  | cons c s ih =>
    unfold topLevelFrom
    split_ifs with h1
    · exact ih _
    · simp only [not_or] at h1
      simp only [List.mem_cons, not_or]
      exact ⟨⟨Ne.symm h1.1, (ih d).1⟩, ⟨Ne.symm h1.2, (ih d).2⟩⟩
    · exact ih d

/-- Text read at positive depth throughout contributes nothing. -/
theorem topLevelFrom_append {d : Int} {w : List Char} (r : List Char)
    (h : ∀ j, 0 < d + parenDepth (w.take j)) :
    topLevelFrom d (w ++ r) = topLevelFrom (d + parenDepth w) r := by
  induction w generalizing d with
  | nil => simp
  | cons c w ih =>
    have hd : 0 < d := by simpa using h 0
    have ih' := ih (d := d + parenDelta c) (fun j => by have := h (j + 1); simp at this; omega)
    rw [List.cons_append, topLevelFrom_cons, parenDepth_cons]
    split_ifs with h1 h2
    · rw [ih', Int.add_assoc]
    · omega
    · have h0 := parenDelta_of_ne (fun e => h1 (.inl e)) (fun e => h1 (.inr e))
      rw [h0, Int.add_zero] at ih'
      rw [ih', h0, Int.zero_add]

/-- On a string no suffix of which opens more than it closes, the scan
stays at nesting `-parenDepth` and keeps the text at depth 0. -/
theorem scan_of_drop_nonpos {t : List Char} (h : ∀ j, parenDepth (t.drop j) ≤ 0) :
    (scan t).nesting = -parenDepth t ∧ (scan t).kept = topLevelFrom (-parenDepth t) t := by
  induction t with
  | nil => simp [topLevelFrom]
  | cons c t ih =>
    obtain ⟨hn, hk⟩ := ih (fun j => h (j + 1))
    have h0 : parenDelta c + parenDepth t ≤ 0 := by simpa using h 0
    have ht : parenDepth t ≤ 0 := by simpa using h 1
    rw [scan_cons, parenDepth_cons, topLevelFrom_cons]
    by_cases hp : c = '(' ∨ c = ')'
    · -- a parenthesis moves the nesting and is never kept
      obtain ⟨hn', hk'⟩ := scanStep_paren hp (scan t) (by omega) (by omega)
      rw [if_pos hp, hn', hk', hk, hn]
      exact ⟨by omega, by congr 1; omega⟩
    · -- any other character is kept exactly at depth 0
      obtain ⟨hop, hcl⟩ := not_or.mp hp
      rw [if_neg hp, parenDelta_of_ne hop hcl, Int.zero_add, scanStep_other hop hcl, hn]
      by_cases hD : parenDepth t = 0
      · simp [hD, hk]
      · rw [if_pos (by omega), if_neg (by omega)]
        exact ⟨rfl, hk⟩

/-- Balanced input that does not start with `(`: exactly the text at depth 0 is left. -/
theorem stripParameters_of_head_ne {s : List Char} (hs : Balanced s) (hhead : s.head? ≠ some '(') :
    stripParameters s = topLevelText s := by
  obtain ⟨hd, h0⟩ := balanced_iff_drop.mp hs
  rcases s with _ | ⟨c, t⟩
  · rfl
  have hc1 : c ≠ '(' := by simpa using hhead
  have hc2 : c ≠ ')' := by
    rintro rfl
    simpa using hs.1 1 (by simp)
  obtain ⟨hn, hk⟩ := scan_of_drop_nonpos (fun j => hd (j + 1))
  have ht : parenDepth t = 0 := by simpa [parenDelta_of_ne hc1 hc2] using h0
  rw [stripParameters_eq_scan, topLevelText, topLevelFrom_other hc1 hc2, if_pos rfl]
  simp [hk, ht, scan_pending_eq_nil (by omega : (scan t).nesting ≤ 0)]

/-- Balanced input that starts with `(`: index 0 is never visited, so the
scan of the rest ends inside that group, which is kept whole; after it
the text at depth 0 is left. -/
theorem stripParameters_of_leading_group {t : List Char} (hs : Balanced ('(' :: t)) :
    ∃ w rest, t = w ++ ')' :: rest ∧ Balanced w ∧ Balanced rest ∧
      stripParameters ('(' :: t) = '(' :: w ++ ')' :: topLevelText rest := by
  obtain ⟨hd, h0⟩ := balanced_iff_drop.mp hs
  have htd : ∀ j, parenDepth (t.drop j) ≤ 0 := fun j => hd (j + 1)
  obtain ⟨hn, hk⟩ := scan_of_drop_nonpos htd
  have ht : parenDepth t = -1 := by simp at h0; omega
  obtain ⟨w, u, rfl, hpw, -, hw, hwd⟩ := (scan_inv t).2 (by omega)
  have hwb : Balanced w := balanced_of_drop (by omega) hwd
  have hu : parenDepth u = 0 := by
    simp only [parenDepth_append, parenDepth_cons, parenDelta_close] at ht hn; omega
  refine ⟨w, u, rfl, hwb, balanced_iff_drop.mpr ⟨fun j => ?_, hu⟩, ?_⟩
  · have := htd (w.length + 1 + j)
    rwa [List.drop_append_eq_append_drop, List.drop_eq_nil_of_le (by omega), List.nil_append,
      show w.length + 1 + j - w.length = j + 1 by omega] at this
  · have hgroup := topLevelFrom_append (d := 1) (w := w) (')' :: u)
      (fun j => by have := hwb.take_nonneg j; omega)
    rw [stripParameters_eq_scan, List.tail_cons, hpw, hk, ht, Int.neg_neg, hgroup,
      hwb.2, topLevelFrom_close]
    simp [topLevelText]

/-- On balanced input every top-level group is deleted, except a group
that starts at index 0: the loop never visits that index, so the group
is never closed and is kept whole. Without a leading `(` the result
holds no parenthesis. -/
theorem stripParameters_balanced {s : List Char} (hs : Balanced s) :
    (s.head? ≠ some '(' →
      stripParameters s = topLevelText s ∧ '(' ∉ stripParameters s ∧ ')' ∉ stripParameters s) ∧
    (∀ t, s = '(' :: t → ∃ w rest, t = w ++ ')' :: rest ∧ Balanced w ∧ Balanced rest ∧
      stripParameters s = '(' :: w ++ ')' :: topLevelText rest) := by
  refine ⟨fun hhead => ?_, fun t ht => ?_⟩
  · have heq := stripParameters_of_head_ne hs hhead
    exact ⟨heq, heq ▸ paren_not_mem_topLevelFrom 0 s⟩
  · subst ht
    exact stripParameters_of_leading_group hs

example : stripParameters "f(int)".toList = "f".toList := by decide

/-- The comment above `StripParameters` promises to remove the matching
top-level parentheses, but the loop stops before index 0: on every
balanced name that starts with `(` a `(` is left, `"(a)"` comes back
whole where its top-level text is empty, and the group `(x)` is kept at
the start of a name but erased after `a::`. -/
theorem stripParameters_skips_index_zero :
    (∀ t, Balanced ('(' :: t) → '(' ∈ stripParameters ('(' :: t)) ∧
      (Balanced "(a)".toList ∧ topLevelText "(a)".toList = [] ∧
        stripParameters "(a)".toList = "(a)".toList) ∧
      stripParameters "(x)::f(i)".toList = "(x)::f".toList ∧
      stripParameters "a::(x)::f(i)".toList = "a::::f".toList := by
  refine ⟨fun t ht => ?_, ⟨by decide, rfl, rfl⟩, rfl, by rw [stripParameters_eq_scan]; rfl⟩
  obtain ⟨w, rest, -, -, -, h⟩ := (stripParameters_balanced ht).2 t rfl
  rw [h]
  exact List.mem_cons_self _ _

end AndroidArt.NativeStackDump