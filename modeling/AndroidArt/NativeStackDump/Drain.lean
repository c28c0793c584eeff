/-
`Drain` and `WritePrefix` from `native_stack_dump.cc`: how the text
addr2line writes back is copied into the dump, one indented line at a
time.

# What is modelled

A call of `Drain` is a run of rounds, each a `poll` and maybe a `read`.
The OS's answer to a round is a `Wait`: `poll` fails, times out, or
returns without `POLLIN` (addr2line exited); or `read` fails or returns
bytes, none at end of file. The answers are the model's input, so the
timeout `Drain` passes to `poll`, chosen from `expected`, is left out:
it only decides when the OS answers `timeout`. Of `Addr2linePipe` the
model keeps `file` and `odd`; the descriptors and the child belong to
the OS. `drain` is `none` if the answers run out before the call
returns.

A read fills a zeroed buffer, and both the inner loop and `strchr` stop
at the first `'\0'`, so a read's text is its bytes up to the first
`'\0'` (`readText`). The inner loop writes the prefix once per line and
then the text up to and including the next `'\n'`, or the rest of the
read if there is none (`drainLines`).

# The result

Line for line, the inner loop writes what writing the text character by
character writes (`drainLines_eq_foldl`). Written that way, a whole
call is one left fold over the concatenated reads, and the fold writes
the reference output: each line after one `WritePrefix`, with `odd`
flipping at every newline (`drain_eq_ref`). The split into reads
disappears on the way.
-/
import Mathlib.Data.List.Basic
import Mathlib.Logic.Function.Iterate

namespace AndroidArt.NativeStackDump

-- ============================================================ model

/-- `WritePrefix`: the caller's prefix if there is one, two spaces, and a
third on even lines. -/
def writePrefix (pfx : Option (List Char)) (odd : Bool) : List Char :=
  pfx.getD [] ++ "  ".toList ++ (if odd then [] else [' '])

/-- What one round of `Drain`'s loop gets from the OS. -/
inductive Wait
  /-- `poll` returns -1. -/
  | pollError
  /-- `poll` returns 0. -/
  | timeout
  /-- `poll` returns without `POLLIN`: addr2line has exited. -/
  | hangUp
  /-- `read` returns -1. -/
  | readError
  /-- `read` returns these bytes; none at end of file. -/
  | read (bytes : List Char)
  deriving DecidableEq, Repr

/-- The fields of `Addr2linePipe` that `Drain` and `Addr2line` use. -/
structure Addr2linePipe where
  file : List Char
  odd : Bool
  deriving DecidableEq, Repr

/-- The variables `Drain` updates: `prefix_written`, the pipe's `odd`,
and the text written to `os` during the call. -/
structure DrainState where
  prefixWritten : Bool
  odd : Bool
  os : List Char
  deriving DecidableEq, Repr

/-- `if (!prefix_written) { WritePrefix(os, prefix, odd); prefix_written = true; }` -/
def ensurePrefix (pfx : Option (List Char)) (st : DrainState) : DrainState :=
  if st.prefixWritten then st
  else { st with os := st.os ++ writePrefix pfx st.odd, prefixWritten := true }

/-- The inner `while (*tmp != 0)` loop over the text of one read. -/
def drainLines (pfx : Option (List Char)) (tmp : List Char) (st : DrainState) : DrainState :=
  match tmp with
  | [] => st
  | c :: cs =>
    let st := ensurePrefix pfx st
    match _hs : (c :: cs).span (· != '\n') with
    | (line, []) => { st with os := st.os ++ line }
    | (line, _ :: rest) =>
      drainLines pfx rest
        { st with os := st.os ++ line ++ ['\n'], prefixWritten := false, odd := !st.odd }
termination_by tmp.length
decreasing_by
  rw [List.span_eq_take_drop, Prod.mk.injEq] at _hs
  have := (List.dropWhile_suffix (l := c :: cs) (· != '\n')).length_le
  rw [_hs.2] at this
  simp only [List.length_cons] at this ⊢
  omega

/-- The text a read leaves in the buffer for the inner loop: its bytes
up to the first `'\0'`. -/
def readText (bytes : List Char) : List Char := bytes.takeWhile (· != '\x00')

/-- `Drain`'s `for (;;)` loop over the OS's answers: the text written to
`os` and the pipe, `none` once reset. -/
def drainLoop (pfx : Option (List Char)) (pipe : Addr2linePipe) :
    List Wait → DrainState → Option (List Char × Option Addr2linePipe)
  | [], _ => none
  | .pollError :: _, st => some (st.os, none)
  | .timeout :: _, st => some (st.os, some { pipe with odd := st.odd })
  | .hangUp :: _, st => some (st.os, none)
  | .readError :: _, st => some (st.os, none)
  | .read bytes :: ws, st =>
    if bytes = [] then some (st.os, none)
    else drainLoop pfx pipe ws (drainLines pfx (readText bytes) st)

/-- `Drain`: starts with no prefix written and the pipe's `odd`. -/
def drain (pfx : Option (List Char)) (pipe : Addr2linePipe) (answers : List Wait) :
    Option (List Char × Option Addr2linePipe) :=
  drainLoop pfx pipe answers ⟨false, pipe.odd, []⟩

-- ========================================================= reference

/-- The text split after each `'\n'`; the last line may be unterminated. -/
def splitLines : List Char → List (List Char)
  | [] => []
  | c :: cs =>
    if c = '\n' then ['\n'] :: splitLines cs
    else match splitLines cs with
      | [] => [[c]]
      | l :: ls => (c :: l) :: ls

/-- Each line after one `WritePrefix`, `odd` flipping after every line. -/
def refOutput (pfx : Option (List Char)) (odd : Bool) : List (List Char) → List Char
  | [] => []
  | l :: ls => writePrefix pfx odd ++ l ++ refOutput pfx (!odd) ls

/-- The answers that end a call. -/
def Wait.EndsCall : Wait → Prop
  | .read bytes => bytes = []
  | _ => True

instance : DecidablePred Wait.EndsCall
  | .read bytes => decEq bytes []
  | .pollError | .timeout | .hangUp | .readError => .isTrue trivial

-- ====================================================== one character

/-- Writing one character as the inner loop does. -/
def echoChar (pfx : Option (List Char)) (st : DrainState) (c : Char) : DrainState :=
  let st := ensurePrefix pfx st
  if c = '\n' then { st with os := st.os ++ ['\n'], prefixWritten := false, odd := !st.odd }
  else { st with os := st.os ++ [c] }

@[simp] theorem ensurePrefix_prefixWritten (pfx : Option (List Char)) (st : DrainState) :
    (ensurePrefix pfx st).prefixWritten = true := by
  unfold ensurePrefix; split <;> simp_all

@[simp] theorem ensurePrefix_odd (pfx : Option (List Char)) (st : DrainState) :
    (ensurePrefix pfx st).odd = st.odd := by
  unfold ensurePrefix; split <;> rfl

theorem ensurePrefix_of_written {pfx : Option (List Char)} {st : DrainState}
    (h : st.prefixWritten = true) : ensurePrefix pfx st = st := by
  simp [ensurePrefix, h]

theorem ensurePrefix_os (pfx : Option (List Char)) (st : DrainState) :
    (ensurePrefix pfx st).os = st.os ++ if st.prefixWritten then [] else writePrefix pfx st.odd := by
  unfold ensurePrefix; split <;> simp_all

variable {pfx : Option (List Char)}

/-- Inside a line whose prefix is written, text without a newline is
copied as it is. -/
theorem foldl_echoChar_written {st : DrainState} {l : List Char} (hw : st.prefixWritten = true)
    (h : '\n' ∉ l) : l.foldl (echoChar pfx) st = { st with os := st.os ++ l } := by
  induction l generalizing st with
  | nil => simp
  | cons c l ih =>
    have hc : c ≠ '\n' := fun e => h (e ▸ List.mem_cons_self c l)
    rw [List.foldl_cons, ih (by simp [echoChar, hc]) (fun hm => h (List.mem_cons_of_mem c hm))]
    simp [echoChar, hc, ensurePrefix_of_written hw]

/-- Text without a newline: the prefix if the line has none, then the text. -/
theorem foldl_echoChar_line {st : DrainState} {l : List Char} (hl : l ≠ []) (h : '\n' ∉ l) :
    l.foldl (echoChar pfx) st = { ensurePrefix pfx st with os := (ensurePrefix pfx st).os ++ l } := by
  obtain ⟨c, l, rfl⟩ := List.exists_cons_of_ne_nil hl
  have hc : c ≠ '\n' := fun e => h (e ▸ List.mem_cons_self c l)
  rw [List.foldl_cons, foldl_echoChar_written (by simp [echoChar, hc])
    (fun hm => h (List.mem_cons_of_mem c hm))]
  simp [echoChar, hc]

/-- A line ended by its newline: the prefix if the line has none, the
text and the newline; then the next line starts, with `odd` flipped. -/
theorem echoChar_newline_foldl {st : DrainState} {l : List Char} (h : '\n' ∉ l) :
    echoChar pfx (l.foldl (echoChar pfx) st) '\n' =
      { ensurePrefix pfx st with
        os := (ensurePrefix pfx st).os ++ l ++ ['\n'], prefixWritten := false, odd := !st.odd } := by
  by_cases hl : l = []
  · subst hl; simp [echoChar]
  · rw [foldl_echoChar_line hl h]
    simp [echoChar, ensurePrefix_of_written]

/-- What `strchr` finds: the text before the first newline, which holds
none, and the rest, which is empty or starts with the newline. -/
theorem span_newline {l line rest : List Char} (h : l.span (· != '\n') = (line, rest)) :
    l = line ++ rest ∧ '\n' ∉ line ∧ ∀ x r, rest = x :: r → x = '\n' := by
  rw [List.span_eq_take_drop, Prod.mk.injEq] at h
  obtain ⟨rfl, rfl⟩ := h
  refine ⟨(List.takeWhile_append_dropWhile _ _).symm, fun hm => ?_, fun x r hr => ?_⟩
  · simpa using List.mem_takeWhile_imp hm
  · have := List.head_dropWhile_not (· != '\n') l (by simp [hr])
    simpa [hr] using this

/-- The inner loop writes what writing its text a character at a time writes. -/
theorem drainLines_eq_foldl (tmp : List Char) (st : DrainState) :
    drainLines pfx tmp st = tmp.foldl (echoChar pfx) st := by
  induction tmp, st using drainLines.induct pfx with
  | case1 st => simp [drainLines]
  | case2 st c cs line h =>
    -- no newline: the rest of the read is the line
    obtain ⟨hl, hn, -⟩ := span_newline h
    rw [List.append_nil] at hl
    rw [drainLines]
    split
    · next line' h' =>
      obtain rfl : line = line' := (Prod.mk.inj (h.symm.trans h')).1
      rw [hl, foldl_echoChar_line (hl ▸ List.cons_ne_nil c cs) hn]
    · next h' => rw [h] at h'; simp at h'
  | case3 st c cs st' line x rest h ih =>
    -- a newline ends the line and the loop goes on after it
    obtain ⟨hl, hn, hx⟩ := span_newline h
    obtain rfl := hx _ _ rfl
    rw [drainLines]
    split
    · next h' => rw [h] at h'; simp at h'
    · next line' x' rest' h' =>
      obtain ⟨rfl, h2⟩ := Prod.mk.inj (h.symm.trans h')
      obtain ⟨rfl, rfl⟩ := List.cons.inj h2
      rw [ih, hl, List.foldl_append, List.foldl_cons, echoChar_newline_foldl hn]
      simp [st']

-- ======================================================== a whole call

/-- The reference output from inside a line whose prefix is (`true`) or
is not yet written. -/
def continueLines (pfx : Option (List Char)) (written odd : Bool) : List (List Char) → List Char
  | [] => []
  | l :: ls => (if written then [] else writePrefix pfx odd) ++ l ++ refOutput pfx (!odd) ls

theorem continueLines_false (odd : Bool) (ls : List (List Char)) :
    continueLines pfx false odd ls = refOutput pfx odd ls := by
  cases ls <;> simp [continueLines, refOutput]

/-- Character by character, the text written is the reference output. -/
theorem foldl_echoChar_os (b : List Char) (st : DrainState) :
    (b.foldl (echoChar pfx) st).os =
      st.os ++ continueLines pfx st.prefixWritten st.odd (splitLines b) := by
  induction b generalizing st with
  | nil => simp [splitLines, continueLines]
  | cons c b ih =>
    rw [List.foldl_cons, ih]
    by_cases hc : c = '\n' <;> cases hs : splitLines b <;>
      simp [echoChar, hc, ensurePrefix_os, splitLines, continueLines, hs, refOutput]

/-- Character by character, `odd` flips at every newline. -/
theorem foldl_echoChar_odd (b : List Char) (st : DrainState) :
    (b.foldl (echoChar pfx) st).odd = Bool.not^[b.count '\n'] st.odd := by
  induction b generalizing st with
  | nil => rfl
  | cons c b ih =>
    rw [List.foldl_cons, ih, List.count_cons]
    by_cases hc : c = '\n'
    · subst hc
      simp [echoChar, Function.iterate_succ_apply]
    · simp [echoChar, hc]

theorem readText_of_not_mem {bytes : List Char} (h : '\x00' ∉ bytes) : readText bytes = bytes :=
  List.takeWhile_eq_self_iff.mpr fun x hx => by
    simp only [bne_iff_ne, ne_eq]
    rintro rfl
    exact h hx

/-- Reads of text without `'\0'` go through the loop as one fold over
their concatenation. -/
theorem drainLoop_reads (pipe : Addr2linePipe) {chunks : List (List Char)}
    (hchunks : ∀ c ∈ chunks, c ≠ []) (ws : List Wait) (st : DrainState) :
    drainLoop pfx pipe (chunks.map .read ++ ws) st =
      drainLoop pfx pipe ws ((chunks.map readText).flatten.foldl (echoChar pfx) st) := by
  induction chunks generalizing st with
  | nil => rfl
  | cons c chunks ih =>
    rw [List.map_cons, List.cons_append, drainLoop, if_neg (hchunks c (List.mem_cons_self c chunks)),
      drainLines_eq_foldl, ih (fun c' hc' => hchunks c' (List.mem_cons_of_mem c hc')),
      List.map_cons, List.flatten_cons, List.foldl_append]

theorem map_readText_of_not_mem {chunks : List (List Char)} (h : ∀ c ∈ chunks, '\x00' ∉ c) :
    chunks.map readText = chunks :=
  (List.map_congr_left fun c hc => readText_of_not_mem (h c hc)).trans (List.map_id chunks)

/-- The answer that ends a call returns what was written; only a timeout
leaves the pipe open. -/
theorem drainLoop_last (pipe : Addr2linePipe) {last : Wait} (hlast : last.EndsCall)
    (st : DrainState) :
    drainLoop pfx pipe [last] st =
      some (st.os, if last = .timeout then some { pipe with odd := st.odd } else none) := by
  cases last with
  | read bytes =>
    simp only [Wait.EndsCall] at hlast
    simp [drainLoop, hlast]
  | _ => simp [drainLoop]

/-- A call, from any state, whose reads hold no `'\0'`: the fold over
their text, and after a timeout the pipe kept with `odd` as the fold
leaves it. -/
theorem drainLoop_text (pipe : Addr2linePipe) {chunks : List (List Char)}
    (hchunks : ∀ c ∈ chunks, c ≠ [] ∧ '\x00' ∉ c) {last : Wait} (hlast : last.EndsCall)
    (st : DrainState) :
    drainLoop pfx pipe (chunks.map .read ++ [last]) st =
      some ((chunks.flatten.foldl (echoChar pfx) st).os,
        if last = .timeout then some { pipe with odd := (chunks.flatten.foldl (echoChar pfx) st).odd }
        else none) := by
  rw [drainLoop_reads pipe (fun c hc => (hchunks c hc).1),
    map_readText_of_not_mem (fun c hc => (hchunks c hc).2), drainLoop_last pipe hlast]

/-- A call that receives the text `b` in any non-empty reads without
`'\0'` and then an answer that ends it writes each line of `b` after one
`WritePrefix`, `odd` flipping at every newline; after a timeout the pipe
stays open with `odd` flipped once per newline, and otherwise it is reset. -/
theorem drain_eq_ref (pfx : Option (List Char)) (pipe : Addr2linePipe)
    (chunks : List (List Char)) (last : Wait) (hchunks : ∀ c ∈ chunks, c ≠ [] ∧ '\x00' ∉ c)
    (hlast : last.EndsCall) :
    drain pfx pipe (chunks.map .read ++ [last]) =
      some (refOutput pfx pipe.odd (splitLines chunks.flatten),
        if last = .timeout then
          some { pipe with odd := Bool.not^[chunks.flatten.count '\n'] pipe.odd }
        else none) := by
  rw [drain, drainLoop_reads pipe (fun c hc => (hchunks c hc).1),
    map_readText_of_not_mem (fun c hc => (hchunks c hc).2), drainLoop_last pipe hlast,
    foldl_echoChar_os, foldl_echoChar_odd]
  simp [continueLines_false]

theorem drain_eq_ref_two_reads :
    (∀ c ∈ ["ma".toList, "in\nf.c:3\n".toList], c ≠ [] ∧ '\x00' ∉ c) ∧ Wait.timeout.EndsCall ∧
      drain (some "#".toList) ⟨"a.so".toList, true⟩
          (["ma".toList, "in\nf.c:3\n".toList].map .read ++ [.timeout]) =
        some ("#  main\n#   f.c:3\n".toList, some ⟨"a.so".toList, true⟩) :=
  ⟨by decide, trivial, (drain_eq_ref (some "#".toList) ⟨"a.so".toList, true⟩
    ["ma".toList, "in\nf.c:3\n".toList] .timeout (by decide) trivial).trans rfl⟩

/-- A read's bytes after a `'\0'` are dropped, since the inner loop stops
there: a call writes the reference output of the text up to the first
`'\0'` of each read. -/
theorem drain_eq_ref_readText (pfx : Option (List Char)) (pipe : Addr2linePipe)
    (chunks : List (List Char)) (last : Wait) (hchunks : ∀ c ∈ chunks, c ≠ [])
    (hlast : last.EndsCall) :
    drain pfx pipe (chunks.map .read ++ [last]) =
      some (refOutput pfx pipe.odd (splitLines (chunks.map readText).flatten),
        if last = .timeout then
          some { pipe with odd := Bool.not^[(chunks.map readText).flatten.count '\n'] pipe.odd }
        else none) := by
  rw [drain, drainLoop_reads pipe hchunks, drainLoop_last pipe hlast, foldl_echoChar_os,
    foldl_echoChar_odd]
  simp [continueLines_false]

theorem drain_eq_ref_readText_nul :
    (∀ c ∈ ["a\n\x00b\n".toList], c ≠ []) ∧ Wait.hangUp.EndsCall ∧
      drain none ⟨"a.so".toList, true⟩ (["a\n\x00b\n".toList].map .read ++ [.hangUp]) =
        some ("  a\n".toList, none) :=
  ⟨by decide, trivial, (drain_eq_ref_readText none ⟨"a.so".toList, true⟩
    ["a\n\x00b\n".toList] .hangUp (by decide) trivial).trans rfl⟩

-- ======================================================= two calls

theorem splitLines_eq_nil_iff {t : List Char} : splitLines t = [] ↔ t = [] := by
  refine ⟨fun h => ?_, fun h => h ▸ rfl⟩
  cases t with
  | nil => rfl
  | cons c t =>
    unfold splitLines at h
    split_ifs at h
    split at h <;> cases h

/-- After text that is empty or ends with a newline no prefix is written
for the next line; after any other text the prefix of its last line is. -/
theorem foldl_echoChar_prefixWritten (t : List Char) (st : DrainState) :
    (t.foldl (echoChar pfx) st).prefixWritten =
      if t = [] then st.prefixWritten else decide (t.getLast? ≠ some '\n') := by
  rcases List.eq_nil_or_concat t with rfl | ⟨u, c, rfl⟩
  · simp
  · rw [List.concat_eq_append, List.foldl_append, List.foldl_cons, List.foldl_nil]
    by_cases hc : c = '\n' <;> simp [echoChar, hc]

theorem writePrefix_ne_nil (pfx : Option (List Char)) (odd : Bool) : writePrefix pfx odd ≠ [] := by
  simp [writePrefix]

/-- Text echoed in two calls, the second starting a new line: the output
is the reference output of the whole text exactly when the first part is
empty or ends with a newline, or the second part is empty. -/
theorem echoChar_twice_eq_ref_iff (pfx : Option (List Char)) (odd : Bool) (t₁ t₂ : List Char) :
    (t₁.foldl (echoChar pfx) ⟨false, odd, []⟩).os ++
        (t₂.foldl (echoChar pfx) ⟨false, (t₁.foldl (echoChar pfx) ⟨false, odd, []⟩).odd, []⟩).os =
      refOutput pfx odd (splitLines (t₁ ++ t₂)) ↔
    t₁ = [] ∨ t₁.getLast? = some '\n' ∨ t₂ = [] := by
  generalize hst : t₁.foldl (echoChar pfx) ⟨false, odd, []⟩ = st₁
  have hpw : st₁.prefixWritten = if t₁ = [] then false else decide (t₁.getLast? ≠ some '\n') := by
    rw [← hst, foldl_echoChar_prefixWritten]
  -- the reference goes on from the state the first part leaves
  have href : refOutput pfx odd (splitLines (t₁ ++ t₂)) =
      st₁.os ++ continueLines pfx st₁.prefixWritten st₁.odd (splitLines t₂) := by
    rw [← foldl_echoChar_os, ← hst, ← List.foldl_append, foldl_echoChar_os]
    simp [continueLines_false]
  rw [href, List.append_cancel_left_eq, foldl_echoChar_os, List.nil_append, hpw]
  cases hL : splitLines t₂ with
  | nil => simp [splitLines_eq_nil_iff.mp hL, continueLines]
  | cons l ls =>
    have h2 : t₂ ≠ [] := fun h => by simp [h, splitLines] at hL
    by_cases h1 : t₁ = []
    · simp [h1, continueLines]
    by_cases hl : t₁.getLast? = some '\n'
    · simp [h1, hl, continueLines]
    -- the second call writes the prefix again, in the middle of the line
    simp only [h1, hl, h2, if_false, ne_eq, not_false_eq_true, decide_True, continueLines, if_true,
      List.nil_append, false_or, iff_false]
    exact fun h => writePrefix_ne_nil pfx st₁.odd (by simpa using congrArg List.length h)

/-- Two `Drain` calls on one pipe, the first ended by a timeout: together
they write the reference output of all the text they read exactly when
the first call's text is empty or ends with a newline, or the second
reads nothing. Otherwise the second call writes the prefix again in the
middle of the line the first one began. -/
theorem drain_twice_eq_ref_iff (pfx : Option (List Char)) (pipe : Addr2linePipe)
    {chunks₁ chunks₂ : List (List Char)} (h₁ : ∀ c ∈ chunks₁, c ≠ [] ∧ '\x00' ∉ c)
    (h₂ : ∀ c ∈ chunks₂, c ≠ [] ∧ '\x00' ∉ c) {last : Wait} (hlast : last.EndsCall) :
    ∃ p o₁ o₂ pipe', drain pfx pipe (chunks₁.map .read ++ [.timeout]) = some (o₁, some p) ∧
      drain pfx p (chunks₂.map .read ++ [last]) = some (o₂, pipe') ∧
      (o₁ ++ o₂ = refOutput pfx pipe.odd (splitLines (chunks₁.flatten ++ chunks₂.flatten)) ↔
        chunks₁.flatten = [] ∨ chunks₁.flatten.getLast? = some '\n' ∨ chunks₂.flatten = []) :=
  ⟨_, _, _, _, by rw [drain, drainLoop_text pipe h₁ (show Wait.timeout.EndsCall from trivial)]; rfl,
    by rw [drain, drainLoop_text _ h₂ hlast], echoChar_twice_eq_ref_iff pfx pipe.odd _ _⟩

/-- A line cut between two calls, `"ab"` then `"c\n"`: the case where
the prefix is written twice. -/
theorem drain_twice_eq_ref_iff_split_line :
    (∀ c ∈ ["ab".toList], c ≠ [] ∧ '\x00' ∉ c) ∧ (∀ c ∈ ["c\n".toList], c ≠ [] ∧ '\x00' ∉ c) ∧
    Wait.timeout.EndsCall ∧
    ∃ p o₁ o₂ pipe', drain none ⟨"a.so".toList, true⟩ (["ab".toList].map .read ++ [.timeout]) =
        some (o₁, some p) ∧
      drain none p (["c\n".toList].map .read ++ [.timeout]) = some (o₂, pipe') ∧
      (o₁ ++ o₂ = refOutput none true (splitLines (["ab".toList].flatten ++ ["c\n".toList].flatten)) ↔
        ["ab".toList].flatten = [] ∨ ["ab".toList].flatten.getLast? = some '\n' ∨
          ["c\n".toList].flatten = []) :=
  ⟨by decide, by decide, trivial,
    drain_twice_eq_ref_iff none ⟨"a.so".toList, true⟩ (by decide) (by decide) trivial⟩

end AndroidArt.NativeStackDump
