/-
`DumpNativeStack` against an addr2line that behaves: the frame loop, with
the pipe it keeps open from frame to frame, writes what a reader of the
dump expects.

# The ideal addr2line

`llvm-addr2line --functions --inlines` answers an offset with, for the
frame and for each frame inlined into it, the function's name on one
line and its location on the next (`answerText`). The OS behaves in an
`Addr2line` call that asks when addr2line starts and takes the offset, a
pipe being closed has nothing left to say, and the answer arrives in
reads without `'\0'` before the call ends (`Answers`). How the answer is
split into reads, and which answer ends the call, are left free.

# The refinement

Then the dump is each frame's line followed by its answer, every
function after `WritePrefix` on an odd line and every location on an
even one (`symbolizedDump`), and the offsets sent are those of the
frames asked about, in order (`requestsOf`): `dumpNativeStack_answers`.
Between frames the pipe is closed, or open with `odd` set (`PipeReady`),
since every answer has an even number of lines. So whether a call ends
by a timeout, which keeps the pipe for the next frame of the same map,
or otherwise, which closes it, does not change what is written.

# Reading the dump back

A tool that reads every line after the prefix as a frame line gets the
frames' numbers and addresses in order, and takes no answer line for a
frame (`readDump_dumpNativeStack`), as long as no name the dump prints holds a
newline.
-/
import AndroidArt.NativeStackDump.DumpNativeStack

namespace AndroidArt.NativeStackDump

-- ======================================================= the answers

/-- What addr2line prints for one offset: a function line and a location
line for the frame and for each frame inlined into it. -/
def answerText (answer : List (List Char × List Char)) : List Char :=
  answer.flatMap fun p => p.1 ++ '\n' :: (p.2 ++ ['\n'])

/-- How the dump shows an answer: each function after the prefix and two
spaces, each location after the prefix and three. -/
def answerLines (pfx : List Char) (answer : List (List Char × List Char)) : List Char :=
  answer.flatMap fun p =>
    pfx ++ "  ".toList ++ p.1 ++ '\n' :: (pfx ++ "   ".toList ++ p.2 ++ ['\n'])

/-- An `Addr2line` call in which the OS behaves and addr2line answers
`text`: it starts and takes the offset, a pipe being closed has nothing
left to say, and `text` arrives in reads without `'\0'` before the call
ends. -/
structure Answers (text : List Char) (run : Addr2lineRun) : Prop where
  connects : run.connects = true
  writes : run.writes = true
  closes : ∃ w : Wait, w.EndsCall ∧ run.oldAnswers = [w]
  reads : ∃ (chunks : List (List Char)) (last : Wait), (∀ c ∈ chunks, c ≠ [] ∧ '\x00' ∉ c) ∧
    chunks.flatten = text ∧ last.EndsCall ∧ run.answers = chunks.map .read ++ [last]

/-- The map `DumpNativeStack` asks addr2line about for a frame: the
frame's map, when the frame has a function, the map has a name,
addr2line is used, and `Addr2line` does not skip the map. -/
def symbolizedMap (useAddr2line : Bool) (frame : FrameData) : Option MapInfo :=
  match frame.mapInfo with
  | some m => if tryAddr2line frame && useAddr2line && !addr2lineSkips m.name then some m else none
  | none => none

/-- What the dump shows after a frame's line: the answer for the frame,
when addr2line is asked about it. -/
def frameAnswer (pfx : List Char) (useAddr2line : Bool)
    (answerOf : List Char → Nat → List (List Char × List Char)) (frame : FrameData) :
    List Char :=
  ((symbolizedMap useAddr2line frame).map fun m => answerLines pfx (answerOf m.name frame.relPc)).getD []

/-- The dump as its reader expects it: each frame's line, then its answer. -/
def symbolizedDump (pfx : List Char) (currentMethod : Option CurrentMethod) (useAddr2line : Bool)
    (answerOf : List Char → Nat → List (List Char × List Char)) (frames : List FrameData) :
    List Char :=
  frames.flatMap fun frame =>
    frameLine pfx currentMethod frame ++ frameAnswer pfx useAddr2line answerOf frame

/-- The offsets sent: one per frame asked about, with the map it is for. -/
def requestsOf (useAddr2line : Bool) (frames : List FrameData) : List (List Char × List Char) :=
  frames.filterMap fun frame =>
    (symbolizedMap useAddr2line frame).map fun m => (m.name, hexOffset frame.relPc)

-- ============================================================ lines

/-- A line and its newline come off the front of the text as one line. -/
theorem splitLines_line {l : List Char} (h : '\n' ∉ l) (rest : List Char) :
    splitLines (l ++ '\n' :: rest) = (l ++ ['\n']) :: splitLines rest := by
  induction l with
  | nil => simp [splitLines]
  | cons c l ih =>
    have hc : c ≠ '\n' := fun e => h (e ▸ List.mem_cons_self c l)
    rw [List.cons_append, splitLines, if_neg hc, ih (fun hm => h (List.mem_cons_of_mem c hm))]
    rfl

theorem splitLines_answerText {answer : List (List Char × List Char)}
    (h : ∀ p ∈ answer, '\n' ∉ p.1 ∧ '\n' ∉ p.2) :
    splitLines (answerText answer) = answer.flatMap fun p => [p.1 ++ ['\n'], p.2 ++ ['\n']] := by
  induction answer with
  | nil => rfl
  | cons p answer ih =>
    obtain ⟨h1, h2⟩ := h p (List.mem_cons_self p answer)
    simp only [answerText, List.flatMap_cons, List.append_assoc, List.cons_append,
      List.nil_append] at ih ⊢
    rw [splitLines_line h1, splitLines_line h2, ih (fun q hq => h q (List.mem_cons_of_mem p hq))]

/-- On an odd line the prefix gets two spaces, on the even line after it three. -/
theorem refOutput_answer (pfx : List Char) (answer : List (List Char × List Char)) :
    refOutput (some pfx) true (answer.flatMap fun p => [p.1 ++ ['\n'], p.2 ++ ['\n']]) =
      answerLines pfx answer := by
  induction answer with
  | nil => rfl
  | cons p answer ih =>
    rw [List.flatMap_cons, answerLines, List.flatMap_cons, ← answerLines, ← ih]
    simp [refOutput, writePrefix]

theorem count_answerText {answer : List (List Char × List Char)}
    (h : ∀ p ∈ answer, '\n' ∉ p.1 ∧ '\n' ∉ p.2) :
    (answerText answer).count '\n' = 2 * answer.length := by
  induction answer with
  | nil => rfl
  | cons p answer ih =>
    obtain ⟨h1, h2⟩ := h p (List.mem_cons_self p answer)
    simp only [answerText, List.flatMap_cons, List.count_append, List.count_cons,
      List.count_eq_zero_of_not_mem h1, List.count_eq_zero_of_not_mem h2] at ih ⊢
    rw [ih (fun q hq => h q (List.mem_cons_of_mem p hq))]
    simp
    omega

/-- An even number of flips leaves `odd` as it was. -/
theorem not_iterate_two_mul (n : Nat) (b : Bool) : Bool.not^[2 * n] b = b := by
  induction n generalizing b with
  | zero => rfl
  | succ n ih => rw [Nat.mul_succ, Function.iterate_add_apply, ih]; cases b <;> rfl

-- ===================================================== one Drain

/-- Between frames the pipe is closed, or open with `odd` set. -/
def PipeReady (pipe : Option Addr2linePipe) : Prop := ∀ p, pipe = some p → p.odd = true

theorem pipeReady_none : PipeReady none := fun _ h => by cases h

/-- `Drain` on a pipe with nothing left to say writes nothing. -/
theorem drain_closing (pfx : Option (List Char)) (p : Addr2linePipe) {w : Wait} (hw : w.EndsCall) :
    ∃ pipe', drain pfx p [w] = some ([], pipe') := by
  rw [drain, drainLoop_last p hw]
  exact ⟨_, rfl⟩

/-- `Drain(2U, ...)` on a pipe with `odd` set, as addr2line answers: the
answer's lines, and the pipe kept with `odd` set or closed. -/
theorem drain_answer (pfx : List Char) {q : Addr2linePipe} (hq : q.odd = true)
    {answer : List (List Char × List Char)} (hlines : ∀ p ∈ answer, '\n' ∉ p.1 ∧ '\n' ∉ p.2)
    {chunks : List (List Char)} {last : Wait} (hchunks : ∀ c ∈ chunks, c ≠ [] ∧ '\x00' ∉ c)
    (htext : chunks.flatten = answerText answer) (hlast : last.EndsCall) :
    ∃ pipe', PipeReady pipe' ∧
      drain (some pfx) q (chunks.map .read ++ [last]) = some (answerLines pfx answer, pipe') := by
  rw [drain, drainLoop_text q hchunks hlast, foldl_echoChar_os, foldl_echoChar_odd, htext,
    count_answerText hlines, not_iterate_two_mul]
  refine ⟨if last = .timeout then some { q with odd := true } else none, fun p hp => ?_, by
    simp [continueLines_false, hq, splitLines_answerText hlines, refOutput_answer]⟩
  split at hp
  · cases hp; rfl
  · cases hp

-- ===================================================== one frame

section Frame

variable (pfx : List Char) {run : Addr2lineRun} {text : List Char}

/-- With the OS behaving, `Addr2line` goes on with a pipe for the map
whose `odd` is set, and writes nothing before sending the offset. -/
theorem reconnect_ready (mapSrc : List Char) (hrun : Answers text run) {pipe : Option Addr2linePipe}
    (hpipe : PipeReady pipe) :
    ∃ q, q.odd = true ∧ reconnect mapSrc pfx run pipe = some ([], some q) := by
  have hconnect : connect mapSrc run = some ⟨mapSrc, true⟩ := by simp [connect, hrun.connects]
  cases pipe with
  | none => exact ⟨⟨mapSrc, true⟩, rfl, by rw [reconnect, hconnect]⟩
  | some p =>
    by_cases hp : p.file = mapSrc
    · exact ⟨p, hpipe p rfl, by simp [reconnect, hp]⟩
    · obtain ⟨w, hw, hold⟩ := hrun.closes
      obtain ⟨pipe', hd⟩ := drain_closing (some pfx) p hw
      exact ⟨⟨mapSrc, true⟩, rfl, by simp [reconnect, hp, hold, hd, hconnect]⟩

/-- One `Addr2line` call that asks, with the OS behaving: the answer's
lines, the offset sent to the map's addr2line, and a ready pipe. -/
theorem addr2line_answers {mapSrc : List Char} (hskip : addr2lineSkips mapSrc = false)
    (offset : Nat) {answer : List (List Char × List Char)}
    (hlines : ∀ p ∈ answer, '\n' ∉ p.1 ∧ '\n' ∉ p.2) (hrun : Answers (answerText answer) run)
    {pipe : Option Addr2linePipe} (hpipe : PipeReady pipe) :
    ∃ pipe', PipeReady pipe' ∧ addr2line mapSrc offset pfx run pipe =
      some ⟨answerLines pfx answer, pipe', some (mapSrc, hexOffset offset)⟩ := by
  obtain ⟨q, hq, hr⟩ := reconnect_ready pfx mapSrc hrun hpipe
  obtain ⟨chunks, last, hchunks, htext, hlast, hanswers⟩ := hrun.reads
  obtain ⟨pipe', hready, hd⟩ := drain_answer pfx hq hlines hchunks htext hlast
  have hfile : q.file = mapSrc := reconnect_file hr
  refine ⟨pipe', hready, ?_⟩
  simp [addr2line, hskip, hr, hrun.writes, hanswers, hd, hfile]

variable {useAddr2line : Bool} {answerOf : List Char → Nat → List (List Char × List Char)}

/-- One frame of the loop, with the OS behaving: the frame's answer, the
request for it, and a ready pipe. -/
theorem frameAddr2line_answers (hlines : ∀ m o, ∀ p ∈ answerOf m o, '\n' ∉ p.1 ∧ '\n' ∉ p.2)
    {frame : FrameData}
    (hrun : ∀ m, symbolizedMap useAddr2line frame = some m →
      Answers (answerText (answerOf m.name frame.relPc)) run)
    {pipe : Option Addr2linePipe} (hpipe : PipeReady pipe) :
    ∃ pipe', PipeReady pipe' ∧ frameAddr2line pfx useAddr2line frame run pipe =
      some ⟨frameAnswer pfx useAddr2line answerOf frame, pipe',
        (symbolizedMap useAddr2line frame).map fun m => (m.name, hexOffset frame.relPc)⟩ := by
  unfold frameAddr2line frameAnswer
  split
  · next m hm =>
    by_cases hask : tryAddr2line frame && useAddr2line
    · by_cases hskip : addr2lineSkips m.name
      · have hsym : symbolizedMap useAddr2line frame = none := by simp [symbolizedMap, hm, hskip]
        exact ⟨pipe, hpipe, by simp [hask, hsym, addr2line_skips hskip]⟩
      · have hsym : symbolizedMap useAddr2line frame = some m := by
          simp only [Bool.not_eq_true] at hskip
          simp [symbolizedMap, hm, hskip, hask]
        rw [if_pos hask, hsym]
        exact addr2line_answers pfx (by simpa using hskip) frame.relPc (hlines _ _) (hrun m hsym) hpipe
    · have hsym : symbolizedMap useAddr2line frame = none := by
        simp only [Bool.not_eq_true] at hask
        simp [symbolizedMap, hm, hask]
      exact ⟨pipe, hpipe, by simp [hask, hsym]⟩
  · next hm => exact ⟨pipe, hpipe, by simp [symbolizedMap, hm]⟩

end Frame

-- ================================================== the whole dump

variable (pfx : List Char) (currentMethod : Option CurrentMethod) {useAddr2line : Bool}
  {answerOf : List Char → Nat → List (List Char × List Char)}

/-- The frame loop with the OS behaving, from a ready pipe: the frames'
lines and answers, the requests in order, and a ready pipe. -/
theorem dumpFrames_answers (hlines : ∀ m o, ∀ p ∈ answerOf m o, '\n' ∉ p.1 ∧ '\n' ∉ p.2)
    {frames : List (FrameData × Addr2lineRun)}
    (hruns : ∀ fr ∈ frames, ∀ m, symbolizedMap useAddr2line fr.1 = some m →
      Answers (answerText (answerOf m.name fr.1.relPc)) fr.2)
    {pipe : Option Addr2linePipe} (hpipe : PipeReady pipe) :
    ∃ pipe', PipeReady pipe' ∧ dumpFrames pfx currentMethod useAddr2line frames pipe =
      some (symbolizedDump pfx currentMethod useAddr2line answerOf (frames.map Prod.fst), pipe',
        requestsOf useAddr2line (frames.map Prod.fst)) := by
  induction frames generalizing pipe with
  | nil => exact ⟨pipe, hpipe, rfl⟩
  | cons fr frames ih =>
    obtain ⟨frame, run⟩ := fr
    obtain ⟨a, ha, hfa⟩ := frameAddr2line_answers pfx hlines
      (hruns (frame, run) (List.mem_cons_self _ _)) hpipe
    obtain ⟨pipe', hready, hd⟩ := ih (fun fr hfr => hruns fr (List.mem_cons_of_mem _ hfr)) ha
    refine ⟨pipe', hready, ?_⟩
    rw [dumpFrames, hfa, Option.some_bind, hd, Option.map_some']
    cases hsym : symbolizedMap useAddr2line frame <;>
      simp [symbolizedDump, requestsOf, hsym, List.filterMap_cons]

/-- After the frame loop, the closing `Drain(0, ...)` on a pipe with
nothing left to say adds nothing. -/
theorem dumpNativeStack_of_dumpFrames (tid : Int) {frames : List (FrameData × Addr2lineRun)}
    {text : List Char} {pipe' : Option Addr2linePipe} {sent : List (List Char × List Char)}
    (hd : dumpFrames pfx currentMethod useAddr2line frames none = some (text, pipe', sent))
    {finalAnswer : Wait} (hfinal : finalAnswer.EndsCall) :
    dumpNativeStack pfx tid currentMethod (.ok frames) useAddr2line [finalAnswer] =
      some (text, sent) := by
  rw [dumpNativeStack, hd, Option.some_bind]
  cases pipe' with
  | none => rfl
  | some p =>
    obtain ⟨pipe'', hdrain⟩ := drain_closing (some pfx) p hfinal
    simp [hdrain]

/-- With an addr2line that answers every frame it is asked about in
complete lines, `DumpNativeStack` writes each frame's line followed by
the answer for it, every function on an odd line after the prefix and
two spaces and every location on an even line after three, and sends
exactly the offsets of the frames asked about, in order, each to the
addr2line of its map. Whether each call ends by a timeout, keeping the
pipe for the next frame, or otherwise, closing it, changes nothing. -/
theorem dumpNativeStack_answers (tid : Int) {frames : List (FrameData × Addr2lineRun)}
    (hlines : ∀ m o, ∀ p ∈ answerOf m o, '\n' ∉ p.1 ∧ '\n' ∉ p.2)
    (hruns : ∀ fr ∈ frames, ∀ m, symbolizedMap useAddr2line fr.1 = some m →
      Answers (answerText (answerOf m.name fr.1.relPc)) fr.2)
    {finalAnswer : Wait} (hfinal : finalAnswer.EndsCall) :
    dumpNativeStack pfx tid currentMethod (.ok frames) useAddr2line [finalAnswer] =
      some (symbolizedDump pfx currentMethod useAddr2line answerOf (frames.map Prod.fst),
        requestsOf useAddr2line (frames.map Prod.fst)) := by
  obtain ⟨pipe', -, hd⟩ := dumpFrames_answers pfx currentMethod hlines hruns pipeReady_none
  exact dumpNativeStack_of_dumpFrames pfx currentMethod tid hd hfinal

/-- Two frames in `a.so`, each answered in one read with a function and
its location. The first call ends by a timeout, which keeps the pipe, so
the second frame's offset goes down the same pipe. -/
def twoFrames : List (FrameData × Addr2lineRun) :=
  [(⟨0, 0, 0, some ⟨"a.so".toList, 0, 0, []⟩, ['f'], 0⟩,
      ⟨[.timeout], true, true, ["f\na.c:1\n".toList].map .read ++ [.timeout]⟩),
    (⟨1, 4, 4, some ⟨"a.so".toList, 0, 0, []⟩, ['g'], 0⟩,
      ⟨[.timeout], true, true, ["g\na.c:2\n".toList].map .read ++ [.timeout]⟩)]

/-- What addr2line answers for the offsets of `twoFrames`. -/
def twoFramesAnswer (_ : List Char) (offset : Nat) : List (List Char × List Char) :=
  if offset = 0 then [("f".toList, "a.c:1".toList)] else [("g".toList, "a.c:2".toList)]

theorem twoFramesAnswer_lines : ∀ m o, ∀ p ∈ twoFramesAnswer m o, '\n' ∉ p.1 ∧ '\n' ∉ p.2 := by
  intro m o
  unfold twoFramesAnswer
  split <;> decide

theorem twoFrames_answers : ∀ fr ∈ twoFrames, ∀ m, symbolizedMap true fr.1 = some m →
    Answers (answerText (twoFramesAnswer m.name fr.1.relPc)) fr.2 := by
  simp only [twoFrames, List.mem_cons, List.mem_singleton, List.not_mem_nil, or_false]
  rintro fr (rfl | rfl) m -
  · exact ⟨rfl, rfl, ⟨.timeout, trivial, rfl⟩,
      ⟨["f\na.c:1\n".toList], .timeout, by decide, rfl, trivial, rfl⟩⟩
  · exact ⟨rfl, rfl, ⟨.timeout, trivial, rfl⟩,
      ⟨["g\na.c:2\n".toList], .timeout, by decide, rfl, trivial, rfl⟩⟩

/-- Both frames' lines, each followed by its two answer lines, and one
offset per frame sent to `a.so`'s addr2line. -/
theorem dumpNativeStack_answers_two_frames :
    (∀ m o, ∀ p ∈ twoFramesAnswer m o, '\n' ∉ p.1 ∧ '\n' ∉ p.2) ∧
    (∀ fr ∈ twoFrames, ∀ m, symbolizedMap true fr.1 = some m →
      Answers (answerText (twoFramesAnswer m.name fr.1.relPc)) fr.2) ∧
    dumpNativeStack [] 0 none (.ok twoFrames) true [.timeout] =
      some ("#00 pc 00000000  a.so (f)\n  f\n   a.c:1\n#01 pc 00000004  a.so (g)\n  g\n   a.c:2\n".toList,
        [("a.so".toList, "0x0\n".toList), ("a.so".toList, "0x4\n".toList)]) := by
  have h1 : formatBase 10 1 = ['1'] := formatBase_of_lt (by decide) (by decide)
  have h4 : formatBase 16 4 = ['4'] := formatBase_of_lt (by decide) (by decide)
  refine ⟨twoFramesAnswer_lines, twoFrames_answers,
    (dumpNativeStack_answers [] none 0 twoFramesAnswer_lines twoFrames_answers
      (show Wait.timeout.EndsCall from trivial)).trans ?_⟩
  simp only [twoFrames, List.map_cons, List.map_nil, symbolizedDump, requestsOf,
    List.flatMap_cons, List.flatMap_nil, List.filterMap_cons, List.filterMap_nil, frameLine,
    frameHeader, frameAddress, hexOffset, h1, h4]
  rfl

-- ============================================ addr2line unavailable

/-- A frame whose `Addr2line` call, if it asks, fails to start addr2line
or to send the offset: from a closed pipe nothing is written, nothing is
sent, and the pipe stays closed. -/
theorem frameAddr2line_fails {frame : FrameData} {run : Addr2lineRun}
    (hrun : ∀ m, symbolizedMap useAddr2line frame = some m →
      run.connects = false ∨ run.writes = false) :
    frameAddr2line pfx useAddr2line frame run none = some ⟨[], none, none⟩ := by
  unfold frameAddr2line
  split
  · next m hm =>
    split
    · next hask =>
      by_cases hskip : addr2lineSkips m.name
      · exact addr2line_skips hskip _ _ _ _
      · have hsym : symbolizedMap useAddr2line frame = some m := by
          simp only [Bool.not_eq_true] at hskip
          simp [symbolizedMap, hm, hskip, hask]
        simp only [Bool.not_eq_true] at hskip
        rcases hrun m hsym with hc | hw
        · simp [addr2line, hskip, reconnect, connect, hc]
        · by_cases hc : run.connects = true <;> simp [addr2line, hskip, reconnect, connect, hw, hc]
    · rfl
  · rfl

theorem dumpFrames_fails {frames : List (FrameData × Addr2lineRun)}
    (hruns : ∀ fr ∈ frames, ∀ m, symbolizedMap useAddr2line fr.1 = some m →
      fr.2.connects = false ∨ fr.2.writes = false) :
    dumpFrames pfx currentMethod useAddr2line frames none =
      some ((frames.map Prod.fst).flatMap (frameLine pfx currentMethod), none, []) := by
  induction frames with
  | nil => rfl
  | cons fr frames ih =>
    rw [dumpFrames, frameAddr2line_fails pfx (hruns fr (List.mem_cons_self _ _)), Option.some_bind,
      ih (fun g hg => hruns g (List.mem_cons_of_mem _ hg)), Option.map_some']
    simp

/-- When addr2line cannot be started, or cannot be sent the offset, for
any frame it is asked about, the dump is exactly the frames' lines, no
offset is sent, and no pipe is left to drain. -/
theorem dumpNativeStack_addr2line_fails (tid : Int) {frames : List (FrameData × Addr2lineRun)}
    (hruns : ∀ fr ∈ frames, ∀ m, symbolizedMap useAddr2line fr.1 = some m →
      fr.2.connects = false ∨ fr.2.writes = false) (finalAnswers : List Wait) :
    dumpNativeStack pfx tid currentMethod (.ok frames) useAddr2line finalAnswers =
      some ((frames.map Prod.fst).flatMap (frameLine pfx currentMethod), []) := by
  rw [dumpNativeStack, dumpFrames_fails pfx currentMethod hruns, Option.some_bind]

/-- One frame in `a.so` whose addr2line does not start. -/
theorem dumpNativeStack_addr2line_fails_no_start :
    (∀ fr ∈ [((⟨0, 0, 0, some ⟨"a.so".toList, 0, 0, []⟩, ['f'], 0⟩ : FrameData),
        (⟨[], false, true, []⟩ : Addr2lineRun))], ∀ m, symbolizedMap true fr.1 = some m →
      fr.2.connects = false ∨ fr.2.writes = false) ∧
    dumpNativeStack [] 0 none
        (.ok [(⟨0, 0, 0, some ⟨"a.so".toList, 0, 0, []⟩, ['f'], 0⟩, ⟨[], false, true, []⟩)]) true [] =
      some ("#00 pc 00000000  a.so (f)\n".toList, []) :=
  have hruns : ∀ fr ∈ [((⟨0, 0, 0, some ⟨"a.so".toList, 0, 0, []⟩, ['f'], 0⟩ : FrameData),
      (⟨[], false, true, []⟩ : Addr2lineRun))], ∀ m, symbolizedMap true fr.1 = some m →
      fr.2.connects = false ∨ fr.2.writes = false := fun fr hfr _ _ => by
    rw [List.mem_singleton.mp hfr]; exact .inl rfl
  ⟨hruns, (dumpNativeStack_addr2line_fails [] none 0 hruns []).trans rfl⟩

-- ================================================ reading it back

/-- What a parsing tool reads off a dump: every line, after the prefix,
read as a frame line gives a frame's number and address. -/
def readDump (pfx text : List Char) : List (Nat × Nat) :=
  (splitLines text).filterMap fun line =>
    (readFrameHeader (line.drop pfx.length)).map fun r => (r.1, r.2.1)

/-- No name a frame's line prints holds a newline: the function, the
map and its build id, and the current method's JNI name. -/
def FrameNamesOneLine (currentMethod : Option CurrentMethod) (frame : FrameData) : Prop :=
  '\n' ∉ frame.functionName ∧
    (∀ m, frame.mapInfo = some m → '\n' ∉ m.name ∧ '\n' ∉ m.printableBuildId) ∧
    ∀ cm, currentMethod = some cm → '\n' ∉ cm.jniLongName

theorem newline_not_mem_formatBase {b : Nat} (hb : 1 < b) (hb16 : b ≤ 16) (n : Nat) :
    '\n' ∉ formatBase b n := fun h => by
  simpa [isHexDigit] using isHexDigit_of_mem_formatBase hb hb16 h

theorem newline_not_mem_cString {s : List Char} (h : '\n' ∉ s) : '\n' ∉ cString s :=
  fun hm => h ((List.takeWhile_sublist _).subset hm)

theorem newline_not_mem_frameHeader (frame : FrameData) : '\n' ∉ frameHeader frame := by
  simp [frameHeader, zeroPad, List.mem_replicate, newline_not_mem_formatBase]

theorem newline_not_mem_functionText {currentMethod : Option CurrentMethod} {frame : FrameData}
    (h : FrameNamesOneLine currentMethod frame) : '\n' ∉ functionText currentMethod frame := by
  obtain ⟨hf, -, hcm⟩ := h
  unfold functionText
  split
  · have hs : '\n' ∉ stripParameters (cString frame.functionName) := fun hm =>
      newline_not_mem_cString hf ((stripParameters_sublist _).subset hm)
    split <;> simp [hs, newline_not_mem_formatBase]
  · split
    · next cm =>
      split <;> simp [hcm cm rfl, newline_not_mem_formatBase]
    · simp

/-- A frame's line is one line: its tail ends with the only newline. -/
theorem frameTail_oneLine {currentMethod : Option CurrentMethod} {frame : FrameData}
    (h : FrameNamesOneLine currentMethod frame) :
    ∃ body, '\n' ∉ body ∧ frameTail currentMethod frame = body ++ ['\n'] := by
  refine ⟨_, ?_, rfl⟩
  have hfun := newline_not_mem_functionText h
  obtain ⟨-, hmap, -⟩ := h
  split
  · decide
  · next m hm =>
    obtain ⟨hname, hid⟩ := hmap m hm
    have hn := newline_not_mem_cString hname
    have hhex := newline_not_mem_formatBase (b := 16) (by norm_num) (by norm_num)
    obtain ⟨h1, h2, h3, h4⟩ : '\n' ∉ "<anonymous:".toList ∧ '\n' ∉ " (offset ".toList ∧
        '\n' ∉ " (".toList ∧ '\n' ∉ " (BuildId: ".toList := by decide
    have h5 : '\n' ∉ [')'] ∧ '\n' ∉ ['>'] := by decide
    split_ifs <;> simp only [List.mem_append, not_or, List.not_mem_nil, not_false_eq_true, h1, h2, h3,
      h4, h5, hn, hhex, hid, hfun, and_self]

/-- A line that starts, after the prefix, with a space is no frame line. -/
theorem readFrameHeader_space (t : List Char) : readFrameHeader (' ' :: t) = none := rfl

theorem readDump_frameLine {pfx : List Char} (hpfx : '\n' ∉ pfx) {currentMethod : Option CurrentMethod}
    {frame : FrameData} (h : FrameNamesOneLine currentMethod frame) (rest : List Char) :
    readDump pfx (frameLine pfx currentMethod frame ++ rest) =
      (frame.num, frameAddress frame) :: readDump pfx rest := by
  obtain ⟨body, hbody, htail⟩ := frameTail_oneLine h
  have hline : '\n' ∉ pfx ++ frameHeader frame ++ body := by
    simp [hpfx, hbody, newline_not_mem_frameHeader]
  have hsplit : frameLine pfx currentMethod frame ++ rest =
      (pfx ++ frameHeader frame ++ body) ++ '\n' :: rest := by
    simp [frameLine, htail]
  rw [hsplit, readDump, splitLines_line hline, List.filterMap_cons_some, ← readDump]
  simp [readFrameHeader_frameHeader]

theorem readDump_answerLines {pfx : List Char} (hpfx : '\n' ∉ pfx)
    {answer : List (List Char × List Char)} (hlines : ∀ p ∈ answer, '\n' ∉ p.1 ∧ '\n' ∉ p.2)
    (rest : List Char) : readDump pfx (answerLines pfx answer ++ rest) = readDump pfx rest := by
  induction answer with
  | nil => rfl
  | cons p answer ih =>
    obtain ⟨h1, h2⟩ := hlines p (List.mem_cons_self p answer)
    have hsplit : answerLines pfx (p :: answer) ++ rest =
        (pfx ++ "  ".toList ++ p.1) ++ '\n' ::
          ((pfx ++ "   ".toList ++ p.2) ++ '\n' :: (answerLines pfx answer ++ rest)) := by
      simp [answerLines]
    rw [hsplit, readDump, splitLines_line (by simp [hpfx, h1]), splitLines_line (by simp [hpfx, h2]),
      List.filterMap_cons_none (by simp [readFrameHeader_space]),
      List.filterMap_cons_none (by simp [readFrameHeader_space]), ← readDump,
      ih (fun q hq => hlines q (List.mem_cons_of_mem p hq))]

theorem readDump_symbolizedDump (hpfx : '\n' ∉ pfx)
    (hlines : ∀ m o, ∀ p ∈ answerOf m o, '\n' ∉ p.1 ∧ '\n' ∉ p.2) {frames : List FrameData}
    (hnames : ∀ f ∈ frames, FrameNamesOneLine currentMethod f) :
    readDump pfx (symbolizedDump pfx currentMethod useAddr2line answerOf frames) =
      frames.map fun f => (f.num, frameAddress f) := by
  induction frames with
  | nil => rfl
  | cons f frames ih =>
    have hrest := ih (fun g hg => hnames g (List.mem_cons_of_mem f hg))
    simp only [symbolizedDump, List.flatMap_cons, List.append_assoc] at hrest ⊢
    rw [readDump_frameLine hpfx (hnames f (List.mem_cons_self f frames)), List.map_cons]
    unfold frameAnswer
    cases symbolizedMap useAddr2line f with
    | none => simpa using hrest
    | some m => simpa [readDump_answerLines hpfx (hlines _ _)] using hrest

/-- With an addr2line that answers in complete lines and no name printed
holding a newline, a tool reading every line of the dump after the
prefix as a frame line gets exactly the frames' numbers and addresses,
in order: every frame line reads back, and no answer line is taken for a
frame. -/
theorem readDump_dumpNativeStack (tid : Int) {frames : List (FrameData × Addr2lineRun)}
    (hpfx : '\n' ∉ pfx) (hlines : ∀ m o, ∀ p ∈ answerOf m o, '\n' ∉ p.1 ∧ '\n' ∉ p.2)
    (hruns : ∀ fr ∈ frames, ∀ m, symbolizedMap useAddr2line fr.1 = some m →
      Answers (answerText (answerOf m.name fr.1.relPc)) fr.2)
    (hnames : ∀ fr ∈ frames, FrameNamesOneLine currentMethod fr.1)
    {finalAnswer : Wait} (hfinal : finalAnswer.EndsCall) :
    (dumpNativeStack pfx tid currentMethod (.ok frames) useAddr2line [finalAnswer]).map
        (fun r => readDump pfx r.1) =
      some (frames.map fun fr => (fr.1.num, frameAddress fr.1)) := by
  obtain ⟨pipe', -, hd⟩ := dumpFrames_answers pfx currentMethod hlines hruns pipeReady_none
  rw [dumpNativeStack_of_dumpFrames pfx currentMethod tid hd hfinal, Option.map_some',
    readDump_symbolizedDump pfx currentMethod hpfx hlines (by simpa using hnames), List.map_map]
  rfl

/-- The two-frame dump, after the prefix `>`, reads back as frame 0 at
address 0 and frame 1 at address 4. -/
theorem readDump_dumpNativeStack_two_frames :
    (∀ fr ∈ twoFrames, FrameNamesOneLine none fr.1) ∧
    (dumpNativeStack ['>'] 0 none (.ok twoFrames) true [.timeout]).map
        (fun r => readDump ['>'] r.1) = some [(0, 0), (1, 4)] := by
  have hnames : ∀ fr ∈ twoFrames, FrameNamesOneLine none fr.1 := by
    simp only [twoFrames, List.mem_cons, List.mem_singleton, List.not_mem_nil, or_false]
    rintro fr (rfl | rfl) <;> exact ⟨by decide, fun m hm => by cases hm; decide, fun _ h => by cases h⟩
  exact ⟨hnames, (readDump_dumpNativeStack ['>'] none 0 (by decide) twoFramesAnswer_lines
    twoFrames_answers hnames (show Wait.timeout.EndsCall from trivial)).trans rfl⟩

end AndroidArt.NativeStackDump
