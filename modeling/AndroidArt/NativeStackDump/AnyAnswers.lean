/-
`DumpNativeStack` under any answers from the OS: what a tool reading the
dump line by line can rely on when addr2line is slow, exits, or writes
anything at all.

# What `Drain` writes

Whatever the OS answers, a `Drain` call writes lines that each start
with the prefix and a blank (`WritePrefix`), the last one possibly
without its newline (`drain_quiet`). Such text (`Quiet`) is closed under
`++`, so what an `Addr2line` call writes, an old pipe's drain followed
by the new one's, is of the same kind (`frameAddr2line_quiet`).

# What the reader gets

A line that starts with the prefix and a blank is no frame line, so
nothing addr2line sends is read as a frame. But when a call stops in the
middle of a line (a timeout, or addr2line exiting), the next frame's
line is written on the end of it and is not found at a line start. So
over every run the frames a reader finds are frames of the stack, in
order, some possibly missing (`readDump_dumpNativeStack_sublist`); with
an addr2line that answers in whole lines none is
(`readDump_dumpNativeStack`).
-/
import AndroidArt.NativeStackDump.Symbolize

namespace AndroidArt.NativeStackDump

-- ======================================================== quiet text

/-- Lines that each start with the prefix and a blank, the last one
possibly without its newline: what `Drain` writes. -/
inductive Quiet (pfx : List Char) : List Char → Prop
  | nil : Quiet pfx []
  | line {l rest : List Char} : '\n' ∉ l → Quiet pfx rest →
      Quiet pfx (pfx ++ ' ' :: l ++ '\n' :: rest)
  | last {l : List Char} : '\n' ∉ l → Quiet pfx (pfx ++ ' ' :: l)

variable {pfx : List Char}

/-- An unterminated last line runs on into the first line after it. -/
theorem Quiet.append (hpfx : '\n' ∉ pfx) {a b : List Char} (ha : Quiet pfx a)
    (hb : Quiet pfx b) : Quiet pfx (a ++ b) := by
  induction ha with
  | nil => exact hb
  | line hl _ ih => simpa using Quiet.line hl ih
  | @last l hl =>
    cases hb with
    | nil => simpa using Quiet.last hl
    | @line l' rest hl' hrest =>
      simpa using Quiet.line (l := l ++ pfx ++ ' ' :: l') (by simp [hl, hpfx, hl']) hrest
    | @last l' hl' => simpa using Quiet.last (l := l ++ pfx ++ ' ' :: l') (by simp [hl, hpfx, hl'])

theorem splitLines_of_not_mem {t : List Char} (h : '\n' ∉ t) (ht : t ≠ []) :
    splitLines t = [t] := by
  induction t with
  | nil => exact absurd rfl ht
  | cons c cs ih =>
    have hc : c ≠ '\n' := fun e => h (e ▸ List.mem_cons_self c cs)
    rw [splitLines, if_neg hc]
    cases cs with
    | nil => rfl
    | cons d ds => rw [ih (fun hm => h (List.mem_cons_of_mem c hm)) (List.cons_ne_nil d ds)]

/-- Text with a newline, cut after the line its first newline ends. -/
theorem exists_first_newline {t : List Char} (h : '\n' ∈ t) :
    ∃ l r, t = l ++ '\n' :: r ∧ '\n' ∉ l := by
  induction t with
  | nil => cases h
  | cons c t ih =>
    by_cases hc : c = '\n'
    · exact ⟨[], t, by rw [hc]; rfl, List.not_mem_nil _⟩
    · obtain ⟨l, r, rfl, hl⟩ := ih ((List.mem_cons.mp h).resolve_left fun e => hc e.symm)
      exact ⟨c :: l, r, rfl, by simp [Ne.symm hc, hl]⟩

/-- Each line after `WritePrefix` is quiet, whatever the text. -/
theorem quiet_refOutput (hpfx : '\n' ∉ pfx) (odd : Bool) (t : List Char) :
    Quiet pfx (refOutput (some pfx) odd (splitLines t)) := by
  obtain ⟨w, hw, hwn⟩ : ∃ w, writePrefix (some pfx) odd = pfx ++ ' ' :: w ∧ '\n' ∉ w :=
    ⟨' ' :: if odd then [] else [' '], by cases odd <;> simp [writePrefix], by cases odd <;> decide⟩
  by_cases hn : '\n' ∈ t
  · obtain ⟨l, r, hlr, hl⟩ := exists_first_newline hn
    rw [hlr, splitLines_line hl, refOutput, hw]
    simpa using Quiet.line (l := w ++ l) (by simp [hwn, hl]) (quiet_refOutput hpfx (!odd) r)
  · cases t with
    | nil => exact .nil
    | cons c t =>
      rw [splitLines_of_not_mem hn (List.cons_ne_nil c t), refOutput, refOutput, hw]
      simpa using Quiet.last (l := w ++ c :: t) (by simp only [List.mem_append, hwn, hn, or_self,
        not_false_eq_true])
termination_by t.length
decreasing_by simp_wf; rw [hlr]; simp only [List.length_append, List.length_cons]; omega

-- ================================================= what a call writes

/-- Whatever the OS answers, a `Drain` loop writes what writing some
text a character at a time writes. -/
theorem drainLoop_text_any (pipe : Addr2linePipe) {ws : List Wait} {st : DrainState}
    {o : List Char} {p' : Option Addr2linePipe} (h : drainLoop (some pfx) pipe ws st = some (o, p')) :
    ∃ t : List Char, o = (t.foldl (echoChar (some pfx)) st).os := by
  induction ws generalizing st with
  | nil => cases h
  | cons w ws ih =>
    cases w with
    | read bytes =>
      simp only [drainLoop] at h
      split at h
      · exact ⟨[], (Prod.mk.inj (Option.some.inj h)).1.symm⟩
      · obtain ⟨t, ht⟩ := ih h
        exact ⟨readText bytes ++ t, by rw [List.foldl_append, ht, drainLines_eq_foldl]⟩
    | _ => exact ⟨[], (Prod.mk.inj (Option.some.inj h)).1.symm⟩

theorem drain_quiet (hpfx : '\n' ∉ pfx) {pipe : Addr2linePipe} {ws : List Wait} {o : List Char}
    {p' : Option Addr2linePipe} (h : drain (some pfx) pipe ws = some (o, p')) : Quiet pfx o := by
  obtain ⟨t, rfl⟩ := drainLoop_text_any pipe h
  rw [foldl_echoChar_os]
  simpa [continueLines_false] using quiet_refOutput hpfx pipe.odd t

theorem reconnect_quiet (hpfx : '\n' ∉ pfx) {mapSrc : List Char} {run : Addr2lineRun}
    {pipe : Option Addr2linePipe} {r : List Char × Option Addr2linePipe}
    (h : reconnect mapSrc pfx run pipe = some r) : Quiet pfx r.1 := by
  unfold reconnect at h
  split at h
  · split at h
    · cases h; exact .nil
    · obtain ⟨d, hd, rfl⟩ := Option.map_eq_some'.mp h
      exact drain_quiet hpfx hd
  · cases h; exact .nil

/-- What one frame's `Addr2line` writes is quiet: the old pipe's drain,
then the new one's. -/
theorem frameAddr2line_quiet (hpfx : '\n' ∉ pfx) {useAddr2line : Bool} {frame : FrameData}
    {run : Addr2lineRun} {pipe : Option Addr2linePipe} {a : Addr2lineOut}
    (h : frameAddr2line pfx useAddr2line frame run pipe = some a) : Quiet pfx a.os := by
  unfold frameAddr2line at h
  split at h
  · split at h
    · unfold addr2line at h
      split at h
      · cases h; exact .nil
      · obtain ⟨r, hr, h⟩ := Option.bind_eq_some.mp h
        have hq := reconnect_quiet hpfx hr
        split at h
        · cases h; exact hq
        · split at h
          · obtain ⟨d, hd, rfl⟩ := Option.map_eq_some'.mp h
            exact hq.append hpfx (drain_quiet hpfx hd)
          · cases h; exact hq
    · cases h; exact .nil
  · cases h; exact .nil

-- ================================================ what is read back

/-- A line that starts with the prefix and a blank is no frame line. -/
theorem readDump_quiet_line (hpfx : '\n' ∉ pfx) {l : List Char} (hl : '\n' ∉ l)
    (rest : List Char) : readDump pfx ((pfx ++ ' ' :: l) ++ '\n' :: rest) = readDump pfx rest := by
  rw [readDump, splitLines_line (by simp [hpfx, hl]),
    List.filterMap_cons_none (by simp [readFrameHeader_space]), ← readDump]

theorem readDump_sublist_line {l : List Char} (hl : '\n' ∉ l) (rest : List Char) :
    List.Sublist (readDump pfx rest) (readDump pfx (l ++ '\n' :: rest)) := by
  unfold readDump
  rw [splitLines_line hl, List.filterMap_cons]
  split
  · exact List.Sublist.refl _
  · exact List.sublist_cons_self _ _

/-- Quiet text in front of more text adds no frame, and hides at most
the frame of the first line after it. -/
theorem readDump_quiet_append (hpfx : '\n' ∉ pfx) {q : List Char} (hq : Quiet pfx q)
    (R : List Char) : List.Sublist (readDump pfx (q ++ R)) (readDump pfx R) := by
  induction hq with
  | nil => exact List.Sublist.refl _
  | @line l rest hl _ ih =>
    rw [List.append_assoc, List.cons_append, readDump_quiet_line hpfx hl]
    exact ih
  | @last l hl =>
    by_cases hR : '\n' ∈ R
    · -- the last line runs on to the end of the first line of `R`
      obtain ⟨r₁, r₂, rfl, hr₁⟩ := exists_first_newline hR
      have hjoin : pfx ++ ' ' :: l ++ (r₁ ++ '\n' :: r₂) = (pfx ++ ' ' :: (l ++ r₁)) ++ '\n' :: r₂ := by
        simp
      rw [hjoin, readDump_quiet_line hpfx (by simp [hl, hr₁])]
      exact readDump_sublist_line hr₁ r₂
    · -- no newline follows: all of it is one quiet line
      have hone : '\n' ∉ pfx ++ ' ' :: l ++ R := by simp [hpfx, hl, hR]
      rw [readDump, splitLines_of_not_mem hone (by simp),
        List.filterMap_cons_none (by simp [readFrameHeader_space]), List.filterMap_nil]
      exact List.nil_sublist _

section Dump

variable {currentMethod : Option CurrentMethod} {useAddr2line : Bool}

/-- Over the frame loop, after any quiet text and before any, the frames
read are frames of the loop, in order. -/
theorem readDump_dumpFrames_sublist (hpfx : '\n' ∉ pfx) {frames : List (FrameData × Addr2lineRun)}
    (hnames : ∀ fr ∈ frames, FrameNamesOneLine currentMethod fr.1) {pipe pipe' : Option Addr2linePipe}
    {os : List Char} {sent : List (List Char × List Char)}
    (h : dumpFrames pfx currentMethod useAddr2line frames pipe = some (os, pipe', sent))
    {q F : List Char} (hq : Quiet pfx q) (hF : Quiet pfx F) :
    List.Sublist (readDump pfx (q ++ os ++ F)) (frames.map fun fr => (fr.1.num, frameAddress fr.1)) := by
  induction frames generalizing pipe q os pipe' sent with
  | nil =>
    cases h
    simpa [readDump, splitLines] using readDump_quiet_append hpfx (hq.append hpfx hF) []
  | cons fr frames ih =>
    obtain ⟨frame, run⟩ := fr
    obtain ⟨a, ha, h⟩ := Option.bind_eq_some.mp h
    obtain ⟨d, hd, he⟩ := Option.map_eq_some'.mp h
    simp only [Prod.mk.injEq] at he
    obtain ⟨rfl, -, -⟩ := he
    have hrest := ih (fun g hg => hnames g (List.mem_cons_of_mem _ hg)) hd (frameAddr2line_quiet hpfx ha)
    have hfront := readDump_quiet_append hpfx hq
      (frameLine pfx currentMethod frame ++ (a.os ++ d.1 ++ F))
    rw [readDump_frameLine hpfx (hnames _ (List.mem_cons_self _ _))] at hfront
    simpa only [List.append_assoc, List.map_cons] using hfront.trans (hrest.cons₂ _)

/-- Whatever the OS answers in every `Addr2line` call and in the last
`Drain`, a tool reading every line of the dump after the prefix as a
frame line finds frames of the stack only, in their order: what addr2line
writes never reads as a frame. A frame may be missing, when a call
stopped in the middle of a line that the frame's line then continues. -/
theorem readDump_dumpNativeStack_sublist (tid : Int) {frames : List (FrameData × Addr2lineRun)}
    (hpfx : '\n' ∉ pfx) (hnames : ∀ fr ∈ frames, FrameNamesOneLine currentMethod fr.1)
    {finalAnswers : List Wait} {out : List Char} {sent : List (List Char × List Char)}
    (h : dumpNativeStack pfx tid currentMethod (.ok frames) useAddr2line finalAnswers =
      some (out, sent)) :
    List.Sublist (readDump pfx out) (frames.map fun fr => (fr.1.num, frameAddress fr.1)) := by
  obtain ⟨⟨os, pipe, sent'⟩, hd, h⟩ := Option.bind_eq_some.mp h
  have hframes := fun {F} (hF : Quiet pfx F) =>
    readDump_dumpFrames_sublist hpfx hnames hd Quiet.nil hF
  cases pipe with
  | none =>
    cases h
    simpa using hframes Quiet.nil
  | some p =>
    obtain ⟨r, hr, he⟩ := Option.map_eq_some'.mp h
    cases he
    simpa using hframes (drain_quiet hpfx hr)

end Dump

/-- Two frames in one map: addr2line's answer for the first stops in the
middle of its line at a timeout, so the second frame's line runs on from
it and only the first frame is read back. -/
theorem readDump_dumpNativeStack_sublist_glued :
    dumpNativeStack [] 0 none
        (.ok [(⟨0, 0, 0, some ⟨"a.so".toList, 0, 0, []⟩, ['f'], 0⟩,
            ⟨[], true, true, [.read ['f'], .timeout]⟩),
          (⟨0, 0, 0, some ⟨"a.so".toList, 0, 0, []⟩, ['f'], 0⟩, ⟨[], true, true, [.timeout]⟩)])
        true [.timeout] =
      some ("#00 pc 00000000  a.so (f)\n  f#00 pc 00000000  a.so (f)\n".toList,
        [("a.so".toList, "0x0\n".toList), ("a.so".toList, "0x0\n".toList)]) ∧
    List.Sublist (readDump [] "#00 pc 00000000  a.so (f)\n  f#00 pc 00000000  a.so (f)\n".toList)
      [(0, 0), (0, 0)] ∧
    readDump [] "#00 pc 00000000  a.so (f)\n  f#00 pc 00000000  a.so (f)\n".toList = [(0, 0)] :=
  have hrun : dumpNativeStack [] 0 none
      (.ok [(⟨0, 0, 0, some ⟨"a.so".toList, 0, 0, []⟩, ['f'], 0⟩,
          ⟨[], true, true, [.read ['f'], .timeout]⟩),
        (⟨0, 0, 0, some ⟨"a.so".toList, 0, 0, []⟩, ['f'], 0⟩, ⟨[], true, true, [.timeout]⟩)])
      true [.timeout] =
        some ("#00 pc 00000000  a.so (f)\n  f#00 pc 00000000  a.so (f)\n".toList,
          [("a.so".toList, "0x0\n".toList), ("a.so".toList, "0x0\n".toList)]) := by
    have h1 : drain (some []) ⟨"a.so".toList, true⟩ [.read ['f'], .timeout] =
        some ("  f".toList, some ⟨"a.so".toList, true⟩) :=
      (drain_eq_ref (some []) ⟨"a.so".toList, true⟩ [['f']] .timeout (by decide) trivial).trans rfl
    have h2 : drain (some []) ⟨"a.so".toList, true⟩ [.timeout] =
        some ([], some ⟨"a.so".toList, true⟩) :=
      (drain_eq_ref (some []) ⟨"a.so".toList, true⟩ [] .timeout (by decide) trivial).trans rfl
    have ht : tryAddr2line ⟨0, 0, 0, some ⟨"a.so".toList, 0, 0, []⟩, ['f'], 0⟩ = true := rfl
    have hs : addr2lineSkips "a.so".toList = false := by decide
    simp only [dumpNativeStack, dumpFrames, frameAddr2line, addr2line, reconnect, connect, ht, hs,
      Bool.and_true, if_true, Bool.false_eq_true, if_false, Option.some_bind, h1, h2, Option.map_some']
    rfl
  have hnames : FrameNamesOneLine none ⟨0, 0, 0, some ⟨"a.so".toList, 0, 0, []⟩, ['f'], 0⟩ :=
    ⟨by decide, fun m hm => by cases hm; decide, fun _ h => by cases h⟩
  ⟨hrun, readDump_dumpNativeStack_sublist 0 (by decide)
    (fun fr hfr => by
      simp only [List.mem_cons, List.mem_singleton, List.not_mem_nil, or_false] at hfr
      rcases hfr with rfl | rfl <;> exact hnames) hrun, by decide⟩

end AndroidArt.NativeStackDump
