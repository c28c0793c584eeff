/-
`DumpNativeStack` and `Addr2line` from `native_stack_dump.cc`: the line
written for each frame of an unwound native stack, and the addr2line
session that symbolizes the frames.

# The frame line

A frame's line is the caller's prefix, `#%02zu pc `, the address as
`%08` `PRIx64` (relative to the map when there is one), two spaces,
then the map's name, its ELF offset, the function with its parameters
stripped, and the build id. The comment above the loop states what
parsing tools rely on: `#XX pc <RELATIVE_ADDR>  <FULL_PATH_TO_SHARED_LIBRARY>`
with one space around `pc`, two after the address, and the address in
hexadecimal without `0x`. `readFrameHeader` reads a line that way, and
it recovers the frame's number and address and leaves exactly the text
after them (`readFrameHeader_frameLine`).

# The addr2line session

`Addr2line` skips maps addr2line cannot read, keeps the open pipe when
it is for the frame's map, and otherwise drains and closes it and
connects a new one. What the OS does in a call (whether `Connect`
succeeds, whether `WriteFully` sends the offset, and the answers the two
`Drain` calls get) is an `Addr2lineRun`. Over a whole dump, every offset
is sent to an addr2line working on the map of the frame the offset
belongs to (`dumpFrames_requests`).

The unwinder, `RunCommand` and `FindAddr2line` are the OS's, and
`DumpNativeStack` receives their results: the frames or the unwinder's
error, and whether addr2line is used.
-/
import AndroidArt.Printf
import AndroidArt.NativeStackDump.StripParameters
import AndroidArt.NativeStackDump.Drain

namespace AndroidArt.NativeStackDump

-- =========================================================== frames

/-- What `DumpNativeStack` reads of an `unwindstack::MapInfo`. -/
structure MapInfo where
  name : List Char
  start : Nat
  elfStartOffset : Nat
  /-- `GetPrintableBuildID()`. -/
  printableBuildId : List Char
  deriving DecidableEq, Repr

/-- What `DumpNativeStack` reads of an `unwindstack::FrameData`. -/
structure FrameData where
  num : Nat
  pc : Nat
  relPc : Nat
  mapInfo : Option MapInfo
  functionName : List Char
  functionOffset : Nat
  deriving DecidableEq, Repr

/-- `current_method`, when it is set and the mutator lock is held: its
`JniLongName()`, and the code start of the `OatQuickMethodHeader` it has
for a pc, if any. -/
structure CurrentMethod where
  jniLongName : List Char
  codeStart : Nat → Option Nat

/-- `uint64_t` subtraction. -/
def sub64 (a b : Nat) : Nat := (a + (2 ^ 64 - b % 2 ^ 64)) % 2 ^ 64

/-- The address a frame line shows: `rel_pc` in a map, `pc` outside one. -/
def frameAddress (frame : FrameData) : Nat :=
  match frame.mapInfo with
  | some _ => frame.relPc
  | none => frame.pc

/-- `#%02zu pc %08` `PRIx64` and the two spaces after the address. -/
def frameHeader (frame : FrameData) : List Char :=
  '#' :: zeroPad 2 (formatBase 10 frame.num) ++ " pc ".toList ++
    zeroPad 8 (formatBase 16 (frameAddress frame)) ++ "  ".toList

/-- What stands between the parentheses after the map. -/
def functionText (currentMethod : Option CurrentMethod) (frame : FrameData) : List Char :=
  if !frame.functionName.isEmpty then
    stripParameters (cString frame.functionName) ++
      if frame.functionOffset ≠ 0 then '+' :: formatBase 10 frame.functionOffset else []
  else
    match currentMethod with
    | some m =>
      match m.codeStart frame.pc with
      | some startOfCode => m.jniLongName ++ '+' :: formatBase 10 (sub64 frame.pc startOfCode)
      | none => "???".toList
    | none => "???".toList

/-- The rest of the line: the map, the function and the build id, or
`???` without a map; then `std::endl`. -/
def frameTail (currentMethod : Option CurrentMethod) (frame : FrameData) : List Char :=
  (match frame.mapInfo with
   | none => "???".toList
   | some m =>
     (if m.name.isEmpty then "<anonymous:".toList ++ formatBase 16 m.start ++ ['>']
      else cString m.name) ++
     (if m.elfStartOffset ≠ 0 then " (offset ".toList ++ formatBase 16 m.elfStartOffset ++ [')']
      else []) ++
     " (".toList ++ functionText currentMethod frame ++ [')'] ++
     (if m.printableBuildId.isEmpty then [] else " (BuildId: ".toList ++ m.printableBuildId ++ [')']))
  ++ ['\n']

/-- The line `DumpNativeStack` writes for a frame. -/
def frameLine (pfx : List Char) (currentMethod : Option CurrentMethod) (frame : FrameData) :
    List Char :=
  pfx ++ frameHeader frame ++ frameTail currentMethod frame

/-- Whether `DumpNativeStack` asks addr2line about a frame: it has a
function name and a named map. -/
def tryAddr2line (frame : FrameData) : Bool :=
  match frame.mapInfo with
  | some m => !frame.functionName.isEmpty && !m.name.isEmpty
  | none => false

-- ==================================================== parsing tools

/-- A line after its prefix as the parsers of the format comment read
it: `#`, the frame number in decimal, `" pc "`, the address in
hexadecimal without `0x`, two spaces; then the library's path. -/
def readFrameHeader : List Char → Option (Nat × Nat × List Char)
  | '#' :: s =>
    match s.span Char.isDigit with
    | (num@(_ :: _), ' ' :: 'p' :: 'c' :: ' ' :: s) =>
      match s.span isHexDigit with
      | (addr@(_ :: _), ' ' :: ' ' :: rest) => some (readNat 10 num, readNat 16 addr, rest)
      | _ => none
    | _ => none
  | _ => none

/-- A run of characters of a class, followed by one outside it, is what
`span` splits off. -/
theorem span_of_all {p : Char → Bool} {ds rest : List Char} {c : Char}
    (hds : ∀ d ∈ ds, p d = true) (hc : p c = false) :
    (ds ++ c :: rest).span p = (ds, c :: rest) := by
  rw [List.span_eq_take_drop, List.takeWhile_append_of_pos hds, List.dropWhile_append_of_pos hds]
  simp [hc]

theorem zeroPad_formatBase_ne_nil (w b n : Nat) : zeroPad w (formatBase b n) ≠ [] := by
  simp [zeroPad, formatBase_ne_nil]

/-- Every character of a zero-padded number in base `b ≤ 16` is a digit
`d < b`. -/
theorem mem_zeroPad_formatBase {w b n : Nat} (hb : 1 < b) {c : Char}
    (hc : c ∈ zeroPad w (formatBase b n)) : ∃ d < b, c = Nat.digitChar d := by
  rcases List.mem_append.mp hc with h | h
  · exact ⟨0, by omega, (List.eq_of_mem_replicate h).trans rfl⟩
  · exact mem_formatBase hb h

/-- The parsers read back the frame's number and address, and leave
exactly the text after the header. -/
theorem readFrameHeader_frameHeader (frame : FrameData) (t : List Char) :
    readFrameHeader (frameHeader frame ++ t) =
      some (frame.num, frameAddress frame, t) := by
  have hdec : ∀ d ∈ zeroPad 2 (formatBase 10 frame.num), Char.isDigit d = true := fun d hd => by
    obtain ⟨k, hk, rfl⟩ := mem_zeroPad_formatBase (by norm_num) hd
    exact isDigit_digitChar ⟨k, hk⟩
  have hhex : ∀ d ∈ zeroPad 8 (formatBase 16 (frameAddress frame)), isHexDigit d = true :=
    fun d hd => by
      obtain ⟨k, hk, rfl⟩ := mem_zeroPad_formatBase (by norm_num) hd
      exact isHexDigit_digitChar ⟨k, hk⟩
  obtain ⟨n₁, r₁, hn₁⟩ := List.exists_cons_of_ne_nil (zeroPad_formatBase_ne_nil 2 10 frame.num)
  obtain ⟨n₂, r₂, hn₂⟩ :=
    List.exists_cons_of_ne_nil (zeroPad_formatBase_ne_nil 8 16 (frameAddress frame))
  have hpc : " pc ".toList = [' ', 'p', 'c', ' '] := rfl
  have hsp : "  ".toList = [' ', ' '] := rfl
  simp only [frameHeader, hpc, hsp, List.cons_append, List.nil_append, List.append_assoc]
  rw [readFrameHeader, span_of_all hdec (by decide)]
  simp only [hn₁]
  rw [← hn₁, span_of_all hhex (by decide)]
  simp only [hn₂]
  rw [← hn₂, readNat_zeroPad_formatBase (by norm_num) (by norm_num),
    readNat_zeroPad_formatBase (by norm_num) (by norm_num)]

theorem readFrameHeader_frameLine (pfx : List Char) (currentMethod : Option CurrentMethod)
    (frame : FrameData) :
    readFrameHeader ((frameLine pfx currentMethod frame).drop pfx.length) =
      some (frame.num, frameAddress frame, frameTail currentMethod frame) := by
  rw [frameLine, List.append_assoc, List.drop_left, readFrameHeader_frameHeader]

-- ========================================================= addr2line

/-- The maps `Addr2line` skips: those ending in `kIgnoreSuffixes`, and
`[vdso]`. -/
def addr2lineSkips (mapSrc : List Char) : Bool :=
  [".dex", ".jar", ".vdex"].any (fun ignoreSuffix => ignoreSuffix.toList.isSuffixOf mapSrc) ||
    mapSrc == "[vdso]".toList

/-- `StringPrintf("0x%zx\n", offset)`. -/
def hexOffset (offset : Nat) : List Char := "0x".toList ++ formatBase 16 offset ++ ['\n']

/-- What the OS does during one `Addr2line` call. -/
structure Addr2lineRun where
  /-- The answers `Drain(0, ...)` gets when the open pipe is for another map. -/
  oldAnswers : List Wait
  /-- Whether `Connect` starts addr2line. -/
  connects : Bool
  /-- Whether `WriteFully` sends the whole offset. -/
  writes : Bool
  /-- The answers `Drain(2U, ...)` gets. -/
  answers : List Wait

/-- `Connect(map_src, args)`: a new pipe for `map_src`, `odd` set, or
null when `pipe`, `fork` or `exec` fails. -/
def connect (mapSrc : List Char) (run : Addr2lineRun) : Option Addr2linePipe :=
  if run.connects then some ⟨mapSrc, true⟩ else none

/-- What an `Addr2line` call does: the text written to `os`, the pipe
after it, and the offset sent with the map of the addr2line it is sent to. -/
structure Addr2lineOut where
  os : List Char
  pipe : Option Addr2linePipe
  sent : Option (List Char × List Char)

/-- `if (*pipe == nullptr || (*pipe)->file != map_src)`: keep a pipe for
`map_src`; otherwise drain and close the open one, and connect. -/
def reconnect (mapSrc pfx : List Char) (run : Addr2lineRun) :
    Option Addr2linePipe → Option (List Char × Option Addr2linePipe)
  | some p =>
    if p.file = mapSrc then some ([], some p)
    else (drain (some pfx) p run.oldAnswers).map fun r => (r.1, connect mapSrc run)
  | none => some ([], connect mapSrc run)

/-- `Addr2line`; `none` if the OS's answers run out first. -/
def addr2line (mapSrc : List Char) (offset : Nat) (pfx : List Char) (run : Addr2lineRun)
    (pipe : Option Addr2linePipe) : Option Addr2lineOut :=
  if addr2lineSkips mapSrc then some ⟨[], pipe, none⟩
  else (reconnect mapSrc pfx run pipe).bind fun r =>
    match r.2 with
    | none => some ⟨r.1, none, none⟩
    | some p =>
      if run.writes then
        (drain (some pfx) p run.answers).map fun d =>
          ⟨r.1 ++ d.1, d.2, some (p.file, hexOffset offset)⟩
      else some ⟨r.1, none, none⟩

/-- What `DumpNativeStack` has `Addr2line` do for a frame: nothing unless
addr2line is used and the frame has a function in a named map. -/
def frameAddr2line (pfx : List Char) (useAddr2line : Bool) (frame : FrameData)
    (run : Addr2lineRun) (pipe : Option Addr2linePipe) : Option Addr2lineOut :=
  match frame.mapInfo with
  | some m =>
    if tryAddr2line frame && useAddr2line then addr2line m.name frame.relPc pfx run pipe
    else some ⟨[], pipe, none⟩
  | none => some ⟨[], pipe, none⟩

/-- The frame loop of `DumpNativeStack`: each frame's line, then what
`Addr2line` writes for it. The result is the text, the pipe left open,
and the offsets sent with the map of the addr2line each went to. -/
def dumpFrames (pfx : List Char) (currentMethod : Option CurrentMethod) (useAddr2line : Bool) :
    List (FrameData × Addr2lineRun) → Option Addr2linePipe →
      Option (List Char × Option Addr2linePipe × List (List Char × List Char))
  | [], pipe => some ([], pipe, [])
  | (frame, run) :: frames, pipe =>
    (frameAddr2line pfx useAddr2line frame run pipe).bind fun a =>
      (dumpFrames pfx currentMethod useAddr2line frames a.pipe).map fun d =>
        (frameLine pfx currentMethod frame ++ a.os ++ d.1, d.2.1, a.sent.toList ++ d.2.2)

/-- `DumpNativeStack` after unwinding: the unwinder's error message, or
the frames (with what the OS does in each frame's `Addr2line` call); at
the end an open pipe is drained with the answers `finalAnswers`. The
result is the text and the offsets sent. -/
def dumpNativeStack (pfx : List Char) (tid : Int) (currentMethod : Option CurrentMethod)
    (unwound : Except (List Char) (List (FrameData × Addr2lineRun))) (useAddr2line : Bool)
    (finalAnswers : List Wait) : Option (List Char × List (List Char × List Char)) :=
  match unwound with
  | .error errorString =>
    some (pfx ++ "(Unwind failed for thread ".toList ++ formatDecimal tid ++ ": ".toList ++
      errorString ++ ")\n".toList, [])
  | .ok frames =>
    (dumpFrames pfx currentMethod useAddr2line frames none).bind fun d =>
      match d.2.1 with
      | none => some (d.1, d.2.2)
      | some p => (drain (some pfx) p finalAnswers).map fun r => (d.1 ++ r.1, d.2.2)

-- ========================================== where offsets are sent

theorem connect_file {mapSrc : List Char} {run : Addr2lineRun} {p : Addr2linePipe}
    (h : connect mapSrc run = some p) : p.file = mapSrc := by
  unfold connect at h
  split at h
  · obtain rfl := Option.some.inj h; rfl
  · cases h

/-- The pipe `Addr2line` goes on with is one for `map_src`. -/
theorem reconnect_file {mapSrc pfx : List Char} {run : Addr2lineRun}
    {pipe : Option Addr2linePipe} {os : List Char} {p : Addr2linePipe}
    (h : reconnect mapSrc pfx run pipe = some (os, some p)) : p.file = mapSrc := by
  cases pipe with
  | none => exact connect_file (Prod.mk.inj (Option.some.inj h)).2
  | some q =>
    simp only [reconnect] at h
    split at h
    · next hq =>
      obtain ⟨-, he⟩ := Prod.mk.inj (Option.some.inj h)
      obtain rfl := Option.some.inj he
      exact hq
    · obtain ⟨r, -, hr⟩ := Option.map_eq_some'.mp h
      exact connect_file (Prod.mk.inj hr).2

/-- A skipped map leaves the pipe and `os` alone and sends nothing. -/
theorem addr2line_skips {mapSrc : List Char} (h : addr2lineSkips mapSrc = true) (offset : Nat)
    (pfx : List Char) (run : Addr2lineRun) (pipe : Option Addr2linePipe) :
    addr2line mapSrc offset pfx run pipe = some ⟨[], pipe, none⟩ := by
  simp [addr2line, h]

/-- `Addr2line` sends the offset only to an addr2line working on `map_src`. -/
theorem addr2line_sent {mapSrc : List Char} {offset : Nat} {pfx : List Char}
    {run : Addr2lineRun} {pipe : Option Addr2linePipe} {out : Addr2lineOut}
    (h : addr2line mapSrc offset pfx run pipe = some out) {file text : List Char}
    (hs : out.sent = some (file, text)) :
    addr2lineSkips mapSrc = false ∧ file = mapSrc ∧ text = hexOffset offset := by
  unfold addr2line at h
  split at h
  · cases h; simp at hs
  · next hskip =>
    obtain ⟨⟨os, pipe'⟩, hr, h⟩ := Option.bind_eq_some.mp h
    cases pipe' with
    | none => cases h; simp at hs
    | some p =>
      dsimp only at h
      split at h
      · obtain ⟨d, -, rfl⟩ := Option.map_eq_some'.mp h
        cases hs
        exact ⟨by simpa using hskip, reconnect_file hr, rfl⟩
      · cases h; simp at hs

theorem frameAddr2line_sent {pfx : List Char} {useAddr2line : Bool} {frame : FrameData}
    {run : Addr2lineRun} {pipe : Option Addr2linePipe} {out : Addr2lineOut}
    (h : frameAddr2line pfx useAddr2line frame run pipe = some out) {file text : List Char}
    (hs : out.sent = some (file, text)) :
    ∃ m, frame.mapInfo = some m ∧ tryAddr2line frame = true ∧ addr2lineSkips m.name = false ∧
      file = m.name ∧ text = hexOffset frame.relPc := by
  unfold frameAddr2line at h
  split at h
  · next m hm =>
    split at h
    · next ht =>
      obtain ⟨hskip, rfl, rfl⟩ := addr2line_sent h hs
      exact ⟨m, hm, by simp_all, hskip, rfl, rfl⟩
    · cases h; simp at hs
  · cases h; simp at hs

/-- Over the frame loop, every offset is sent to an addr2line working on
the map of a frame of the dump: a frame with a function, in a map
addr2line can read, whose `rel_pc` the offset is. -/
theorem dumpFrames_requests {pfx : List Char} {currentMethod : Option CurrentMethod}
    {useAddr2line : Bool} {frames : List (FrameData × Addr2lineRun)}
    {pipe pipe' : Option Addr2linePipe} {os : List Char} {sent : List (List Char × List Char)}
    (h : dumpFrames pfx currentMethod useAddr2line frames pipe = some (os, pipe', sent)) :
    ∀ r ∈ sent, ∃ frame run m, (frame, run) ∈ frames ∧ frame.mapInfo = some m ∧
      tryAddr2line frame = true ∧ addr2lineSkips m.name = false ∧
      r = (m.name, hexOffset frame.relPc) := by
  induction frames generalizing pipe os pipe' sent with
  | nil => cases h; simp
  | cons fr frames ih =>
    obtain ⟨frame, run⟩ := fr
    obtain ⟨a, ha, h⟩ := Option.bind_eq_some.mp h
    obtain ⟨d, hd, he⟩ := Option.map_eq_some'.mp h
    simp only [Prod.mk.injEq] at he
    obtain ⟨-, -, rfl⟩ := he
    intro r hr
    rcases List.mem_append.mp hr with hr | hr
    · obtain ⟨file, text⟩ := r
      obtain ⟨m, hm, ht, hskip, rfl, rfl⟩ :=
        frameAddr2line_sent ha (Option.mem_toList.mp hr)
      exact ⟨frame, run, m, List.mem_cons_self _ _, hm, ht, hskip, rfl⟩
    · obtain ⟨frame', run', m, hmem, hrest⟩ := ih hd r hr
      exact ⟨frame', run', m, List.mem_cons_of_mem _ hmem, hrest⟩

/-- Over a whole `DumpNativeStack`, every offset is sent to an addr2line
working on the map of one of the unwound frames: a frame with a
function, in a named map addr2line can read, whose `rel_pc` the offset
is. -/
theorem dumpNativeStack_requests {pfx : List Char} {tid : Int}
    {currentMethod : Option CurrentMethod}
    {unwound : Except (List Char) (List (FrameData × Addr2lineRun))} {useAddr2line : Bool}
    {finalAnswers : List Wait} {os : List Char} {sent : List (List Char × List Char)}
    (h : dumpNativeStack pfx tid currentMethod unwound useAddr2line finalAnswers =
      some (os, sent)) :
    ∀ r ∈ sent, ∃ frames frame run m, unwound = .ok frames ∧ (frame, run) ∈ frames ∧
      frame.mapInfo = some m ∧ tryAddr2line frame = true ∧ addr2lineSkips m.name = false ∧
      r = (m.name, hexOffset frame.relPc) := by
  cases unwound with
  | error e => cases h; simp
  | ok frames =>
    obtain ⟨⟨os', pipe, sent'⟩, hd, h⟩ := Option.bind_eq_some.mp h
    have hs : sent = sent' := by
      cases pipe with
      | none => cases h; rfl
      | some p =>
        obtain ⟨r, -, hr⟩ := Option.map_eq_some'.mp h
        exact (Prod.mk.inj hr).2.symm
    subst hs
    intro r hr
    obtain ⟨frame, run, m, hmem, hrest⟩ := dumpFrames_requests hd r hr
    exact ⟨frames, frame, run, m, rfl, hmem, hrest⟩

theorem dumpNativeStack_requests_one_frame :
    dumpNativeStack [] 0 none
        (.ok [(⟨0, 0, 0, some ⟨"a.so".toList, 0, 0, []⟩, ['f'], 0⟩, ⟨[], true, true, [.timeout]⟩)])
        true [.timeout] =
      some ("#00 pc 00000000  a.so (f)\n".toList, [("a.so".toList, "0x0\n".toList)]) ∧
    ∀ r ∈ [("a.so".toList, "0x0\n".toList)], ∃ frames frame run m,
      (.ok [(⟨0, 0, 0, some ⟨"a.so".toList, 0, 0, []⟩, ['f'], 0⟩, ⟨[], true, true, [.timeout]⟩)] :
        Except (List Char) (List (FrameData × Addr2lineRun))) = .ok frames ∧
      (frame, run) ∈ frames ∧ frame.mapInfo = some m ∧ tryAddr2line frame = true ∧
      addr2lineSkips m.name = false ∧ r = (m.name, hexOffset frame.relPc) := by
  refine ⟨?_, @dumpNativeStack_requests [] 0 none _ true [.timeout]
    "#00 pc 00000000  a.so (f)\n".toList _ ?_⟩ <;> rfl

end AndroidArt.NativeStackDump
