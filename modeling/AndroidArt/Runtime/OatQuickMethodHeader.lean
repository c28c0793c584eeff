/-
`OatQuickMethodHeader` from `oat_quick_method_header.cc`: how a pc in a
method's compiled code and a dex pc are turned into each other through
the method's stack maps, and what is written when no stack map fits.

# What is modelled

`uintptr_t` and pointers are `BitVec 64`, `uint32_t` is `BitVec 32`: so
`pc - entry_point` wraps as the machine's subtraction does, and its
assignment to `uint32_t sought_offset` keeps the low 32 bits. What the
functions ask of code outside the file is an input: the header's
address, entry point and decoded `CodeInfo` (three stack-map lookups,
each answering a stack map that may be invalid), what they read of the
`ArtMethod`, and what nterp answers. A `LOG(FATAL)` is an error carrying
its text; a pointer written with `<<` is `0x` and its hexadecimal
digits, as bionic's `%p` writes it. The `DCHECK`s are left out, as in a
release build.

# Results

The pc `ToNativeQuickPc` finds for a dex pc goes back to that dex pc
under `ToDexPc`, for every entry point, also when `entry_point + offset`
passes `2^64` (`toDexPc_toNativeQuickPc`), and the same holds of the pc
found for a catch handler (`toDexPc_toNativeQuickPcForCatchHandlers`).
Pcs a multiple of `2^32` apart are one pc to `ToDexPc`
(`toDexPc_ok_add_shiftLeft_32`). The abort of
`ToNativeQuickPcForCatchHandlers` names every dex pc of its list, in
order: they are read back from its text (`readCatchMessage_abort`).
-/
import AndroidArt.Printf

namespace AndroidArt.OatQuickMethodHeader

-- ============================================================ inputs

/-- What the functions read of a `StackMap`. -/
structure StackMap where
  isValid : Bool
  row : BitVec 32
  dexPc : BitVec 32
  /-- `GetNativePcOffset(kRuntimeISA)`. -/
  nativePcOffset : BitVec 32
  deriving DecidableEq, Repr

/-- `CodeInfo::DecodeInlineInfoOnly(this)`, through the three lookups the
functions make. -/
structure CodeInfo where
  stackMapForNativePcOffset : BitVec 32 → StackMap
  stackMapForDexPc : BitVec 32 → StackMap
  catchStackMapForDexPc : List (BitVec 32) → StackMap

/-- A method header: where it is, its entry point and its stack maps. -/
structure Header where
  address : BitVec 64
  entryPoint : BitVec 64
  codeInfo : CodeInfo

/-- What the functions read of an `ArtMethod`. -/
structure ArtMethod where
  isNative : Bool
  prettyMethod : List Char
  entryPointFromQuickCompiledCode : BitVec 64

/-- What the runtime fixes once: whether nterp is supported, where its
code is, the size of a header, and nterp's catch handler. -/
structure Runtime where
  isNterpSupported : Bool
  /-- `EntryPointToCodePointer(GetNterpEntryPoint())`. -/
  nterpCodePointer : BitVec 64
  /-- `sizeof(OatQuickMethodHeader)`. -/
  headerSize : BitVec 64
  /-- `NterpGetCatchHandler()`. -/
  nterpCatchHandler : BitVec 64

/-- `dex::kDexNoIndex`. -/
def kDexNoIndex : BitVec 32 := BitVec.allOnes 32

/-- `UINTPTR_MAX`. -/
def uintptrMax : BitVec 64 := BitVec.allOnes 64

-- ============================================================ nterp

/-- `GetNterpMethodHeader()`, the value of `NterpMethodHeader`: the
header right before nterp's code, or null. -/
def getNterpMethodHeader (rt : Runtime) : BitVec 64 :=
  if !rt.isNterpSupported then 0 else rt.nterpCodePointer - rt.headerSize

/-- `IsNterpMethodHeader()`. -/
def isNterpMethodHeader (rt : Runtime) (header : Header) : Bool :=
  if rt.isNterpSupported then header.address == getNterpMethodHeader rt else false

-- ====================================================== conversions

/-- A pointer written with `operator<<`. -/
def formatPointer (p : BitVec 64) : List Char := "0x".toList ++ formatBase 16 p.toNat

/-- `ToDexPc`. `nterpDexPc` is `NterpGetDexPC(frame)`. -/
def toDexPc (rt : Runtime) (header : Header) (method : ArtMethod) (nterpDexPc : BitVec 32)
    (pc : BitVec 64) (abortOnFailure : Bool) : Except (List Char) (BitVec 32) :=
  let soughtOffset : BitVec 32 := (pc - header.entryPoint).setWidth 32
  if method.isNative then .ok kDexNoIndex
  else if isNterpMethodHeader rt header then .ok nterpDexPc
  else
    let stackMap := header.codeInfo.stackMapForNativePcOffset soughtOffset
    if stackMap.isValid then .ok stackMap.dexPc
    else if abortOnFailure then
      .error ("Failed to find Dex offset for PC offset ".toList ++
        formatPointer (soughtOffset.setWidth 64) ++ "(PC ".toList ++ formatPointer pc ++
        ", entry_point=".toList ++ formatPointer header.entryPoint ++
        " current entry_point=".toList ++ formatPointer method.entryPointFromQuickCompiledCode ++
        ") in ".toList ++ method.prettyMethod)
    else .ok kDexNoIndex

/-- `ToNativeQuickPc`. -/
def toNativeQuickPc (header : Header) (method : ArtMethod) (dexPc : BitVec 32)
    (abortOnFailure : Bool) : Except (List Char) (BitVec 64) :=
  let stackMap := header.codeInfo.stackMapForDexPc dexPc
  if stackMap.isValid then .ok (header.entryPoint + stackMap.nativePcOffset.setWidth 64)
  else if abortOnFailure then
    .error ("Failed to find native offset for dex pc 0x".toList ++ formatBase 16 dexPc.toNat ++
      " in ".toList ++ method.prettyMethod)
  else .ok uintptrMax

/-- One turn of the loop that writes `dex_pc_list` into the message:
`first`, and what `ss` holds so far. -/
def writeDexPc (st : Bool × List Char) (dexPc : BitVec 32) : Bool × List Char :=
  (false, st.2 ++ (if !st.1 then ", ".toList else []) ++ "0x".toList ++ formatBase 16 dexPc.toNat)

/-- The loop over `dex_pc_list`, from `first = true`. -/
def writeDexPcs (dexPcList : List (BitVec 32)) : List Char :=
  (dexPcList.foldl writeDexPc (true, [])).2

/-- `ToNativeQuickPcForCatchHandlers`: the pc, and what is written to
`*stack_map_row` (`none` when nothing is). -/
def toNativeQuickPcForCatchHandlers (rt : Runtime) (header : Header) (method : ArtMethod)
    (dexPcList : List (BitVec 32)) (abortOnFailure : Bool) :
    Except (List Char) (BitVec 64 × Option (BitVec 32)) :=
  if isNterpMethodHeader rt header then .ok (rt.nterpCatchHandler, none)
  else
    let stackMap := header.codeInfo.catchStackMapForDexPc dexPcList
    if stackMap.isValid then
      .ok (header.entryPoint + stackMap.nativePcOffset.setWidth 64, some stackMap.row)
    else if abortOnFailure then
      .error ("Failed to find native offset for dex pcs (from outermost to innermost) ".toList ++
        writeDexPcs dexPcList ++ " in ".toList ++ method.prettyMethod)
    else .ok (uintptrMax, some stackMap.row)

-- ======================================================== round trip

/-- The offset `ToDexPc` seeks at a pc `offset` bytes past the entry
point is `offset`, wherever the entry point is. -/
theorem soughtOffset_add (entryPoint : BitVec 64) (offset : BitVec 32) :
    ((entryPoint + offset.setWidth 64) - entryPoint).setWidth 32 = offset := by
  bv_omega

section RoundTrip

variable (rt : Runtime) {header : Header} {method : ArtMethod} (nterpDexPc : BitVec 32)

/-- `ToDexPc` of a compiled method at `offset` bytes past the entry point
reads the stack map found for `offset`. -/
theorem toDexPc_entryPoint_add (hnative : method.isNative = false)
    (hnterp : isNterpMethodHeader rt header = false) (offset : BitVec 32)
    (hmap : (header.codeInfo.stackMapForNativePcOffset offset).isValid = true)
    (abortOnFailure : Bool) :
    toDexPc rt header method nterpDexPc (header.entryPoint + offset.setWidth 64) abortOnFailure =
      .ok (header.codeInfo.stackMapForNativePcOffset offset).dexPc := by
  simp only [toDexPc, soughtOffset_add, hnative, hnterp, hmap, Bool.false_eq_true, if_false, if_true]

/-- A dex pc goes to a pc and back: when the stack map found for the dex
pc is found again at its native offset, with that dex pc. -/
theorem toDexPc_toNativeQuickPc (hnative : method.isNative = false)
    (hnterp : isNterpMethodHeader rt header = false) {dexPc : BitVec 32}
    (hvalid : (header.codeInfo.stackMapForDexPc dexPc).isValid = true)
    (hback : (header.codeInfo.stackMapForNativePcOffset
      (header.codeInfo.stackMapForDexPc dexPc).nativePcOffset).isValid = true)
    (hdex : (header.codeInfo.stackMapForNativePcOffset
      (header.codeInfo.stackMapForDexPc dexPc).nativePcOffset).dexPc = dexPc)
    (abort₁ abort₂ : Bool) :
    (toNativeQuickPc header method dexPc abort₁).bind
      (fun pc => toDexPc rt header method nterpDexPc pc abort₂) = .ok dexPc := by
  simp only [toNativeQuickPc, hvalid, if_true, Except.bind,
    toDexPc_entryPoint_add rt nterpDexPc hnative hnterp _ hback, hdex]

end RoundTrip

/-- Stack maps of a method whose entry point is 16 bytes below `2^64`:
dex pc 5 at native offset `0x20`, so its pc wraps around to `0x10`. -/
def wrappingHeader : Header :=
  let found : StackMap := ⟨true, 0, 5, 0x20⟩
  let notFound : StackMap := ⟨false, 0, kDexNoIndex, 0⟩
  { address := 0x1000, entryPoint := 0xFFFFFFFFFFFFFFF0,
    codeInfo := { stackMapForNativePcOffset := fun o => if o = 0x20 then found else notFound,
                  stackMapForDexPc := fun d => if d = 5 then found else notFound,
                  catchStackMapForDexPc := fun l => if l = [5] then found else notFound } }

/-- A method that is not native. -/
def compiledMethod : ArtMethod := ⟨false, "void A.f()".toList, 0xFFFFFFFFFFFFFFF0⟩

/-- A runtime without nterp. -/
def noNterp : Runtime := ⟨false, 0, 8, 0⟩

theorem toDexPc_toNativeQuickPc_wraps :
    toNativeQuickPc wrappingHeader compiledMethod 5 true = .ok 0x10 ∧
      (toNativeQuickPc wrappingHeader compiledMethod 5 true).bind
        (fun pc => toDexPc noNterp wrappingHeader compiledMethod 0 pc true) = .ok 5 :=
  ⟨rfl, toDexPc_toNativeQuickPc noNterp 0 rfl rfl (by decide) (by decide) (by decide) true true⟩

/-- The pc found for a catch handler goes back to the dex pc of the
stack map it was found with, when the stack map found again at its
native offset is valid and has that dex pc. -/
theorem toDexPc_toNativeQuickPcForCatchHandlers (rt : Runtime) {header : Header}
    {method : ArtMethod} (nterpDexPc : BitVec 32) (hnative : method.isNative = false)
    (hnterp : isNterpMethodHeader rt header = false) {dexPcList : List (BitVec 32)}
    (hvalid : (header.codeInfo.catchStackMapForDexPc dexPcList).isValid = true)
    (hback : (header.codeInfo.stackMapForNativePcOffset
      (header.codeInfo.catchStackMapForDexPc dexPcList).nativePcOffset).isValid = true)
    (hdex : (header.codeInfo.stackMapForNativePcOffset
      (header.codeInfo.catchStackMapForDexPc dexPcList).nativePcOffset).dexPc =
        (header.codeInfo.catchStackMapForDexPc dexPcList).dexPc)
    (abort₁ abort₂ : Bool) :
    (toNativeQuickPcForCatchHandlers rt header method dexPcList abort₁).bind
      (fun r => toDexPc rt header method nterpDexPc r.1 abort₂) =
        .ok (header.codeInfo.catchStackMapForDexPc dexPcList).dexPc := by
  simp only [toNativeQuickPcForCatchHandlers, hnterp, hvalid, Bool.false_eq_true, if_false,
    if_true, Except.bind, toDexPc_entryPoint_add rt nterpDexPc hnative hnterp _ hback, hdex]

theorem toDexPc_toNativeQuickPcForCatchHandlers_wraps :
    (toNativeQuickPcForCatchHandlers noNterp wrappingHeader compiledMethod [5] false).bind
      (fun r => toDexPc noNterp wrappingHeader compiledMethod 0 r.1 false) = .ok 5 :=
  toDexPc_toNativeQuickPcForCatchHandlers noNterp 0 rfl rfl (by decide) (by decide) (by decide)
    false false

/-- `ToDexPc` reads a pc only through its 32-bit offset from the entry
point: pcs a multiple of `2^32` bytes apart find the same dex pc, so
code 4 GiB or more past the entry point is taken for code near it. -/
theorem toDexPc_ok_add_shiftLeft_32 (rt : Runtime) (header : Header) (method : ArtMethod)
    (nterpDexPc : BitVec 32) (pc k : BitVec 64) (abortOnFailure : Bool) (dexPc : BitVec 32) :
    toDexPc rt header method nterpDexPc (pc + (k <<< 32)) abortOnFailure = .ok dexPc ↔
      toDexPc rt header method nterpDexPc pc abortOnFailure = .ok dexPc := by
  have hoffset : (pc + (k <<< 32) - header.entryPoint).setWidth 32 =
      (pc - header.entryPoint).setWidth 32 := by
    bv_omega
  simp only [toDexPc, hoffset]
  cases method.isNative <;> cases isNterpMethodHeader rt header <;>
    cases (header.codeInfo.stackMapForNativePcOffset ((pc - header.entryPoint).setWidth 32)).isValid <;>
    cases abortOnFailure <;> simp only [Bool.false_eq_true, if_false, if_true, reduceCtorEq]

-- ============================================ the catch-handler abort

/-- After the first turn the loop writes `", 0x"` and the digits for
each dex pc. -/
theorem foldl_writeDexPc (dexPcList : List (BitVec 32)) (acc : List Char) :
    dexPcList.foldl writeDexPc (false, acc) =
      (false, acc ++ dexPcList.flatMap fun d => ", 0x".toList ++ formatBase 16 d.toNat) := by
  induction dexPcList generalizing acc with
  | nil => simp
  | cons d ds ih => simp [writeDexPc, ih]

/-- The first dex pc is written without a separator. -/
theorem writeDexPcs_cons (d : BitVec 32) (ds : List (BitVec 32)) :
    writeDexPcs (d :: ds) = "0x".toList ++ formatBase 16 d.toNat ++
      ds.flatMap fun d => ", 0x".toList ++ formatBase 16 d.toNat := by
  simp [writeDexPcs, writeDexPc, foldl_writeDexPc]

/-- Reads the dex pcs back from the list `writeDexPcs` writes: split at
commas, each a hexadecimal number after blanks and `0x`. -/
def readDexPcs (s : List Char) : List Nat :=
  (s.splitOn ',').map fun field => readNat 16 ((field.dropWhile (· == ' ')).drop 2)

/-- Reads the dex pcs back from the text `ToNativeQuickPcForCatchHandlers`
aborts with: after its fixed text, up to the `" in "` in front of the
method's name. -/
def readCatchMessage (msg : List Char) : List Nat :=
  readDexPcs ((msg.drop
    "Failed to find native offset for dex pcs (from outermost to innermost) ".toList.length).takeWhile
      (· != 'i')).dropLast

theorem not_mem_formatBase_hex {c : Char} (hc : isHexDigit c = false) (n : Nat) :
    c ∉ formatBase 16 n := fun h => by
  rw [isHexDigit_of_mem_formatBase (by norm_num) le_rfl h] at hc
  cases hc

/-- Splitting at commas gives back each dex pc's field. -/
theorem splitOn_writeDexPcs (first : List Char) (hfirst : ',' ∉ first) (ds : List (BitVec 32)) :
    (first ++ ds.flatMap fun d => ", 0x".toList ++ formatBase 16 d.toNat).splitOn ',' =
      first :: ds.map fun d => " 0x".toList ++ formatBase 16 d.toNat := by
  have hsep : ∀ {s : List Char}, ',' ∉ s → ∀ c ∈ s, ¬(c == ',') = true :=
    fun hs c hc hcomma => hs (beq_iff_eq.mp hcomma ▸ hc)
  induction ds generalizing first with
  | nil => simpa using List.splitOnP_eq_single _ _ (hsep hfirst)
  | cons d ds ih =>
    have hfield : ',' ∉ " 0x".toList ++ formatBase 16 d.toNat := by
      simpa using not_mem_formatBase_hex (by decide) d.toNat
    rw [List.flatMap_cons, List.map_cons, ← ih _ hfield, List.append_assoc]
    exact List.splitOnP_first _ _ (hsep hfirst) ',' rfl _

theorem readDexPcs_writeDexPcs (d : BitVec 32) (ds : List (BitVec 32)) :
    readDexPcs (writeDexPcs (d :: ds)) = (d :: ds).map BitVec.toNat := by
  have hfirst : ',' ∉ "0x".toList ++ formatBase 16 d.toNat := by
    simpa using not_mem_formatBase_hex (by decide) d.toNat
  rw [readDexPcs, writeDexPcs_cons, splitOn_writeDexPcs _ hfirst]
  simp [readNat_formatBase]

theorem i_not_mem_writeDexPcs (dexPcList : List (BitVec 32)) : 'i' ∉ writeDexPcs dexPcList := by
  cases dexPcList with
  | nil => simp [writeDexPcs]
  | cons d ds =>
    have hd := fun n => not_mem_formatBase_hex (c := 'i') (by decide) n
    rw [writeDexPcs_cons]
    simp [hd]

/-- When no stack map is found for a catch handler, the abort names every
dex pc of the list, in order. -/
theorem readCatchMessage_abort (rt : Runtime) {header : Header} (method : ArtMethod)
    (hnterp : isNterpMethodHeader rt header = false) {dexPcList : List (BitVec 32)}
    (hne : dexPcList ≠ [])
    (hinvalid : (header.codeInfo.catchStackMapForDexPc dexPcList).isValid = false) :
    ∃ msg, toNativeQuickPcForCatchHandlers rt header method dexPcList true = .error msg ∧
      readCatchMessage msg = dexPcList.map BitVec.toNat := by
  obtain ⟨d, ds, rfl⟩ := List.exists_cons_of_ne_nil hne
  simp only [toNativeQuickPcForCatchHandlers, hnterp, hinvalid, Bool.false_eq_true, if_false,
    if_true, Except.error.injEq, exists_eq_left']
  have hi := i_not_mem_writeDexPcs (d :: ds)
  rw [readCatchMessage, List.append_assoc, List.append_assoc, List.drop_left,
    List.takeWhile_append_of_pos (fun c hc => bne_iff_ne.mpr (ne_of_mem_of_not_mem hc hi)),
    show (" in ".toList ++ method.prettyMethod).takeWhile (· != 'i') = [' '] from rfl,
    List.dropLast_concat, readDexPcs_writeDexPcs]

theorem readCatchMessage_abort_two :
    ∃ msg, toNativeQuickPcForCatchHandlers noNterp wrappingHeader compiledMethod [5, 0x1f] true =
      .error msg ∧ readCatchMessage msg = [5, 31] :=
  readCatchMessage_abort noNterp compiledMethod rfl (by decide) (by decide)

end AndroidArt.OatQuickMethodHeader
