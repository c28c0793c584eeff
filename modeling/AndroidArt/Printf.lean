/-
The number conversions of `printf`, `fmt` and `operator<<` that the
modelled code writes paths and stack dumps with, and how a reader gets
the numbers back.

# Conversions

An unsigned integer is written in base 10 or 16 (`%zu`, `PRIx64`, `{}`,
`<<`) with its digits most significant first and lowercase letters
(`formatBase`), a signed one with a minus sign in front when negative
(`formatDecimal`); a field width with the `0` flag pads with zeros on
the left (`zeroPad`). A `const char*` written with `<<` stops at its
first `'\0'` (`cString`).

# Reading back

`readNat` reads digits back, most significant first, as `strtoul` does.
It inverts `formatBase` in every base from 2 to 16, with or without
zeros in front (`readNat_zeroPad_formatBase`), so `formatBase` is
injective there.
-/
import Mathlib.Data.Nat.Digits

namespace AndroidArt

-- ===================================================== conversions

/-- An unsigned integer in base `b`, most significant digit first, in
lowercase. -/
def formatBase (b n : Nat) : List Char :=
  if n = 0 then ['0'] else (Nat.digits b n).reverse.map Nat.digitChar

/-- A signed integer in decimal (`fmt`'s `{}` and `operator<<` of an
`int`): a minus sign when negative, then the digits of the magnitude. -/
def formatDecimal (v : Int) : List Char :=
  (if v < 0 then ['-'] else []) ++ formatBase 10 v.natAbs

/-- The `0` flag with field width `w`: zeros on the left up to `w`
characters. -/
def zeroPad (w : Nat) (s : List Char) : List Char :=
  List.replicate (w - s.length) '0' ++ s

/-- A `const char*` written with `operator<<`: the text up to its first
`'\0'`. -/
def cString (s : List Char) : List Char := s.takeWhile (· != '\x00')

/-- The value of a decimal digit or of a lowercase hexadecimal letter. -/
def digitValue (c : Char) : Nat :=
  if c.isDigit then c.toNat - '0'.toNat else c.toNat - 'a'.toNat + 10

/-- A character `strtoul` reads as a digit in base 16. -/
def isHexDigit (c : Char) : Bool := c.isDigit || ('a' ≤ c && c ≤ 'f')

/-- Digits in base `b`, most significant first. -/
def readNat (b : Nat) (s : List Char) : Nat :=
  s.foldl (fun acc c => acc * b + digitValue c) 0

-- ========================================================== digits

theorem digitValue_digitChar : ∀ d : Fin 16, digitValue (Nat.digitChar d) = d := by
  decide

theorem isDigit_digitChar : ∀ d : Fin 10, (Nat.digitChar d).isDigit = true := by
  decide

theorem isHexDigit_digitChar : ∀ d : Fin 16, isHexDigit (Nat.digitChar d) = true := by
  decide

theorem formatBase_ne_nil (b n : Nat) : formatBase b n ≠ [] := by
  unfold formatBase
  split
  · simp
  · next h => simpa using Nat.digits_ne_nil_iff_ne_zero.mpr h

/-- A number below the base is one digit. -/
theorem formatBase_of_lt {b n : Nat} (hn : n ≠ 0) (hb : n < b) :
    formatBase b n = [Nat.digitChar n] := by
  simp [formatBase, hn, Nat.digits_of_lt b n hn hb]

/-- Every character written is the digit of some `d < b`. -/
theorem mem_formatBase {b n : Nat} (hb : 1 < b) {c : Char} (hc : c ∈ formatBase b n) :
    ∃ d < b, c = Nat.digitChar d := by
  unfold formatBase at hc
  split at hc
  · exact ⟨0, by omega, by simpa using hc⟩
  · obtain ⟨d, hd, rfl⟩ := List.mem_map.mp hc
    exact ⟨d, Nat.digits_lt_base hb (List.mem_reverse.mp hd), rfl⟩

/-- A number written in a base up to 16 holds only hexadecimal digits, so
no separator, space or newline. -/
theorem isHexDigit_of_mem_formatBase {b n : Nat} (hb : 1 < b) (hb16 : b ≤ 16) {c : Char}
    (hc : c ∈ formatBase b n) : isHexDigit c = true := by
  obtain ⟨d, hd, rfl⟩ := mem_formatBase hb hc
  exact isHexDigit_digitChar ⟨d, by omega⟩

-- ===================================================== reading back

private theorem foldl_reverse_ofDigits (b : Nat) (L : List Nat) (acc : Nat) :
    L.reverse.foldl (fun acc d => acc * b + d) acc = acc * b ^ L.length + Nat.ofDigits b L := by
  induction L generalizing acc with
  | nil => simp [Nat.ofDigits]
  | cons d L ih =>
    rw [List.reverse_cons, List.foldl_append, ih, List.foldl_cons, List.foldl_nil,
      Nat.ofDigits_cons, List.length_cons, Nat.pow_succ]
    rw [Nat.add_mul, Nat.mul_assoc, Nat.mul_comm (Nat.ofDigits b L) b]
    omega

private theorem foldl_digitValue (b : Nat) (L : List Nat) (hL : ∀ d ∈ L, d < 16) (acc : Nat) :
    (L.map Nat.digitChar).foldl (fun acc c => acc * b + digitValue c) acc =
      L.foldl (fun acc d => acc * b + d) acc := by
  induction L generalizing acc with
  | nil => rfl
  | cons d L ih =>
    have hd := digitValue_digitChar ⟨d, hL d (List.mem_cons_self d L)⟩
    simp only [List.map_cons, List.foldl_cons]
    rw [hd, ih (fun d' hd' => hL d' (List.mem_cons_of_mem d hd'))]

theorem readNat_formatBase {b : Nat} (hb : 1 < b) (hb16 : b ≤ 16) (n : Nat) :
    readNat b (formatBase b n) = n := by
  unfold readNat formatBase
  split
  · simp [digitValue, *]
  · rw [foldl_digitValue b _ (fun d hd => by
        have := Nat.digits_lt_base hb (List.mem_reverse.mp hd); omega),
      foldl_reverse_ofDigits, Nat.ofDigits_digits]
    simp

/-- Zeros in front do not change what is read. -/
theorem readNat_zeros (b k : Nat) (s : List Char) :
    readNat b (List.replicate k '0' ++ s) = readNat b s := by
  have h : ∀ k, (List.replicate k '0').foldl (fun acc c => acc * b + digitValue c) 0 = 0 := by
    intro k
    induction k with
    | zero => rfl
    | succ k ih => rw [List.replicate_succ', List.foldl_append, ih]; simp [digitValue]
  rw [readNat, List.foldl_append, h]
  rfl

theorem readNat_zeroPad_formatBase {b : Nat} (hb : 1 < b) (hb16 : b ≤ 16) (w n : Nat) :
    readNat b (zeroPad w (formatBase b n)) = n := by
  rw [zeroPad, readNat_zeros, readNat_formatBase hb hb16]

theorem formatBase_injective {b : Nat} (hb : 1 < b) (hb16 : b ≤ 16) :
    Function.Injective (formatBase b) := fun n m h => by
  rw [← readNat_formatBase hb hb16 n, h, readNat_formatBase hb hb16 m]

end AndroidArt
