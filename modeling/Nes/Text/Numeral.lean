/-!
# Fixed-width numerals

Registers and addresses are shown in a fixed number of digits, in base sixteen or base two.  A
numeral is first a list of digit values, most significant digit first; rendering only picks a
character for each digit.

## Main definitions

* `digits base width n`: the last `width` digits of `n` in base `base`.
* `ofDigits base ds`: the number that digits stand for.
* `hex width n`, `binary width n`: the same digits as text.
-/

namespace Nes.Numeral

/-- The last `width` digits of `n` in base `base`, most significant first. -/
def digits (base : Nat) : (width n : Nat) → List Nat
  | 0, _ => []
  | width + 1, n => digits base width (n / base) ++ [n % base]

/-- The number that a list of digits stands for, most significant digit first. -/
def ofDigits (base : Nat) (ds : List Nat) : Nat :=
  ds.foldl (fun acc d => acc * base + d) 0

/-- The upper-case character of a digit below sixteen. -/
def digitChar (d : Nat) : Char :=
  if d < 10 then Char.ofNat ('0'.toNat + d) else Char.ofNat ('A'.toNat + (d - 10))

/-- The last `width` hexadecimal digits of `n`, in upper case. -/
def hex (width n : Nat) : String :=
  String.ofList ((digits 16 width n).map digitChar)

/-- The last `width` binary digits of `n`. -/
def binary (width n : Nat) : String :=
  String.ofList ((digits 2 width n).map digitChar)

/-- A byte as two hexadecimal digits. -/
def hexByte (b : UInt8) : String := hex 2 b.toNat

/-- A sixteen-bit word as four hexadecimal digits. -/
def hexWord (w : UInt16) : String := hex 4 w.toNat

end Nes.Numeral
