/-!
# Reading a count

A count on the command line is a decimal number of sixty-four bits: an optional plus sign and then
at least one decimal digit.  The text is read from left to right and the first fault is reported,
so a count that is already too large before a wrong character is met is too large.

## Main definitions

* `Count.parse`: the number, or the first fault.
* `Count.Fault`: the three faults and their wording.
-/

namespace Nes.Count

/-- What is wrong with a text that is not a count. -/
inductive Fault
  /-- The text has no characters. -/
  | empty
  /-- A character is not a decimal digit, or nothing follows the sign. -/
  | invalidDigit
  /-- The digits read so far exceed sixty-four bits. -/
  | tooLarge
  deriving DecidableEq, Repr

/-- The wording of a fault. -/
def Fault.message : Fault → String
  | .empty => "cannot parse integer from empty string"
  | .invalidDigit => "invalid digit found in string"
  | .tooLarge => "number too large to fit in target type"

/-- The first number that does not fit. -/
def bound : Nat := UInt64.size

/-- Appends the digits of a text to the number `acc` read so far. -/
def appendDigits (acc : Nat) : List Char → Except Fault Nat
  | [] => .ok acc
  | c :: rest =>
    if c.isDigit then
      let acc := acc * 10 + (c.toNat - '0'.toNat)
      if acc < bound then appendDigits acc rest else .error .tooLarge
    else .error .invalidDigit

/-- The count that a list of characters spells.  A lone plus sign is a wrong digit, not a missing
number. -/
def parseChars : List Char → Except Fault Nat
  | [] => .error .empty
  | ['+'] => .error .invalidDigit
  | '+' :: digits => appendDigits 0 digits
  | digits => appendDigits 0 digits

/-- The count that a text spells. -/
def parse (text : String) : Except Fault Nat := parseChars text.toList

end Nes.Count
