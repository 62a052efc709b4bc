import JobShell.Numbers

/-!
# Reading decimal numbers

A number is an optional sign and at least one ASCII digit, and has to lie in
the range of the type that is read. Reading goes from left to right, so of
two faults the one further left is reported.
-/

namespace JobShell.Text

/-- Why a text is no number of the wanted range. -/
inductive DecimalFault
  | empty
  | invalidDigit
  | tooLarge
  | tooSmall
  deriving DecidableEq, Repr

/-- The wording of a fault. -/
def DecimalFault.message : DecimalFault → String
  | empty => "cannot parse integer from empty string"
  | invalidDigit => "invalid digit found in string"
  | tooLarge => "number too large to fit in target type"
  | tooSmall => "number too small to fit in target type"

/-- Appends the digits `cs` to a number that is read downwards (`negative`)
or upwards, while it stays between `low` and `high`. -/
def readDigits (low high : Int) (negative : Bool) : Int → List Char → Except DecimalFault Int
  | n, [] => .ok n
  | n, c :: cs =>
    if c.isDigit then
      let digit : Int := (c.toNat - '0'.toNat : Nat)
      if negative then
        if n * 10 - digit < low then .error .tooSmall
        else readDigits low high negative (n * 10 - digit) cs
      else if high < n * 10 + digit then .error .tooLarge
      else readDigits low high negative (n * 10 + digit) cs
    else .error .invalidDigit

/-- The number between `low` and `high` that `cs` denotes. A minus sign is a
sign only where the range has negative numbers. -/
def readDecimal (low high : Int) : List Char → Except DecimalFault Int
  | [] => .error .empty
  | '+' :: cs => if cs = [] then .error .invalidDigit else readDigits low high false 0 cs
  | '-' :: cs =>
    if cs = [] ∨ 0 ≤ low then .error .invalidDigit else readDigits low high true 0 cs
  | cs => readDigits low high false 0 cs

/-- Reads a signed 32-bit number. -/
def readInt32 (s : String) : Except DecimalFault Int :=
  readDecimal (-2 ^ 31) (2 ^ 31 - 1) s.toList

/-- Reads an unsigned 64-bit number. -/
def readNat64 (s : String) : Except DecimalFault Nat :=
  (readDecimal 0 (2 ^ 64 - 1) s.toList).map Int.toNat

/-! ## Numbers of any size -/

/-- The number that digits denote. -/
def natOfDigits (digits : List Char) : Nat :=
  digits.foldl (fun n c => n * 10 + (c.toNat - '0'.toNat)) 0

/-- The number that a text of digits denotes. -/
def readNat? (text : String) : Option Nat :=
  let cs := text.toList
  if cs ≠ [] ∧ cs.all Char.isDigit then some (natOfDigits cs) else none

/-- The number that a text denotes; blanks and a sign may stand in front of
the digits. -/
def readInt? (text : String) : Option Int :=
  let blank (c : Char) : Bool := c = ' ' || ('\t' ≤ c && c ≤ '\r')
  let number (cs : List Char) : Option Int :=
    (readNat? (String.ofList cs)).map fun n => (n : Int)
  match text.toList.dropWhile blank with
  | '-' :: cs => (number cs).map fun n => -n
  | '+' :: cs => number cs
  | cs => number cs

end JobShell.Text
