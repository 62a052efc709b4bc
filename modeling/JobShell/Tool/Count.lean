import JobShell.Text.Decimal

/-!
# Counts with a unit

Numbers as options of programs: digits, and a letter that multiplies them.
-/

namespace JobShell.Tool

/-- Why a text is no count. -/
inductive CountFault
  | malformed
  | tooLarge
  deriving DecidableEq, Repr

/-- The power of the base that a letter stands for. -/
def unitPower? (c : Char) : Option Nat :=
  match c with
  | 'k' | 'K' => some 1
  | 'm' | 'M' => some 2
  | 'g' | 'G' => some 3
  | 't' | 'T' => some 4
  | 'P' => some 5
  | 'E' => some 6
  | 'Z' => some 7
  | 'Y' => some 8
  | 'R' => some 9
  | 'Q' => some 10
  | _ => none

/-- What the letters behind a number multiply it by. A unit is a power of
1024, or one of 1000 if a `B` follows. -/
def unitOf? (letters : String) : List Char → Option Nat
  | [] => some 1
  | c :: rest =>
    if !letters.contains c then none
    else if c = 'b' then if rest = [] then some 512 else none
    else
      match unitPower? c, rest with
      | some power, [] | some power, ['i', 'B'] => some (1024 ^ power)
      | some power, ['B'] => some (1000 ^ power)
      | _, _ => none

/-- A count whose unit is one of `letters`. -/
def readCount (letters text : String) : Except CountFault Nat :=
  let cs := match text.toList.dropWhile fun c => c = ' ' || c = '\t' with
    | '+' :: rest => rest
    | rest => rest
  let (digits, rest) := cs.span Char.isDigit
  match digits, unitOf? letters rest with
  | [], _ | _, none => .error .malformed
  | digits, some unit =>
    let n := Text.natOfDigits digits * unit
    if n < 2 ^ 64 then .ok n else .error .tooLarge

/-- What follows a complaint about a count. -/
def CountFault.words : CountFault → String
  | malformed => ""
  | tooLarge => ": Value too large for defined data type"

end JobShell.Tool
