import JobShell.Tool.Format

/-!
# Ranges of numbers

The program that prints the numbers of a range. Numbers are decimal
fractions, and are added without rounding; how they are shown follows from
how the arguments are written.
-/

namespace JobShell.Tool.Range

open Machine (Action)
open Text (Floating FloatFormat)

/-- A number as an argument: its value is `units` divided by ten to the
`places`. -/
structure Operand where
  units : Int
  places : Nat
  /-- How many digits it is shown with behind the point. -/
  precision : Nat := 0
  /-- How many characters it is shown with. -/
  width : Nat := 1

/-- The number one. -/
def Operand.one : Operand := ⟨1, 0, 0, 1⟩

/-- An argument that a range begins or goes on with. -/
inductive Bound
  | number (n : Operand)
  | infinite (negative : Bool)
  | notANumber

/-- A number written with decimal digits, behind its sign. -/
def Operand.ofDigits (negative : Bool) (body : List Char) : Operand :=
  let (whole, fraction, rest) := Floating.spanDigits Char.isDigit body
  let exponent := (Floating.spanExponent 'e' rest).1
  let digits : Int := Floating.digitsValue 10 (whole ++ fraction)
  let power := exponent - fraction.length
  let sign := if negative then 1 else 0
  let point := if fraction = [] then 0 else fraction.length + 1
  { units := (if negative then -digits else digits) * 10 ^ power.toNat
    places := (-power).toNat
    precision := (-power).toNat
    width := (sign + max whole.length 1 + point + exponent : Int).toNat }

/-- A number with a significand and an exponent of two. -/
def Operand.ofBinary (negative : Bool) (significand : Nat) (exponent : Int) : Operand :=
  let size : Int := significand
  let places := (-exponent).toNat
  { units := (if negative then -size else size) * 2 ^ exponent.toNat * 5 ^ places
    places, width := 0 }

/-- Reads an argument. -/
def readBound (text : String) : Option Bound :=
  let body := text.toList.dropWhile fun c => Format.isBlank c || c = '+' || c = '-'
  match Floating.read? .extended text.toList with
  | none | some (_, _, _ :: _) => none
  | some (.notANumber _, _, []) => some .notANumber
  | some (.infinite negative, _, []) => some (.infinite negative)
  | some (.finite negative significand exponent, _, []) =>
    if body.any fun c => c = 'x' || c = 'X' then
      some (.number (.ofBinary negative significand exponent))
    else some (.number (.ofDigits negative body))

/-- The range: a first number, what is added, how many numbers there are if
they end, and how they are shown. -/
structure Plan where
  first : Int
  step : Int
  places : Nat
  count : Option Nat
  precision : Nat
  /-- Zeros are put in front up to this width. -/
  width : Nat := 0
  format : Option String := none

/-- A number of a range as it is shown. -/
def Plan.show (p : Plan) (k : Nat) : String :=
  let n := p.first + p.step * k
  match p.format with
  | some format =>
    let value := (Floating.ofFraction .extended (n < 0) n.natAbs (10 ^ p.places)).1
    String.ofList ((Format.pieces .program (format.length + 1) format.toList).flatMap fun
      | .text cs => cs
      | .conversion flags width precision letter =>
        let given : Format.Measure → Option Nat
          | .written n => some n
          | _ => none
        Format.showFloating .program flags ((given width).getD 0) (given precision) letter value
      | _ => [])
  | none =>
    let scaled := Text.roundDiv (n.natAbs * 10 ^ p.precision) (10 ^ p.places)
    let digits := Floating.paddedDigits (p.precision + 1) scaled
    let front := digits.take (digits.length - p.precision)
    let body := front ++ Floating.pointed false (digits.drop front.length)
    String.ofList
      (Format.padNumber ['0'] p.width true (if n < 0 then ['-'] else []) body)

/-- The plan of a range. -/
def Plan.ofBounds (first step : Operand) (last : Bound) (equalWidth : Bool)
    (format : Option String) : Plan :=
  let lastNumber := match last with
    | .number n => n
    | _ => .one
  let places := max (max first.places step.places) lastNumber.places
  let scaled (n : Operand) : Int := n.units * 10 ^ (places - n.places)
  let start := scaled first
  let by_ := scaled step
  let count := match last with
    | .number n =>
      if by_ = 0 then some 0
      else some ((Int.fdiv (scaled n - start) by_ + 1).toNat)
    | .infinite negative => if negative = decide (by_ < 0) then none else some 0
    | .notANumber => some 0
  let precision := max first.precision step.precision
  let room (n : Operand) : Nat :=
    n.width + precision - n.precision + (if n.precision = 0 ∧ 0 < precision then 1 else 0)
  let lastRoom :=
    if precision = 0 ∧ 0 < lastNumber.precision then room lastNumber - 1 else room lastNumber
  let width := if equalWidth then max (room first) lastRoom else 0
  { first := start, step := by_, places, count, precision, width, format }

/-- Why a format can not be used, if it can not. -/
def formatFault? (format : String) : Option String :=
  let quoted := Quoted.plain format
  let conversions := (Format.pieces .program (format.length + 1) format.toList).filterMap fun
    | .conversion _ _ _ letter => some (some letter)
    | .refused .. => some none
    | _ => none
  match conversions with
  | [] => some s!"format {quoted} has no % directive"
  | [some letter] =>
    if Format.floatingLetters.contains letter then none
    else some s!"format {quoted} has unknown %{letter} directive"
  | [none] => some s!"format {quoted} ends in %"
  | _ => some s!"format {quoted} has too many % directives"

/-- Prints the numbers of a plan, some at a time. -/
def Plan.print (p : Plan) (name separator : String) : (blocks : Nat) → (k : Nat) → Action Unit
  | 0, _ => return ()
  | blocks + 1, k => do
    let last := p.count.all (· ≤ k + 1000)
    let size := match p.count with
      | some count => min 1000 (count - k)
      | none => 1000
    let texts := (List.range size).map fun j => p.show (k + j)
    if texts ≠ [] then
      say name (separator.intercalate texts ++ if last then "\n" else separator)
    if last then return () else Plan.print p name separator blocks (k + 1000)

/-- The arguments in front of the first negative number, and the rest. -/
def splitNegative (arguments : List String) : List String × List String :=
  arguments.span fun argument =>
    match argument.toList with
    | '-' :: c :: _ => !(c.isDigit || c = '.')
    | _ => true

end Range

open Machine (Action)
open Range (Plan Operand Bound readBound)

/-- Prints the numbers of a range. -/
def seq (i : Invocation) : Action Unit := do
  let (front, back) := Range.splitNegative i.arguments
  let (options, operands) ← { i with arguments := front }.options
    { flags := "w", valued := "fs",
      long := [("equal-width", 'w'), ("format", 'f'), ("separator", 's')] } 1 true
  let operands := operands ++ back
  let format := optionValue? options 'f'
  let equalWidth := hasOption options 'w'
  if operands = [] then misused i "missing operand"
  else if 3 < operands.length then
    misused i ("extra operand " ++ Quoted.plain ((operands.drop 3).headD ""))
  else
    if let some fault := format.bind Range.formatFault? then die i.name fault
    if format.isSome && equalWidth then
      misused i "format string may not be specified when printing equal width strings"
    let read (text : String) : Action Bound := do
      match readBound text with
      | none => misused i ("invalid floating point argument: " ++ Quoted.plain text)
      | some .notANumber => misused i ("invalid 'not-a-number' argument: " ++ Quoted.plain text)
      | some bound => return bound
    let number (bound : Bound) : Operand := match bound with
      | .number n => n
      | _ => .one
    let (first, step, last) : Operand × Operand × Bound ← match operands with
      | [last] => pure (Operand.one, Operand.one, ← read last)
      | [first, last] => pure (number (← read first), Operand.one, ← read last)
      | first :: step :: last :: _ => do
        let first ← read first
        match ← read step with
        | .number ⟨0, _, _, _⟩ => misused i ("invalid Zero increment value: " ++ Quoted.plain step)
        | step => pure (number first, number step, ← read last)
      | [] => pure (Operand.one, Operand.one, Bound.notANumber)
    let plan := Plan.ofBounds first step last equalWidth format
    plan.print i.name ((optionValue? options 's').getD "\n") Action.manyTimes 0

end JobShell.Tool
