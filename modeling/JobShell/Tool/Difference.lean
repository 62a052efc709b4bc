import JobShell.Text.Decimal
import JobShell.Tool.Basic

/-!
# The first difference

`cmp` compares two inputs byte by byte, and tells where they begin to differ,
or everywhere they do.
-/

namespace JobShell.Tool

open Machine (Action FileKind)

namespace Difference

/-- A byte of two inputs that is not the same, with its number. -/
structure Pair where
  number : Nat
  first : UInt8
  second : UInt8

/-- All differences of two inputs from the byte `number` on, and the length
they have in common. -/
def pairs : (number : Nat) → Bytes → Bytes → List Pair
  | _, [], _ | _, _, [] => []
  | number, a :: as, b :: bs =>
    if a = b then pairs (number + 1) as bs else ⟨number, a, b⟩ :: pairs (number + 1) as bs

/-- A byte in octal digits, three characters wide. -/
def octal (b : UInt8) : String :=
  let digits := String.ofList (Nat.toDigits 8 b.toNat)
  "".pushn ' ' (3 - digits.length) ++ digits

/-- A byte as a character that can be seen. -/
def visible (b : UInt8) : String :=
  let plain (n : Nat) : String :=
    if n < 32 then "^" ++ (Char.ofNat (n + 64)).toString
    else if n = 127 then "^?" else (Char.ofNat n).toString
  if b.toNat < 128 then plain b.toNat else "M-" ++ plain (b.toNat - 128)

/-- The line about a difference. The number is `width` characters wide. -/
def Pair.line (p : Pair) (width : Nat) (characters : Bool) : String :=
  let number := toString p.number
  let first := octal p.first
  let second := octal p.second
  let start := "".pushn ' ' (width - number.length) ++ number
  if characters then
    let shown := visible p.first
    s!"{start} {first} {shown}" ++ "".pushn ' ' (4 - shown.length) ++ s!" {second} " ++
      visible p.second
  else s!"{start} {first} {second}"

end Difference

/-- Ends a `cmp` that was called wrongly. -/
def refuseComparison (i : Invocation) (text : String) : Action α := do
  complainAs i.name text
  complainAs i.name s!"Try '{i.name} --help' for more information."
  Action.exit 2

/-- Tells where two inputs differ. -/
def cmp (i : Invocation) : Action Unit := do
  let table : OptionTable := {
    flags := "bcls", valued := "in",
    long := [("print-bytes", 'b'), ("print-chars", 'c'), ("ignore-initial", 'i'),
      ("verbose", 'l'), ("bytes", 'n'), ("quiet", 's'), ("silent", 's')] }
  let (options, operands) ← match readOptions table false (i.arguments.length + 1) i.arguments with
    | .ok result => pure result
    | .error text => refuseComparison i text
  let isVerbose := hasOption options 'l'
  let isSilent := hasOption options 's'
  if isVerbose && isSilent then refuseComparison i "options -l and -s are incompatible"
  let skip (text : String) : Action Nat := do
    match Text.readNat? text with
    | some n => return n
    | none => refuseComparison i s!"invalid --ignore-initial value {Quoted.always text}"
  let (first, second, skips) ← match operands with
    | [] => refuseComparison i s!"missing operand after {Quoted.always i.name}"
    | [first] => pure (first, "-", [])
    | [first, second] => pure (first, second, [])
    | [first, second, skip] => pure (first, second, [skip])
    | [first, second, skip, other] => pure (first, second, [skip, other])
    | _ :: _ :: first :: second :: extra :: _ =>
      let _ ← skip first
      let _ ← skip second
      refuseComparison i s!"extra operand {Quoted.always extra}"
  let skips := match optionValue? options 'i' with
    | some text => text.splitOn ":"
    | none => skips
  let skips ← skips.mapM skip
  let firstSkip := skips.headD 0
  let secondSkip := (skips[1]?).getD (if hasOption options 'i' then firstSkip else 0)
  let limit ← match optionValue? options 'n' with
    | none => pure none
    | some text =>
      match Text.readNat? text with
      | some n => pure (some n)
      | none => refuseComparison i s!"invalid --bytes value {Quoted.always text}"
  let openOne (operand : String) : Action Fd := do
    match ← openInput operand with
    | .ok fd => return fd
    | .error cause =>
      if !isSilent then complainAs i.name (operand ++ ": " ++ errorWords cause)
      Action.exit 2
  let a ← openOne first
  let b ← openOne second
  let sizeOf (fd : Fd) (skipped : Nat) : Action (Option Nat) := do
    match ← Action.factsOf fd with
    | .ok facts => return if facts.kind = .regular then some (facts.size - skipped) else none
    | .error _ => return none
  let sizes := [← sizeOf a firstSkip, ← sizeOf b secondSkip, limit].filterMap id
  let width := (toString (sizes.min?.getD (2 ^ 63 - 1))).length
  let readOne (operand : String) (fd : Fd) (skipped : Nat) : Action Bytes := do
    match ← Action.readAll fd with
    | .ok data =>
      let data := data.drop skipped
      return match limit with
        | some n => data.take n
        | none => data
    | .error cause =>
      complainAs i.name (operand ++ ": " ++ errorWords cause)
      Action.exit 2
  let left ← readOne first a firstSkip
  let right ← readOne second b secondSkip
  let pairs := Difference.pairs 1 left right
  let hasCharacters := hasOption options 'b' || hasOption options 'c'
  let common := min left.length right.length
  if isSilent then Action.exit (if pairs.isEmpty && left.length = right.length then 0 else 1)
  if isVerbose then
    say i.name (joinLines (pairs.map (·.line width hasCharacters))) 2
  else if let some p := pairs.head? then
    let line := (left.take (p.number - 1)).count 10 + 1
    let word := if hasCharacters then "byte" else "char"
    let bytes :=
      if hasCharacters then
        " is " ++ Difference.octal p.first ++ " " ++ Difference.visible p.first ++ " " ++
          Difference.octal p.second ++ " " ++ Difference.visible p.second
      else ""
    say i.name (s!"{first} {second} differ: {word} {p.number}, line {line}" ++ bytes ++ "\n") 2
    Action.exit 1
  if left.length ≠ right.length then
    let shorter := if left.length < right.length then first else second
    let lines := (left.take common).count 10
    let place :=
      if isVerbose then ""
      else if (left.take common).getLast? = some 10 then s!", line {lines}"
      else s!", in line {lines + 1}"
    complainAs i.name (if common = 0 then s!"EOF on {shorter} which is empty"
      else s!"EOF on {shorter} after byte {common}" ++ place)
    Action.exit 1
  Action.exit (if pairs.isEmpty then 0 else 1)

end JobShell.Tool
