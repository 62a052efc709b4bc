import JobShell.Text.Decimal
import JobShell.Text.Regex.Reader
import JobShell.Tool.Basic

/-!
# Values of expressions

`expr` prints the value of an expression, each token of which is an argument.
Values are texts; those that look like whole numbers are calculated with and
compared as numbers. The operators are left-associative and have six levels.
-/

namespace JobShell.Tool

open Machine (Action)
open Text (Regex)

namespace Calculation

/-- The value of an expression. -/
inductive Value
  | number (n : Int)
  | text (s : String)
  deriving DecidableEq, Repr

/-- The number that a value stands for, if it is written as one. -/
def Value.number? : Value → Option Int
  | .number n => some n
  | .text s =>
    match s.toList with
    | '-' :: digits => (Text.readNat? (String.ofList digits)).map fun n => -Int.ofNat n
    | _ => (Text.readNat? s).map Int.ofNat

/-- A value as it is printed. -/
def Value.render : Value → String
  | .number n => toString n
  | .text s => s

/-- Whether a value is empty or zero. -/
def Value.isNull : Value → Bool
  | .number n => n = 0
  | .text s =>
    match s.toList with
    | [] => true
    | '-' :: c :: cs | c :: cs => (c :: cs).all (· = '0')

/-- A truth value. -/
def Value.ofBool (b : Bool) : Value := .number (if b then 1 else 0)

/-- Why an expression has no value. -/
inductive Fault
  | nonInteger
  | divisionByZero
  | missingArgument (before : String)
  | unexpectedArgument (argument : String)
  | unexpectedParenthesis
  /-- Nothing, or something else, stands where a parenthesis should close. -/
  | unclosed (before : String) (found : Option String)
  | pattern (reason : String)

/-- The wording of a fault. -/
def Fault.message : Fault → String
  | nonInteger => "non-integer argument"
  | divisionByZero => "division by zero"
  | missingArgument before => s!"syntax error: missing argument after {Quoted.plain before}"
  | unexpectedArgument argument => s!"syntax error: unexpected argument {Quoted.plain argument}"
  | unexpectedParenthesis => "syntax error: unexpected ')'"
  | unclosed before none => s!"syntax error: expecting ')' after {Quoted.plain before}"
  | unclosed _ (some found) => s!"syntax error: expecting ')' instead of {Quoted.plain found}"
  | pattern reason => reason

/-! ## Operators -/

/-- The operators of a level; those of higher levels bind more strongly. -/
def operatorsOf : (level : Nat) → List String
  | 0 => ["|"]
  | 1 => ["&"]
  | 2 => ["<", "<=", "=", "==", "!=", ">=", ">"]
  | 3 => ["+", "-"]
  | 4 => ["*", "/", "%"]
  | _ => [":"]

/-- The level of operands. -/
def operandLevel : Nat := 6

/-- Applies an arithmetic operator. -/
def calculate (operator : String) (a b : Value) : Except Fault Value :=
  match a.number?, b.number? with
  | some a, some b =>
    match operator with
    | "+" => .ok (.number (a + b))
    | "-" => .ok (.number (a - b))
    | "*" => .ok (.number (a * b))
    | _ =>
      if b = 0 then .error .divisionByZero
      else .ok (.number (if operator = "/" then a.tdiv b else a.tmod b))
  | _, _ => .error .nonInteger

/-- Compares two values, as numbers if both are. -/
def compareValues (operator : String) (a b : Value) : Value :=
  let order : Ordering := match a.number?, b.number? with
    | some a, some b => compare a b
    | _, _ => compare a.render b.render
  .ofBool (match operator with
    | "<" => order.isLT
    | "<=" => order.isLE
    | ">" => order.isGT
    | ">=" => order.isGE
    | "!=" => order.isNe
    | _ => order.isEq)

/-- What a pattern finds at the beginning of a text: its first group, or how
long the match is if it has none. -/
def matchValue (text pattern : Value) : Except Fault Value :=
  match Regex.read {} pattern.render with
  | .error fault => .error (.pattern fault.message)
  | .ok source =>
    let subject : Text.Subject := { text := text.render.toList.toArray }
    let found := (source.regex.endsAt subject 0).getLast?
    if source.groups = 0 then .ok (.number (found.getD 0))
    else
      let groups := (found.bind (source.regex.groupsBetween subject 0)).getD []
      match groups.find? fun (number, _) => number = 1 with
      | some (_, start, finish) => .ok (.text (String.ofList (subject.slice start finish)))
      | none => .ok (.text "")

/-- Applies an operator that needs both operands. -/
def apply (operator : String) (a b : Value) : Except Fault Value :=
  if operator = ":" then matchValue a b
  else if (operatorsOf 2).contains operator then .ok (compareValues operator a b)
  else calculate operator a b

/-- A part of a text: `count` characters from the place `start`, which begins
at one. -/
def part (text start count : Value) : Value :=
  match start.number?, count.number? with
  | some start, some count =>
    if start ≤ 0 ∨ count ≤ 0 then .text ""
    else .text (String.ofList ((text.render.toList.drop (start.toNat - 1)).take count.toNat))
  | _, _ => .text ""

/-- The place of the first character of a text that is one of some, or zero. -/
def placeOf (text characters : Value) : Value :=
  let cs := text.render.toList
  match cs.findIdx? characters.render.toList.contains with
  | some k => .number (k + 1)
  | none => .number 0

/-! ## Expressions -/

/-- Where reading stands: the last argument that was read and those left. -/
structure Cursor where
  before : String
  rest : List String

/-- The value of a part of an expression, and what follows it. -/
abbrev Result := Except Fault (Value × Cursor)

mutual

/-- The value of an expression of a level. Unless it is `live`, it is only
read. -/
def evaluate : (depth : Nat) → (level : Nat) → (live : Bool) → Cursor → Result
  | 0, _, _, c => .error (.missingArgument c.before)
  | depth + 1, level, live, c =>
    if level = operandLevel then operand depth live c
    else do
      let (a, c) ← evaluate depth (level + 1) live c
      operators depth level live a c

/-- The operators of a level that follow a value. -/
def operators : (depth : Nat) → (level : Nat) → (live : Bool) → Value → Cursor → Result
  | 0, _, _, _, c => .error (.missingArgument c.before)
  | depth + 1, level, live, a, c =>
    match c.rest with
    | operator :: rest =>
      if (operatorsOf level).contains operator then do
        let goesOn := match level with
          | 0 => live && a.isNull
          | 1 => live && !a.isNull
          | _ => live
        let (b, c) ← evaluate depth (level + 1) goesOn ⟨operator, rest⟩
        let value : Value ← match level with
          | 0 => .ok (if !a.isNull then a else if b.isNull then .number 0 else b)
          | 1 => .ok (if a.isNull || b.isNull then .number 0 else a)
          | _ => if live then apply operator a b else .ok a
        operators depth level live value c
      else .ok (a, c)
    | [] => .ok (a, c)

/-- The value of an operand: an argument, a group, or a function of the
operands behind its name. -/
def operand : (depth : Nat) → (live : Bool) → Cursor → Result
  | 0, _, c => .error (.missingArgument c.before)
  | depth + 1, live, c =>
    match c.rest with
    | [] => .error (.missingArgument c.before)
    | "+" :: [] => .error (.missingArgument "+")
    | "+" :: text :: rest => .ok (.text text, ⟨text, rest⟩)
    | "length" :: rest => do
      let (a, c) ← operand depth live ⟨"length", rest⟩
      return (.number a.render.length, c)
    | "match" :: rest => do
      let (a, c) ← operand depth live ⟨"match", rest⟩
      let (b, c) ← operand depth live c
      let found ← if live then matchValue a b else .ok a
      return (found, c)
    | "index" :: rest => do
      let (a, c) ← operand depth live ⟨"index", rest⟩
      let (b, c) ← operand depth live c
      return (placeOf a b, c)
    | "substr" :: rest => do
      let (a, c) ← operand depth live ⟨"substr", rest⟩
      let (start, c) ← operand depth live c
      let (count, c) ← operand depth live c
      return (part a start count, c)
    | "(" :: rest => do
      let (a, c) ← evaluate depth 0 live ⟨"(", rest⟩
      match c.rest with
      | ")" :: rest => return (a, ⟨")", rest⟩)
      | [] => .error (.unclosed c.before none)
      | found :: _ => .error (.unclosed c.before (some found))
    | ")" :: _ => .error .unexpectedParenthesis
    | text :: rest => .ok (.text text, ⟨text, rest⟩)

end

/-- The value of all arguments. -/
def value (arguments : List String) : Except Fault Value := do
  let (a, c) ← evaluate (16 * arguments.length + 16) 0 true ⟨"", arguments⟩
  match c.rest with
  | [] => return a
  | extra :: _ => .error (.unexpectedArgument extra)

end Calculation

/-- Prints the value of an expression. -/
def expr (i : Invocation) : Action Unit := do
  let arguments := match i.arguments with
    | "--" :: rest => rest
    | arguments => arguments
  if arguments = [] then misused i "missing operand" 2
  match Calculation.value arguments with
  | .error fault => die i.name fault.message 2
  | .ok value =>
    say i.name (value.render ++ "\n") 3
    Action.exit (if value.isNull then 1 else 0)

end JobShell.Tool
