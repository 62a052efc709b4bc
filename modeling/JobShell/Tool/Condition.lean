import JobShell.Text.Decimal
import JobShell.Tool.Basic

/-!
# Conditions

The expressions of `test`: tests of files, strings and numbers, negation,
grouping, and the connectives `-a` and `-o`. With up to three arguments the
number of arguments decides how they are read, so that operands may look
like operators.
-/

namespace JobShell.Tool

open Machine (Action Facts FileKind)

namespace Condition

/-- Why a condition can not be evaluated. -/
inductive Fault
  | illegalNumber (text : String)
  /-- An argument that nothing may follow, and what follows it. -/
  | unexpectedOperator (text next : String)
  | argumentExpected (operator : String)
  | closingParenthesis
  deriving DecidableEq, Repr

/-- The wording of a fault. -/
def Fault.message : Fault → String
  | illegalNumber text => "Illegal number: " ++ text
  | unexpectedOperator text _ => text ++ ": unexpected operator"
  | argumentExpected operator => operator ++ ": argument expected"
  | closingParenthesis => "closing paren expected"

/-- The tests of a single operand. -/
def unaryOperators : List String :=
  ["-n", "-z", "-e", "-f", "-d", "-x", "-r", "-w", "-s", "-L", "-h", "-p", "-t", "-b", "-c",
   "-S", "-u", "-g", "-k", "-O", "-G"]

/-- The tests of two operands. -/
def binaryOperators : List String :=
  ["=", "==", "!=", "<", ">", "-eq", "-ne", "-gt", "-ge", "-lt", "-le", "-nt", "-ot", "-ef"]

/-- A number as an operand; blanks may stand around it. -/
def number (text : String) : Except Fault Int :=
  let trimmed := (text.toList.reverse.dropWhile (·.isWhitespace)).reverse
  match Text.readInt? (String.ofList trimmed) with
  | some n => if -2 ^ 63 ≤ n ∧ n < 2 ^ 63 then .ok n else .error (.illegalNumber text)
  | none => .error (.illegalNumber text)

/-- Tests one operand. -/
def unary (operator operand : String) : Action (Except Fault Bool) := do
  match operator with
  | "-n" => return .ok (operand ≠ "")
  | "-z" => return .ok (operand = "")
  | "-t" =>
    match number operand with
    | .ok fd => return .ok (← Action.isTerminal fd)
    | .error fault => return .error fault
  | _ => do
    let follow := operator ≠ "-L" && operator ≠ "-h"
    match ← Action.facts (.ofOctets operand) follow with
    | .error _ => return .ok false
    | .ok facts =>
      return .ok (match operator with
        | "-f" => facts.kind = .regular
        | "-d" => facts.kind = .directory
        | "-s" => facts.size > 0
        | "-x" => facts.executable
        | "-L" | "-h" => facts.kind = .link
        | "-p" => facts.kind = .pipe
        | "-c" => facts.kind = .device
        | "-b" | "-S" | "-u" | "-g" | "-k" => false
        | _ => true)

/-- Tests two operands. -/
def binary (left operator right : String) : Action (Except Fault Bool) := do
  let numeric (relation : Int → Int → Bool) : Except Fault Bool := do
    return relation (← number left) (← number right)
  match operator with
  | "=" | "==" => return .ok (left = right)
  | "!=" => return .ok (left ≠ right)
  | "<" => return .ok (left < right)
  | ">" => return .ok (right < left)
  | "-eq" => return numeric (· = ·)
  | "-ne" => return numeric (· ≠ ·)
  | "-gt" => return numeric (· > ·)
  | "-ge" => return numeric (· ≥ ·)
  | "-lt" => return numeric (· < ·)
  | "-le" => return numeric (· ≤ ·)
  | "-ef" => do
    match ← Action.facts (.ofOctets left), ← Action.facts (.ofOctets right) with
    | .ok a, .ok b => return .ok (a.identity = b.identity)
    | _, _ => return .ok false
  | _ => return .ok false

/-- The level at which an expression is read. -/
inductive Level
  | either
  | both
  | negation
  | single

/-- Evaluates a part of an expression and leaves the rest of it. Every
recursive call reads less or is at a lower level. -/
def evaluate : (depth : Nat) → Level → List String →
    Action (Except Fault (Bool × List String))
  | 0, _, rest => return .ok (false, rest)
  | depth + 1, level, arguments => do
    match level, arguments with
    | .either, _ => do
      match ← evaluate depth .both arguments with
      | .ok (a, "-o" :: rest) => do
        match ← evaluate depth .either rest with
        | .ok (b, rest) => return .ok (a || b, rest)
        | .error fault => return .error fault
      | result => return result
    | .both, _ => do
      match ← evaluate depth .negation arguments with
      | .ok (a, "-a" :: rest) => do
        match ← evaluate depth .both rest with
        | .ok (b, rest) => return .ok (a && b, rest)
        | .error fault => return .error fault
      | result => return result
    | .negation, "!" :: rest => do
      match ← evaluate depth .negation rest with
      | .ok (a, rest) => return .ok (!a, rest)
      | .error fault => return .error fault
    | .negation, _ => evaluate depth .single arguments
    | .single, left :: operator :: rest => do
      if binaryOperators.contains operator then
        match rest with
        | right :: rest => return (← binary left operator right).map (·, rest)
        | [] => return .error (.argumentExpected operator)
      else simple depth arguments
    | .single, _ => simple depth arguments
where
  /-- An expression that is no comparison. Where there is none it does not
  hold. -/
  simple : Nat → List String → Action (Except Fault (Bool × List String))
    | _, [] => return .ok (false, [])
    | 0, rest => return .ok (false, rest)
    | depth + 1, "(" :: rest => do
      match ← evaluate depth .either rest with
      | .ok (a, ")" :: rest) => return .ok (a, rest)
      | .ok _ => return .error .closingParenthesis
      | .error fault => return .error fault
    | _, [word] => return .ok (word ≠ "", [])
    | _, operator :: operand :: rest => do
      if unaryOperators.contains operator then
        return (← unary operator operand).map (·, rest)
      else return .ok (operator ≠ "", operand :: rest)

/-- Whether a condition holds. -/
def holds (arguments : List String) : Action (Except Fault Bool) := do
  match arguments with
  | [] => return .ok false
  | [word] => return .ok (word ≠ "")
  | ["!", word] => return .ok (word = "")
  | [left, operator, right] =>
    if binaryOperators.contains operator then binary left operator right
    else general arguments
  | ["!", left, operator, right] =>
    if binaryOperators.contains operator then
      return (← binary left operator right).map (!·)
    else general arguments
  | _ => general arguments
where
  general (arguments : List String) : Action (Except Fault Bool) := do
    match ← evaluate (4 * arguments.length + 8) .either arguments with
    | .ok (a, []) => return .ok a
    | .ok (_, extra) =>
      let used := arguments.take (arguments.length - extra.length)
      return .error (.unexpectedOperator (used.getLast?.getD "") (extra.headD ""))
    | .error fault => return .error fault

end Condition

/-- Tells by its status whether a condition holds. -/
def testArguments (i : Invocation) (arguments : List String) : Action Unit := do
  match ← Condition.holds arguments with
  | .ok true => Action.exit 0
  | .ok false => Action.exit 1
  | .error fault => die i.name (explain arguments fault) 2
where
  /-- The wording of a fault, which depends on how many arguments there are. -/
  explain (arguments : List String) : Condition.Fault → String
    | .illegalNumber text => s!"invalid integer '{text}'"
    | .argumentExpected operator => s!"missing argument after '{operator}'"
    | .closingParenthesis => "')' expected"
    | .unexpectedOperator _ next =>
      match arguments with
      | [_, last] | ["!", _, last] => s!"missing argument after '{last}'"
      | [_, operator, _] => s!"'{operator}': binary operator expected"
      | _ => s!"extra argument '{next}'"

/-- Tells whether its arguments are a condition that holds. -/
def test (i : Invocation) : Action Unit := testArguments i i.arguments

/-- Tells whether a condition in brackets holds. -/
def bracket (i : Invocation) : Action Unit := do
  if i.arguments.getLast? = some "]" then testArguments i i.arguments.dropLast
  else die i.name "missing ']'" 2

end JobShell.Tool
