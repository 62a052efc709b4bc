import JobShell.Name
import JobShell.Script.State

/-!
# Arithmetic in scripts

Expressions over whole numbers of 64 bits with the operators of C. Variables
stand for their values, and can be assigned.
-/

namespace JobShell.Script.Arithmetic

/-- A token of an expression. -/
inductive Token
  | number (n : Int)
  | name (s : String)
  | operator (s : String)
  /-- A character that begins no token. -/
  | stray (c : Char)
  deriving DecidableEq, Repr

/-- An expression. -/
inductive Expression
  | number (n : Int)
  | variable (name : String)
  | unary (operator : String) (a : Expression)
  | binary (operator : String) (a b : Expression)
  | choice (condition a b : Expression)
  /-- Assigns the value of the operator applied to the variable and `a`; no
  operator assigns `a` itself. -/
  | assign (name operator : String) (a : Expression)

/-- What is missing in an expression. -/
inductive Fault
  | primary
  | ending
  | colon
  | parenthesis
  deriving DecidableEq, Repr

/-- The wording of a fault. -/
def Fault.message : Fault → String
  | primary => "expecting primary"
  | ending => "expecting EOF"
  | colon => "expecting ':'"
  | parenthesis => "expecting ')'"

/-- The operators, longer ones first. -/
def operators : List String :=
  ["<<=", ">>=", "<<", ">>", "<=", ">=", "==", "!=", "&&", "||", "+=", "-=", "*=", "/=", "%=",
   "&=", "|=", "^=", "+", "-", "*", "/", "%", "<", ">", "=", "!", "~", "&", "|", "^", "?", ":",
   "(", ")"]

/-- The binary operators and how strongly they bind. -/
def strength? (operator : String) : Option Nat :=
  [("||", 1), ("&&", 2), ("|", 3), ("^", 4), ("&", 5), ("==", 6), ("!=", 6), ("<", 7),
   ("<=", 7), (">", 7), (">=", 7), ("<<", 8), (">>", 8), ("+", 9), ("-", 9), ("*", 10),
   ("/", 10), ("%", 10)].lookup operator

/-! ## Numbers -/

/-- The greatest number. -/
def greatest : Int := 2 ^ 63 - 1

/-- Whether a character is a digit in a base. -/
def isDigitOf (base : Nat) (c : Char) : Bool :=
  (c.isDigit && c.toNat - '0'.toNat < base) ||
    (base = 16 && 'a' ≤ c.toLower && c.toLower ≤ 'f')

/-- The number that digits of a base denote. -/
def ofDigits (base : Nat) (digits : List Char) : Nat :=
  digits.foldl (fun n c =>
    n * base + if c.isDigit then c.toNat - '0'.toNat else c.toLower.toNat - 'a'.toNat + 10) 0

/-- The number at the beginning of a text and what follows it. A leading zero
makes its digits octal, `0x` hexadecimal, and `0b` binary. -/
def leadingNumber (text : List Char) : Nat × List Char :=
  let read (base : Nat) (cs : List Char) : Nat × List Char :=
    let (digits, rest) := cs.span (isDigitOf base)
    (ofDigits base digits, rest)
  match text with
  | '0' :: mark :: c :: cs =>
    if mark.toLower = 'x' ∧ isDigitOf 16 c then read 16 (c :: cs)
    else if mark.toLower = 'b' ∧ isDigitOf 2 c then read 2 (c :: cs)
    else read 8 text
  | '0' :: _ => read 8 text
  | _ => read 10 text

/-- The number that the value of a variable denotes; blanks may stand around
it and a sign in front of it. An empty value is zero. -/
def number? (text : String) : Option Int :=
  let (negative, cs) : Bool × List Char := match text.toList.dropWhile (·.isWhitespace) with
    | '-' :: cs => (true, cs)
    | '+' :: cs => (false, cs)
    | cs => (false, cs)
  let isNumber := cs.head?.any Char.isDigit
  let (n, rest) := if isNumber then leadingNumber cs else (0, text.toList)
  let n : Int := if negative then -Int.ofNat n else n
  if rest.all (·.isWhitespace) ∧ -greatest - 1 ≤ n ∧ n ≤ greatest then some n else none

/-! ## Reading -/

/-- The tokens of an expression. A number that is too great is the greatest
there is. -/
def tokens : (length : Nat) → List Char → List Token
  | 0, _ | _, [] => []
  | length + 1, c :: rest =>
    if c = ' ' ∨ c = '\t' ∨ c = '\n' then tokens length rest
    else if c.isDigit then
      let (n, rest) := leadingNumber (c :: rest)
      .number (min n greatest) :: tokens length rest
    else if isNameStart c then
      let (text, rest) := (c :: rest).span isNameChar
      .name (String.ofList text) :: tokens length rest
    else
      match operators.find? fun o => o.toList.isPrefixOf (c :: rest) with
      | some o => .operator o :: tokens length ((c :: rest).drop o.length)
      | none => .stray c :: tokens length rest

/-- What reading a part of an expression comes to: the part and the tokens
behind it. -/
abbrev Parse := Except Fault (Expression × List Token)

mutual

/-- An expression with the operators that bind at least as strongly as
`strength`; zero includes assignments and choices. -/
def parse : (depth strength : Nat) → List Token → Parse
  | 0, _, _ => .error .primary
  | depth + 1, 0, .name name :: .operator o :: rest =>
    if o = "=" then do
      let (a, rest) ← parse depth 0 rest
      return (.assign name "" a, rest)
    else if o.toList.getLast? = some '=' ∧ strength? o = none then do
      let (a, rest) ← parse depth 0 rest
      return (.assign name (String.ofList o.toList.dropLast) a, rest)
    else parseChoice depth (.name name :: .operator o :: rest)
  | depth + 1, 0, ts => parseChoice depth ts
  | depth + 1, strength, ts => do
    let (a, rest) ← parseUnary depth ts
    parseRest depth strength a rest

/-- A condition, and the two expressions it chooses from. -/
def parseChoice : (depth : Nat) → List Token → Parse
  | 0, _ => .error .primary
  | depth + 1, ts => do
    match ← parse depth 1 ts with
    | (condition, .operator "?" :: rest) =>
      match ← parse depth 0 rest with
      | (a, .operator ":" :: rest) =>
        let (b, rest) ← parseChoice depth rest
        return (.choice condition a b, rest)
      | _ => .error .colon
    | result => return result

/-- The operators that follow an expression. -/
def parseRest : (depth strength : Nat) → Expression → List Token → Parse
  | 0, _, _, _ => .error .primary
  | depth + 1, strength, a, .operator o :: rest =>
    match strength? o with
    | some own =>
      if own < strength then .ok (a, .operator o :: rest)
      else do
        let (b, rest) ← parse depth (own + 1) rest
        parseRest depth strength (.binary o a b) rest
    | none => .ok (a, .operator o :: rest)
  | _ + 1, _, a, ts => .ok (a, ts)

/-- An operand with the operators in front of it. -/
def parseUnary : (depth : Nat) → List Token → Parse
  | 0, _ => .error .primary
  | _ + 1, .number n :: rest => .ok (.number n, rest)
  | _ + 1, .name name :: rest => .ok (.variable name, rest)
  | depth + 1, .operator "(" :: rest => do
    match ← parse depth 0 rest with
    | (a, .operator ")" :: rest) => return (a, rest)
    | _ => .error .parenthesis
  | depth + 1, .operator o :: rest =>
    if o ∈ ["-", "+", "!", "~"] then do
      let (a, rest) ← parseUnary depth rest
      return (.unary o a, rest)
    else .error .primary
  | _ + 1, _ => .error .primary

end

/-! ## Values -/

/-- The number of 64 bits that a result is stored as. -/
def wrap (n : Int) : Int := n.bmod (2 ^ 64)

/-- The number of a truth value. -/
def ofBool (b : Bool) : Int := if b then 1 else 0

/-- The bits of a number. -/
def bits (n : Int) : Nat := (n % 2 ^ 64).toNat

/-- Applies a binary operator that is no division. -/
def apply (operator : String) (a b : Int) : Int :=
  match operator with
  | "+" => wrap (a + b)
  | "-" => wrap (a - b)
  | "*" => wrap (a * b)
  | "<<" => wrap (a * 2 ^ (b % 64).toNat)
  | ">>" => a / 2 ^ (b % 64).toNat
  | "<" => ofBool (a < b)
  | "<=" => ofBool (a ≤ b)
  | ">" => ofBool (b < a)
  | ">=" => ofBool (b ≤ a)
  | "==" => ofBool (a = b)
  | "!=" => ofBool (a ≠ b)
  | "&" => wrap ((bits a &&& bits b : Nat))
  | "|" => wrap ((bits a ||| bits b : Nat))
  | "^" => wrap ((bits a ^^^ bits b : Nat))
  | _ => b

/-- The quotient or the remainder of two numbers. The one quotient that is too
great is a failure of the processor, which ends the script. -/
def divide (text : String) (remainder : Bool) (a b : Int) : Sh Int := do
  if b = 0 then abandon s!"arithmetic expression: division by zero: \"{text}\""
  if a = -greatest - 1 ∧ b = -1 then
    let _ ← Machine.Action.ask (.send (← get).pid Signal.arithmetic)
    throw .fault
  return if remainder then a.tmod b else a.tdiv b

/-- Applies a binary operator of the expression `text`. -/
def result (text operator : String) (a b : Int) : Sh Int :=
  match operator with
  | "/" => divide text false a b
  | "%" => divide text true a b
  | operator => return apply operator a b

/-- The value of a variable as a number. -/
def variableNumber (name : String) : Sh Int := do
  let text := ((← get).value? name).getD ""
  match number? text with
  | some n => return n
  | none => abandon ("Illegal number: " ++ text)

/-- The value of an expression that was written as `text`. -/
def evaluate (text : String) : Expression → Sh Int
  | .number n => return wrap n
  | .variable name => variableNumber name
  | .unary operator a => do
    let n ← evaluate text a
    return match operator with
      | "-" => wrap (-n)
      | "!" => ofBool (n = 0)
      | "~" => wrap (-n - 1)
      | _ => n
  | .binary "&&" a b => do
    if (← evaluate text a) = 0 then return 0 else return ofBool ((← evaluate text b) ≠ 0)
  | .binary "||" a b => do
    if (← evaluate text a) ≠ 0 then return 1 else return ofBool ((← evaluate text b) ≠ 0)
  | .binary operator a b => do
    let n ← evaluate text a
    let m ← evaluate text b
    result text operator n m
  | .choice condition a b => do
    if (← evaluate text condition) ≠ 0 then evaluate text a else evaluate text b
  | .assign name operator a => do
    let m ← evaluate text a
    let n ← if operator = "" then pure 0 else variableNumber name
    let value ← result text operator n m
    setVariable name (toString value)
    return value

/-- The value of an expression. -/
def value (text : String) : Sh Int := do
  let fail (fault : Fault) : Sh Int :=
    abandon s!"arithmetic expression: {fault.message}: \"{text}\""
  match parse (16 * text.length + 16) 0 (tokens (text.length + 1) text.toList) with
  | .ok (e, []) => evaluate text e
  | .ok (_, _ :: _) => fail .ending
  | .error fault => fail fault

end JobShell.Script.Arithmetic
