import JobShell.Text.Decimal
import JobShell.Text.Regex.Reader
import JobShell.Tool.Basic

/-!
# Numbered lines

`nl` prints lines with numbers in front of them. Lines that consist of
delimiters only divide the input into headers, bodies and footers, which are
numbered in different ways; each of them begins to count again.
-/

namespace JobShell.Tool

open Machine (Action)
open Text (Regex Subject)

namespace Numbering

/-- Which lines get a number. -/
inductive Style
  | all
  | text
  | none
  | matching (r : Regex)

/-- A part of a page. -/
inductive Section
  | header
  | body
  | footer
  deriving DecidableEq

/-- How lines are numbered. -/
structure Setting where
  style : Section → Style := fun section_ => if section_ = .body then .text else .none
  delimiter : String := "\\:"
  increment : Int := 1
  start : Int := 1
  /-- How many empty lines in a row get one number. -/
  joined : Nat := 1
  /-- Sections begin to count again. -/
  renumbers : Bool := true
  separator : String := "\t"
  width : Nat := 6
  padded : Bool := false
  leftward : Bool := false

/-- Where numbering is. -/
structure State where
  section_ : Section := .body
  number : Int
  /-- Empty lines since the last that got a number. -/
  empties : Nat := 0

/-- A number in its column. -/
def Setting.label (s : Setting) (number : Int) : String :=
  let digits := toString number.natAbs
  let sign := if number < 0 then "-" else ""
  let missing := s.width - (sign ++ digits).length
  (if s.leftward then sign ++ digits ++ "".pushn ' ' missing
    else if s.padded then sign ++ "".pushn '0' missing ++ digits
    else "".pushn ' ' missing ++ sign ++ digits) ++ s.separator

/-- The section that a line begins, if it is a delimiter of sections. -/
def Setting.section? (s : Setting) (line : String) : Option Section :=
  let d := s.delimiter
  if d = "" then none
  else if line = d ++ d ++ d then some .header
  else if line = d ++ d then some .body
  else if line = d then some .footer
  else none

/-- Whether a line gets a number, and how many empty lines wait for one. -/
def Setting.counts (s : Setting) (state : State) (line : String) : Bool × Nat :=
  match s.style state.section_ with
  | .all =>
    if s.joined ≤ 1 then (true, 0)
    else if line ≠ "" then (true, 0)
    else if state.empties + 1 = s.joined then (true, 0)
    else (false, state.empties + 1)
  | .text => (line ≠ "", state.empties)
  | .none => (false, state.empties)
  | .matching r => (r.isIn { text := line.toList.toArray }, state.empties)

/-- What is printed for a line; `none` if there are no numbers left. -/
def Setting.step (s : Setting) (state : State) (line : String) : State × Option String :=
  match s.section? line with
  | some section_ =>
    ({ state with section_, number := if s.renumbers then s.start else state.number }, some "")
  | none =>
    let (counted, empties) := s.counts state line
    if !counted then
      ({ state with empties }, some ("".pushn ' ' (s.width + s.separator.length) ++ line))
    else if state.number < -2 ^ 63 ∨ 2 ^ 63 ≤ state.number then (state, none)
    else
      ({ state with number := state.number + s.increment, empties },
        some (s.label state.number ++ line))

end Numbering

/-- The style that the value of an option asks for, if there is one. -/
def readNumberingStyle (i : Invocation) (text : String) : Action (Option Numbering.Style) := do
  match text.toList with
  | ['a'] => return some .all
  | ['t'] => return some .text
  | ['n'] => return some .none
  | 'p' :: pattern =>
    match Regex.read { strict := true } (String.ofList pattern) with
    | .ok source => return some (.matching source.regex)
    | .error fault => die i.name fault.message
  | _ => return none

/-- A whole number as the value of an option. -/
def readOptionNumber (i : Invocation) (what text : String) (least : Int := -2 ^ 63)
    (most : Int := 2 ^ 63 - 1) : Action Int := do
  let refuse (reason : String) : Action Int := die i.name s!"{what}: {Quoted.plain text}{reason}"
  match Text.readInt? text with
  | none => refuse ""
  | some n =>
    if n < -2 ^ 63 ∨ 2 ^ 63 ≤ n then refuse ": Value too large for defined data type"
    else if n < least ∨ most < n then refuse ": Numerical result out of range"
    else return n

/-- Applies an option. The value is none if there is no such style or
format. -/
def applyNumbering (i : Invocation) (s : Numbering.Setting) :
    GivenOption → Action (Option Numbering.Setting)
  | (c, value) => do
    let text := value.getD ""
    let styled (section_ : Numbering.Section) (name : String) :
        Action (Option Numbering.Setting) := do
      match ← readNumberingStyle i text with
      | some style =>
        return some { s with style := fun other => if other = section_ then style else s.style other }
      | none =>
        complainAs i.name s!"invalid {name} numbering style: {Quoted.plain text}"
        return none
    match c with
    | 'h' => styled .header "header"
    | 'b' => styled .body "body"
    | 'f' => styled .footer "footer"
    | 'v' => return some { s with start := ← readOptionNumber i "invalid starting line number" text }
    | 'i' =>
      return some { s with increment := ← readOptionNumber i "invalid line number increment" text }
    | 'l' =>
      let joined ← readOptionNumber i "invalid line number of blank lines" text 1
      return some { s with joined := joined.toNat }
    | 'w' =>
      let width ← readOptionNumber i "invalid line number field width" text 1 (2 ^ 31 - 1)
      return some { s with width := width.toNat }
    | 'n' =>
      if ["ln", "rn", "rz"].contains text then
        return some { s with padded := text = "rz", leftward := text = "ln" }
      else
        complainAs i.name s!"invalid line numbering format: {Quoted.plain text}"
        return none
    | 's' => return some { s with separator := text }
    | 'd' =>
      return some { s with delimiter := if text.length = 1 then text ++ ":" else text }
    | _ => return some { s with renumbers := false }

/-- Prints lines with numbers. -/
def nl (i : Invocation) : Action Unit := do
  let (options, operands) ← i.options
    { flags := "p", valued := "bdfhilnsvw",
      long := [("header-numbering", 'h'), ("body-numbering", 'b'), ("footer-numbering", 'f'),
        ("starting-line-number", 'v'), ("line-increment", 'i'), ("no-renumber", 'p'),
        ("join-blank-lines", 'l'), ("number-separator", 's'), ("number-width", 'w'),
        ("number-format", 'n'), ("section-delimiter", 'd')] }
  let start : Numbering.Setting := {}
  let (setting, valid) ← options.foldlM (fun (s, valid) option => do
    match ← applyNumbering i s option with
    | some s => return (s, valid)
    | none => return (s, false)) (start, true)
  if !valid then
    complain s!"Try '{i.name} --help' for more information.\n"
    Action.exit 1
  let rec go (status : Nat) (state : Numbering.State) : List String → Action Unit
    | [] => Action.exit status
    | operand :: rest => do
      match ← openInput operand with
      | .error cause => complainAbout i operand cause; go 1 state rest
      | .ok fd =>
        let result ← foldLines i.name fd (fun (state, lost) line =>
          match setting.step state line with
          | (state, some line) => ((state, lost), [line], true)
          | (state, none) => ((state, true), [], false)) (state, false)
        closeInput fd
        match result with
        | .error cause => complainAbout i operand cause; go 1 state rest
        | .ok (_, true) => die i.name "line number overflow"
        | .ok (state, false) => go status state rest
  go 0 { number := setting.start } (if operands = [] then ["-"] else operands)

end JobShell.Tool
