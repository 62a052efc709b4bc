import JobShell.Text.Decimal
import JobShell.Tool.Basic

/-!
# Lines of limited width

`fold` breaks lines that are too wide, if that is wanted behind a blank.
-/

namespace JobShell.Tool

open Machine (Action)

namespace Folding

/-- How lines are broken. -/
structure Setting where
  width : Nat
  /-- Every character is one column wide. -/
  bytes : Bool := false
  /-- Lines are broken behind blanks where there are any. -/
  blanks : Bool := false

/-- The column behind a character. -/
def Setting.advance (s : Setting) (column : Nat) (c : Char) : Nat :=
  if s.bytes then column + 1
  else
    match c with
    | '\x08' => column - 1
    | '\r' => 0
    | '\t' => column + 8 - column % 8
    | _ => column + 1

/-- The column behind several characters. -/
def Setting.columnAfter (s : Setting) (cs : List Char) : Nat := cs.foldl s.advance 0

/-- Breaks a line. `held` are the characters of the current line, the last
one first; `count` bounds how many steps are taken. -/
def Setting.break_ (s : Setting) : (count : Nat) → (held : List Char) → List Char → List Char
  | 0, held, cs => held.reverse ++ cs
  | _, held, [] => held.reverse
  | count + 1, held, c :: cs =>
    if s.advance (s.columnAfter held.reverse) c ≤ s.width then s.break_ count (c :: held) cs
    else
      let tail := if s.blanks then held.takeWhile fun c => c ≠ ' ' && c ≠ '\t' else []
      if tail ≠ [] ∧ tail.length < held.length then
        (held.drop tail.length).reverse ++ '\n' :: s.break_ count tail (c :: cs)
      else if held = [] then s.break_ count [c] cs
      else held.reverse ++ '\n' :: s.break_ count [] (c :: cs)

/-- Breaks a line. -/
def Setting.line (s : Setting) (line : String) : String :=
  String.ofList (s.break_ (3 * line.length + 1) [] line.toList)

end Folding

/-- Breaks the lines of its inputs. -/
def fold (i : Invocation) : Action Unit := do
  let (options, operands) ← i.options
    { flags := "bs0123456789", valued := "w",
      long := [("bytes", 'b'), ("spaces", 's'), ("width", 'w')] }
  let digits := String.ofList ((options.map (·.1)).filter Char.isDigit)
  let text := (optionValue? options 'w').getD (if digits = "" then "80" else digits)
  let width ← match Text.readNat? text with
    | none => die i.name s!"invalid number of columns: {Quoted.always text}"
    | some 0 =>
      die i.name (s!"invalid number of columns: {Quoted.always text}: " ++ errorText 34)
    | some n => pure n
  let s : Folding.Setting :=
    { width, bytes := hasOption options 'b', blanks := hasOption options 's' }
  let status ← forInputs i operands fun _ fd => do
    match ← Action.readAll fd with
    | .error cause => return .error cause
    | .ok data =>
      let (lines, ended) := splitLines data.octets
      let text := "\n".intercalate (lines.map s.line)
      say i.name (text ++ if ended && data ≠ [] then "\n" else "")
      return .ok ()
  Action.exit status

end JobShell.Tool
