import JobShell.Script.Expansion

/-!
# Arguments of builtin commands

Builtin commands read their options one letter at a time, in front of their
operands, and their numbers with blanks around them.
-/

namespace JobShell.Script

/-- Reads a cluster of letters: those of `flags`, and those of `valued`,
whose value is the rest of the cluster. The result is the options that were
given and the last letter if its value is missing, or else the letter that is
no option. -/
def readLetters (flags valued : String) :
    List Char → Except Char (List (Char × String) × Option Char)
  | [] => .ok ([], none)
  | c :: cs =>
    if valued.contains c then
      .ok (if cs = [] then ([], some c) else ([(c, String.ofList cs)], none))
    else if flags.contains c then
      (readLetters flags valued cs).map fun (given, last) => ((c, "") :: given, last)
    else .error c

/-- Reads the options in front of the operands. A value that is missing in a
cluster is the next argument. -/
def readFlags (flags : String) (valued : String := "") :
    List String → Sh (List (Char × String) × List String)
  | [] => return ([], [])
  | argument :: rest => do
    match argument.toList with
    | ['-', '-'] => return ([], rest)
    | '-' :: c :: cs =>
      match readLetters flags valued (c :: cs) with
      | .error c => abandon s!"Illegal option -{c}"
      | .ok (given, none) => do
        let (more, operands) ← readFlags flags valued rest
        return (given ++ more, operands)
      | .ok (given, some c) =>
        match rest with
        | [] => abandon s!"No arg for -{c} option"
        | value :: rest => do
          let (more, operands) ← readFlags flags valued rest
          return (given ++ (c, value) :: more, operands)
    | _ => return ([], argument :: rest)

/-- The operands of a builtin command that has no options. -/
def operandsOf (arguments : List String) : Sh (List String) := do
  return (← readFlags "" "" arguments).2

/-- A number that is not negative, as an argument. -/
def readNumber (text : String) : Sh Nat := do
  let trimmed := (text.toList.reverse.dropWhile (·.isWhitespace)).reverse
  match Text.readInt? (String.ofList trimmed) with
  | some n => if 0 ≤ n ∧ n < 2 ^ 31 then return n.toNat else abandon ("Illegal number: " ++ text)
  | none => abandon ("Illegal number: " ++ text)

end JobShell.Script
