import JobShell.Tool.Format

/-!
# Programs that print their arguments
-/

namespace JobShell.Tool

open Machine (Action)

/-- Ends with a fixed status. -/
def constantly (status : Nat) (_ : Invocation) : Action Unit := Action.exit status

/-- The leading options of `echo`: whether the end of the line is left out,
whether escapes are resolved, and the words to print. -/
def echoOptions (ended escapes : Bool) : List String → Bool × Bool × List String
  | [] => (ended, escapes, [])
  | word :: rest =>
    match word.toList with
    | '-' :: c :: cs =>
      if (c :: cs).all (· ∈ ['n', 'e', 'E']) then
        let escapes := (c :: cs).foldl
          (fun e c => if c = 'e' then true else if c = 'E' then false else e) escapes
        echoOptions (ended && 'n' ∉ c :: cs) escapes rest
      else (ended, escapes, word :: rest)
    | _ => (ended, escapes, word :: rest)

/-- Prints its arguments on one line. -/
def echo (i : Invocation) : Action Unit := do
  let (ended, escapes, words) := echoOptions true false i.arguments
  let text := " ".intercalate words
  if escapes then
    let (resolved, ending) := Format.resolve .echo text
    say i.name (resolved ++ if ended && ending = .whole then "\n" else "")
  else say i.name (text ++ if ended then "\n" else "")

/-- Prints its arguments as a format says. -/
def printf (i : Invocation) : Action Unit := do
  let arguments := match i.arguments with
    | "--" :: rest => rest
    | arguments => arguments
  match arguments with
  | [] => misused i "missing operand"
  | format :: arguments => do
    let (output, faults) := Format.run .program format arguments
    say i.name output
    let rec report : List Format.Fault → Action Unit
      | [] => return ()
      | fault :: rest => do
        complainAs i.name (words fault)
        report rest
    report faults
    Action.exit (if faults.all (·.isWarning) then 0 else 1)
where
  /-- The wording of a fault. -/
  words : Format.Fault → String
    | .notNumeric argument => Quoted.plain argument ++ ": expected a numeric value"
    | .incomplete argument => Quoted.plain argument ++ ": value not completely converted"
    | .outOfRange argument => Quoted.plain argument ++ ": " ++ errorText 34
    | .ignored text =>
      "warning: " ++ text ++ ": character(s) following character constant have been ignored"
    | .refused written _ => written ++ ": invalid conversion specification"
    | .missingDigits => "missing hexadecimal number in escape"
    | .badCharacter letter n =>
      let digits := String.ofList (Nat.toDigits 16 n)
      let width := if letter = 'u' then 4 else 8
      s!"invalid universal character name \\{letter}" ++
        "".pushn '0' (width - digits.length) ++ digits
    | .fieldWidth argument => "invalid field width: " ++ Quoted.plain argument
    | .excess argument =>
      "warning: ignoring excess arguments, starting with " ++ Quoted.plain argument

/-- Prints its arguments on one line again and again. -/
def yes (i : Invocation) : Action Unit := do
  let (_, operands) ← i.options {} 1 true
  let line := (if operands = [] then "y" else " ".intercalate operands) ++ "\n"
  let block := String.join (List.replicate (1 + 4096 / line.length) line)
  let rec go : Nat → Action Unit
    | 0 => return ()
    | blocks + 1 => do
      match ← Action.writeAll 1 (.ofOctets block) with
      | .ok () => go blocks
      | .error cause => die i.name ("standard output: " ++ errorWords cause)
  go Action.manyTimes

end JobShell.Tool
