import JobShell.Tool.Basic
import JobShell.Tool.Count

/-!
# Runs of equal lines

`uniq` compares every line with the one in front of it, and prints runs of
equal lines once, or with their length, or only some of them.
-/

namespace JobShell.Tool

open Machine (Action)

namespace Runs

/-- How lines are compared. -/
structure Comparison where
  skippedFields : Nat := 0
  skippedCharacters : Nat := 0
  compared : Option Nat := none
  folded : Bool := false

/-- What is left of a line behind `count` fields. -/
def dropFields : (count : Nat) → List Char → List Char
  | 0, cs => cs
  | count + 1, cs =>
    let blank (c : Char) : Bool := c = ' ' || c = '\t'
    dropFields count ((cs.dropWhile blank).dropWhile (!blank ·))

/-- The part of a line that is compared. -/
def Comparison.part (c : Comparison) (line : String) : List Char :=
  let rest := (dropFields c.skippedFields line.toList).drop c.skippedCharacters
  let part := match c.compared with
    | some count => rest.take count
    | none => rest
  if c.folded then part.map Char.toUpper else part

/-- Groups neighbours that agree in `part`. -/
def group (part : String → List Char) : List String → List (List String)
  | [] => []
  | line :: rest =>
    match group part rest with
    | (next :: run) :: others =>
      if part line = part next then (line :: next :: run) :: others
      else [line] :: (next :: run) :: others
    | others => [line] :: others

/-- Where a gap stands among groups of lines. -/
inductive Gaps
  | none
  | before
  | between
  | behind
  | around
  deriving DecidableEq

/-- Puts gaps among groups of lines. -/
def Gaps.join (gaps : Gaps) (groups : List (List String)) : List String :=
  match gaps with
  | none => groups.flatten
  | before => groups.flatMap ("" :: ·)
  | between => [""].intercalate groups
  | behind => groups.flatMap (· ++ [""])
  | around => if groups = [] then [] else groups.flatMap ("" :: ·) ++ [""]

/-- Which lines are printed. -/
structure Choice where
  /-- Lines that stand alone. -/
  singles : Bool := true
  /-- One line of every run. -/
  firsts : Bool := true
  /-- All the others. -/
  later : Bool := false
  counts : Bool := false

/-- What is printed of a run. -/
def Choice.lines (choice : Choice) (run : List String) : List String :=
  let chosen := match run with
    | [] => []
    | [line] => if choice.singles then [line] else []
    | first :: rest =>
      if choice.later then run.dropLast ++ (if choice.firsts then rest.getLast?.toList else [])
      else if choice.firsts then [first] else []
  if choice.counts then chosen.map fun line =>
    let digits := toString run.length
    "".pushn ' ' (7 - digits.length) ++ digits ++ " " ++ line
  else chosen

end Runs

/-- Reads a number of fields or characters. -/
def readSkip (i : Invocation) (text fault : String) : Action Nat := do
  match readCount "" text with
  | .ok n => return n
  | .error .tooLarge => return 2 ^ 64
  | .error .malformed => die i.name s!"{Quoted.forShell text}: {fault}"

/-- Prints the lines of its input without their immediate repetitions. -/
def uniq (i : Invocation) : Action Unit := do
  let (options, operands) ← i.options
    { flags := "0123456789cdDiuz", valued := "fsw", attached := "AG",
      long := [("count", 'c'), ("repeated", 'd'), ("all-repeated", 'A'), ("group", 'G'),
        ("ignore-case", 'i'), ("unique", 'u'), ("skip-fields", 'f'), ("skip-chars", 's'),
        ("check-chars", 'w'), ("zero-terminated", 'z')] }
  let number (c : Char) (fault : String) : Action (Option Nat) := do
    match optionValue? options c with
    | none => return none
    | some text => return some (← readSkip i text fault)
  let fields ← number 'f' "invalid number of fields to skip"
  let characters ← number 's' "invalid number of bytes to skip"
  let compared ← number 'w' "invalid number of bytes to compare"
  let digits := String.ofList ((options.map (·.1)).filter Char.isDigit)
  let comparison : Runs.Comparison := {
    skippedFields := (fields.orElse fun _ => Text.readNat? digits).getD 0
    skippedCharacters := characters.getD 0
    compared, folded := hasOption options 'i' }
  let repeatedGaps ← match (options.reverse.find? (·.1 = 'A')).map (·.2) with
    | some (some text) =>
      chooseFrom i "all-repeated" text
        [("none", Runs.Gaps.none), ("prepend", .before), ("separate", .between)]
    | _ => pure .none
  let groupGaps ← match (options.reverse.find? (·.1 = 'G')).map (·.2) with
    | none => pure none
    | some none => pure (some Runs.Gaps.between)
    | some (some text) =>
      pure (some (← chooseFrom i "group" text
        [("prepend", Runs.Gaps.before), ("append", .behind), ("separate", .between),
          ("both", .around)]))
  let all := hasOption options 'D' || hasOption options 'A'
  let choice : Runs.Choice := {
    singles := !(hasOption options 'd' || all), firsts := !hasOption options 'u'
    later := all, counts := hasOption options 'c' }
  if groupGaps.isSome && (all || ['c', 'd', 'u'].any (hasOption options)) then
    misused i "--group is mutually exclusive with -c/-d/-D/-u"
  if all && hasOption options 'c' then
    misused i "printing all duplicated lines and repeat counts is meaningless"
  let (skipped, operands) := match operands with
    | first :: rest =>
      match first.toList with
      | '+' :: cs => match Text.readNat? (String.ofList cs) with
        | some n => (some n, rest)
        | none => (none, operands)
      | _ => (none, operands)
    | [] => (none, [])
  let comparison := { comparison with
    skippedCharacters := skipped.getD comparison.skippedCharacters }
  let (input, output) ← match operands with
    | [] => pure ("-", none)
    | [input] => pure (input, none)
    | [input, output] => pure (input, some output)
    | _ :: _ :: extra :: _ => misused i s!"extra operand {Quoted.plain extra}"
  let newline := if hasOption options 'z' then "\x00" else "\n"
  match ← openInput input with
  | .error cause => complainAbout i input cause; Action.exit 1
  | .ok fd => do
    let target ← match output with
      | none | some "-" => pure 1
      | some path =>
        match ← Action.openFile (.ofOctets path) .output with
        | .ok fd => pure fd
        | .error cause => complainAbout i path cause; Action.exit 1
    match ← Action.readAll fd with
    | .error cause => die i.name (s!"error reading {Quoted.always input}: " ++ errorWords cause)
    | .ok data =>
      let runs := Runs.group comparison.part (splitLines data.octets newline).1
      let lines := match groupGaps with
        | some gaps => gaps.join runs
        | none => repeatedGaps.join ((runs.map choice.lines).filter (· ≠ []))
      if let .error cause ← Action.writeAll target (.ofOctets (joinLines lines newline)) then
        die i.name ("write error: " ++ errorWords cause)

end JobShell.Tool
