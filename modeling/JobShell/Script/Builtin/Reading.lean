import JobShell.Script.Builtin.Arguments

/-!
# Reading lines

`read` takes one line of the standard input, byte by byte so that the rest is
left to others, and distributes its fields over variables.
-/

namespace JobShell.Script

open Machine (Action)

/-- The next byte of the standard input. -/
def nextByte : Action (Option Char) := do
  match ← Action.read 0 1 with
  | .ok [b] => return some (Char.ofNat b.toNat)
  | _ => return none

/-- A line of standard input, byte by byte, and whether its end was read. A
character behind a backslash is marked, unless backslashes are `raw`. -/
def readLine (raw : Bool) : (bytes : Nat) → (line : List (Char × Bool)) →
    Action (List (Char × Bool) × Bool)
  | 0, line => return (line.reverse, false)
  | bytes + 1, line => do
    match ← nextByte with
    | none => return (line.reverse, false)
    | some '\n' => return (line.reverse, true)
    | some '\\' =>
      if raw then readLine raw bytes (('\\', false) :: line)
      else
        match ← nextByte with
        | none => return (line.reverse, false)
        | some '\n' => readLine raw bytes line
        | some c => readLine raw bytes ((c, true) :: line)
    | some c => readLine raw bytes (if c = '\x00' then line else (c, false) :: line)

/-- Gives each name a field of the line, the last one all that is left. -/
def distribute (separators : List Char) (line : List (Char × Bool)) :
    List String → List (String × String)
  | [] => []
  | [name] =>
    let rest := (skipBlank line).reverse
    let rest := (skipBlank rest).reverse
    let (first, left) := field rest
    let text := if left = [] then first else rest
    [(name, String.ofList (text.map (·.1)))]
  | name :: names =>
    let (first, left) := field (skipBlank line)
    (name, String.ofList (first.map (·.1))) :: distribute separators left names
where
  isBlank (item : Char × Bool) : Bool :=
    !item.2 && separators.contains item.1 && (item.1 = ' ' || item.1 = '\t' || item.1 = '\n')
  isSeparator (item : Char × Bool) : Bool := !item.2 && separators.contains item.1
  skipBlank (items : List (Char × Bool)) : List (Char × Bool) := items.dropWhile isBlank
  /-- The first field, and what follows the separator behind it. -/
  field (items : List (Char × Bool)) : List (Char × Bool) × List (Char × Bool) :=
    let first := items.takeWhile (!isSeparator ·)
    let rest := skipBlank (items.drop first.length)
    match rest with
    | item :: more => if isSeparator item then (first, skipBlank more) else (first, rest)
    | [] => (first, [])

/-- Gives variables their values, one after the other. -/
def assignFields : List (String × String) → Sh Unit
  | [] => return ()
  | (name, value) :: rest => do
    if !isVariableName name then abandon (name ++ ": bad variable name")
    setVariable name value
    assignFields rest

/-- Reads a line into variables. A prompt is only shown on a terminal. -/
def readBuiltin (arguments : List String) : Sh Nat := do
  let (options, names) ← readFlags "r" "p" arguments
  if let some prompt := options.lookup 'p' then
    if ← Action.isTerminal 0 then Tool.complain prompt
  if names = [] then abandon "arg count"
  let (line, ended) ← readLine (options.any (·.1 = 'r')) Action.manyTimes []
  assignFields (distribute (← get).separators line names)
  return if ended then 0 else 1

end JobShell.Script
