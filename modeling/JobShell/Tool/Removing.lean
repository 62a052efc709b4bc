import JobShell.Tool.Entries

/-!
# Removing

`rm` removes files, and directories with everything below them if that is
wanted. It can ask before.
-/

namespace JobShell.Tool

open Machine (Action Facts FileKind)

/-- When questions are asked. -/
inductive Asking
  | never
  /-- Once, if much would be removed. -/
  | once
  | always
  deriving DecidableEq, Repr

/-- The values of `--interactive`. -/
def askingNames : List (String × Asking) :=
  [("never", .never), ("no", .never), ("none", .never), ("once", .once), ("always", .always),
    ("yes", .always)]

/-- How things are removed. -/
structure Removing where
  recursive : Bool := false
  /-- Empty directories are removed. -/
  removesEmpty : Bool := false
  /-- What is not there is no failure. -/
  forced : Bool := false
  asking : Asking := .never
  tells : Bool := false

/-- What something is called in a question. -/
def kindName (facts : Facts) : String :=
  match facts.kind with
  | .regular => if facts.size = 0 then "regular empty file" else "regular file"
  | .directory => "directory"
  | .link => "symbolic link"
  | .pipe => "fifo"
  | .device => "character special file"

/-- Removes something and everything below it; `depth` bounds how deep. -/
def Removing.run (i : Invocation) (r : Removing) : (depth : Nat) → String → Action Bool
  | 0, _ => return false
  | depth + 1, path => do
    let shown := Quoted.always path
    let fail (cause : OsError) : Action Bool := do
      complainThat i s!"cannot remove {shown}" cause
      return false
    match ← Action.facts (.ofOctets path) false with
    | .error cause =>
      if r.forced && (cause = .noEntry || cause = .notDirectory) then return true else fail cause
    | .ok facts =>
      let mayRemove (_ : Unit) : Action Bool :=
        if r.asking = .always then confirm i s!"remove {kindName facts} {shown}" else return true
      if facts.kind ≠ .directory then
        if !(← mayRemove ()) then return true
        else
          match ← Action.ask (.remove (.ofOctets path)) with
          | .ok () => do
            if r.tells then say i.name s!"removed {shown}\n"
            return true
          | .error cause => fail cause
      else if !r.recursive && !r.removesEmpty then fail .isDirectory
      else
        let names ← if r.recursive then Action.names (.ofOctets path) else pure (.ok [])
        match names with
        | .error cause => fail cause
        | .ok names => do
          let enters ← if r.asking = .always && names ≠ [] then
              confirm i s!"descend into directory {shown}"
            else pure true
          if !enters then return true
          else
            let done ← withAll names fun name => r.run i depth (entryPath path name.octets)
            if !done then return false
            else if !(← mayRemove ()) then return true
            else
              match ← Action.ask (.removeDirectory (.ofOctets path)) with
              | .ok () => do
                if r.tells then say i.name s!"removed directory {shown}\n"
                return true
              | .error cause =>
                if r.asking = .always && cause = .notEmpty && r.recursive then return true
                else fail cause

/-- Removes an operand, unless that would be dangerous. -/
def Removing.runOperand (i : Invocation) (r : Removing) (path : String) : Action Bool := do
  let name := lastPart path
  if r.recursive && (name = "." || name = "..") then
    complainAs i.name
      s!"refusing to remove '.' or '..' directory: skipping {Quoted.always path}"
    return false
  else if r.recursive && path ≠ "" && unslashed path = "/" then
    complainAs i.name "it is dangerous to operate recursively on '/'"
    complainAs i.name "use --no-preserve-root to override this failsafe"
    return false
  else r.run i 1000 path

/-- Removes files and directories. -/
def rm (i : Invocation) : Action Unit := do
  let (options, operands) ← i.options
    { flags := "dfiIrRv", attached := "W"
      long := [("dir", 'd'), ("force", 'f'), ("interactive", 'W'), ("one-file-system", 'x'),
        ("no-preserve-root", 'x'), ("preserve-root", 'x'), ("recursive", 'r'),
        ("verbose", 'v')] }
  let has (c : Char) : Bool := hasOption options c
  let asking ← match options.reverse.find? fun (c, _) => "fiIW".contains c with
    | some ('i', _) | some ('W', none) => pure .always
    | some ('I', _) => pure .once
    | some ('W', some text) => chooseFrom i "interactive" text askingNames
    | _ => pure .never
  let recursive := has 'r' || has 'R'
  let forced := ((options.reverse.find? fun (c, _) => "fiI".contains c).map (·.1)) = some 'f'
  if operands = [] then
    if forced then Action.exit 0 else misused i "missing operand"
  if asking = .once && (recursive || 3 < operands.length) then
    let count := operands.length
    let noun := if count = 1 then "argument" else "arguments"
    if !(← confirm i (s!"remove {count} {noun}" ++ if recursive then " recursively" else "")) then
      Action.exit 0
  let r : Removing := { recursive, removesEmpty := has 'd', forced, asking, tells := has 'v' }
  forOperands i operands (r.runOperand i)

/-- Removes one file. -/
def unlink (i : Invocation) : Action Unit := do
  let (_, operands) ← i.options {}
  match operands with
  | [] => misused i "missing operand"
  | [path] => do
    let done ← attempt i s!"cannot unlink {Quoted.always path}" (.remove (.ofOctets path))
    Action.exit (if done then 0 else 1)
  | _ :: extra :: _ => misused i s!"extra operand {Quoted.plain extra}"

end JobShell.Tool
