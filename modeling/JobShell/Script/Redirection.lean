import JobShell.Script.Expansion

/-!
# Redirections in scripts

Redirections are made in the shell itself. Around a command they are undone
afterwards: what a descriptor referred to is kept at a high number until
then.
-/

namespace JobShell.Script

open Machine (Action)

/-- What a descriptor referred to: a duplicate out of the way, or nothing. -/
abbrev SavedFd := Fd × Option Fd

/-- The wording of a failure to open a file, or to create it. -/
def openingWords (creates : Bool) (target : String) (cause : OsError) : String :=
  let reason :=
    if cause = .noEntry ∨ cause = .notDirectory then
      if creates then "Directory nonexistent" else "No such file"
    else Tool.errorWords cause
  (if creates then "cannot create " else "cannot open ") ++ target ++ ": " ++ reason

/-- Saves what a descriptor refers to. -/
def saveFd (fd : Fd) : Action SavedFd := do
  match ← Action.askNumber (.duplicate fd 10 true) with
  | .ok copy => return (fd, some copy)
  | .error _ => return (fd, none)

/-- Brings descriptors back, the last one saved first. -/
def restoreFds : List SavedFd → Action Unit
  | [] => return ()
  | (fd, saved?) :: rest => do
    match saved? with
    | some copy =>
      let _ ← Action.ask (.duplicateOnto copy fd)
      Action.close copy
    | none => Action.close fd
    restoreFds rest

/-- Moves a descriptor to the number it is wanted at. -/
def moveFd (source target : Fd) : Action Unit := do
  if source ≠ target then
    let _ ← Action.ask (.duplicateOnto source target)
    Action.close source

/-- Opens the file of a redirection at its descriptor; the reason if that
fails. -/
def redirectFile (fd : Fd) (target : String) (mode : Machine.OpenMode) (creates : Bool) :
    Action (Option String) := do
  match ← Action.openFile (.ofOctets target) mode with
  | .error cause => return some (openingWords creates target cause)
  | .ok opened =>
    moveFd opened fd
    return none

/-- Creates or empties a file at a descriptor, unless existing files are
protected from that; the reason if it fails. -/
def createFile (fd : Fd) (target : String) : Sh (Option String) := do
  let existing ← if (← get).options.contains 'C' then Action.facts (.ofOctets target)
    else pure (.error .noEntry)
  match existing.toOption.filter (·.kind = .regular) with
  | some _ => return some (openingWords true target .fileExists)
  | none => redirectFile fd target .output true

/-- Makes a descriptor a duplicate of the one that `source` names, or closes
it; the reason if that fails. -/
def duplicateFd (fd : Fd) (source : String) : Sh (Option String) := do
  match source.toList with
  | ['-'] =>
    Action.close fd
    return none
  | [c] =>
    if c.isDigit then
      match ← Action.ask (.duplicateOnto (c.toNat - '0'.toNat : Nat) fd) with
      | .ok () => return none
      | .error cause => return some (source ++ ": " ++ Tool.errorWords cause)
    else abandon "Syntax error: Bad fd number"
  | _ => abandon "Syntax error: Bad fd number"

/-- Gives a text as input at a descriptor; the reason if that fails. -/
def provideText (fd : Fd) (text : String) : Sh (Option String) := do
  match ← Action.makePipe with
  | .error _ => return some "Pipe call failed"
  | .ok (reader, writer) =>
    let _ ← Action.fork do
      Action.close reader
      let _ ← Action.writeAll writer (.ofOctets text)
    Action.close writer
    moveFd reader fd
    return none

/-- Makes one redirection; the reason if that fails. -/
def redirectOne (substitute : Command → Sh String) : Redirect → Sh (Option String)
  | .of fd kind target => do
    match kind with
    | .document number =>
      let text := ((← get).documents.lookup number).getD []
      provideText fd (← expandText substitute text)
    | kind =>
      let target ← expandText substitute target
      match kind with
      | .input => redirectFile fd target .input false
      | .output => createFile fd target
      | .overwrite => redirectFile fd target .output true
      | .append => redirectFile fd target .append true
      | .update => redirectFile fd target .update true
      | _ => duplicateFd fd target

/-- Makes redirections from left to right. With `keep` the descriptors are
saved before. A failure is complained about, and what was done until then is
undone. -/
def redirect (substitute : Command → Sh String) (keep : Bool) :
    (saved : List SavedFd) → List Redirect → Sh (Option (List SavedFd))
  | saved, [] => return some saved
  | saved, .of fd kind target :: rest => do
    let saved ← if keep && !saved.any (·.1 = fd) then
        pure ((← saveFd fd) :: saved)
      else pure saved
    match ← redirectOne substitute (.of fd kind target) with
    | none => redirect substitute keep saved rest
    | some reason => do
      complain reason
      if keep then restoreFds saved
      return none

end JobShell.Script
