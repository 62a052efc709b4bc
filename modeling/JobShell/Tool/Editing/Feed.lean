import JobShell.Tool.Basic

/-!
# Lines of several inputs

A feed hands over the lines of inputs one at a time. It knows whether there
is another one without handing it over.
-/

namespace JobShell.Tool.Editing

open Machine (Action)

/-- Inputs whose lines are handed over. -/
structure Feed where
  newline : Char := '\n'
  /-- How many bytes are read at a time. -/
  blockSize : Nat := 4096
  /-- The input that is read. -/
  fd : Option Fd := none
  /-- Its name. -/
  name : String := "-"
  /-- Lines that were read. -/
  lines : List String := []
  /-- The beginning of a line that was read. -/
  rest : String := ""
  /-- Nothing more can be read from the input. -/
  isDone : Bool := false

namespace Feed

/-- Whether there is a line that was read. -/
def hasLine (f : Feed) : Bool := f.lines ≠ [] || f.rest ≠ ""

/-- A feed of an input. -/
def ofInput (f : Feed) (name : String) (fd : Fd) : Feed :=
  { f with fd := some fd, name, lines := [], rest := "", isDone := false }

/-- Reads up to the end of a line, unless one was read already. -/
def fill (f : Feed) : Action (Except OsError Feed) := do
  match f.fd with
  | none => return .ok f
  | some fd =>
    if f.lines ≠ [] ∨ f.isDone then return .ok f
    else
      let result ← foldPieces fd f.rest
      match result with
      | .error cause => return .error cause
      | .ok (text, found) =>
        let (lines, isEnded) := splitLines text f.newline.toString
        if isEnded then return .ok { f with lines, rest := "", isDone := !found }
        else
          return .ok { f with lines := lines.dropLast, rest := lines.getLastD ""
                              isDone := !found }
where
  /-- What can be read up to a block with the end of a line, and whether there
  is such a block. -/
  foldPieces (fd : Fd) (front : String) : Action (Except OsError (String × Bool)) := do
    let result ← go Action.manyTimes fd [front]
    return result.map fun (pieces, found) => (String.join pieces.reverse, found)
  go : Nat → Fd → List String → Action (Except OsError (List String × Bool))
    | 0, _, pieces => return .ok (pieces, false)
    | times + 1, fd, pieces => do
      match ← Action.read fd f.blockSize with
      | .error e => if e.isInterrupted then go times fd pieces else return .error e
      | .ok [] => return .ok (pieces, false)
      | .ok block =>
        let text := block.octets
        if text.contains f.newline then return .ok (text :: pieces, true)
        else go times fd (text :: pieces)

/-- Takes a line that was read; the flag says whether it has an end. -/
def take? (f : Feed) : Option (String × Bool × Feed) :=
  match f.lines with
  | line :: lines => some (line, true, { f with lines })
  | [] => if f.rest = "" then none else some (f.rest, false, { f with rest := "" })

/-- How many bytes were read and not handed over. -/
def surplus (f : Feed) : Nat :=
  f.lines.foldl (fun n line => n + line.length + 1) f.rest.length

/-- Gives back what was read and not handed over, if the input allows it. -/
def giveBack (f : Feed) : Action Unit := do
  match f.fd with
  | some fd =>
    if f.surplus ≠ 0 then
      let _ ← Action.call (.seek fd (-(f.surplus : Int)))
  | none => return ()

/-- Closes the input. -/
def close (f : Feed) : Action Feed := do
  if let some fd := f.fd then closeInput fd
  return { f with fd := none, lines := [], rest := "", isDone := false }

end Feed

end JobShell.Tool.Editing
