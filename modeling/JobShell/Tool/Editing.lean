import JobShell.Tool.Editing.Reader
import JobShell.Tool.Editing.Run

/-!
# Edited lines

`sed` edits the lines of its inputs by a script.
-/

namespace JobShell.Tool

open Machine (Action)

namespace Editing

/-- The options of `sed`. -/
def options : OptionTable where
  flags := "bnrszuE"
  valued := "efl"
  attached := "i"
  long := [("binary", 'b'), ("regexp-extended", 'r'), ("in-place", 'i'), ("expression", 'e'),
    ("file", 'f'), ("line-length", 'l'), ("null-data", 'z'), ("zero-terminated", 'z'),
    ("quiet", 'n'), ("posix", 'P'), ("silent", 'n'), ("sandbox", 'S'), ("separate", 's'),
    ("unbuffered", 'u'), ("follow-symlinks", 'L')]

/-- Reads the parts of a script that options name. The result has the number
of arguments, whether the script asks for silence, and what was read. -/
def readParts (i : Invocation) (d : Dialect) : (arguments : Nat) → (isFirst silent : Bool) →
    Draft → List GivenOption → Action (Nat × Bool × Draft)
  | arguments, _, silent, draft, [] => return (arguments, silent, draft)
  | arguments, isFirst, silent, draft, ('e', some text) :: rest => do
    let silent := silent || (isFirst && asksForSilence text)
    let draft ← take draft (.argument (arguments + 1)) text
    readParts i d (arguments + 1) false silent draft rest
  | arguments, isFirst, silent, draft, ('f', some name) :: rest => do
    let data ← match ← openInput name with
      | .error cause => pure (.error cause)
      | .ok fd => do
        let data ← Action.readAll fd
        closeInput fd
        pure data
    match data with
    | .error cause => die i.name s!"couldn't open file {name}: {errorWords cause}" editingFault
    | .ok data =>
      let silent := silent || (isFirst && asksForSilence data.octets)
      let draft ← take draft (.file name) data.octets
      readParts i d arguments false silent draft rest
  | arguments, isFirst, silent, draft, _ :: rest =>
    readParts i d arguments isFirst silent draft rest
where
  take (draft : Draft) (origin : Origin) (text : String) : Action Draft := do
    match draft.read d origin text with
    | .ok draft => return draft
    | .error text => die i.name text

/-- Opens the files that a script writes to. -/
def openSinks (i : Invocation) : List String → Action (List (String × Sink))
  | [] => return [(standardOutput, { fd := some 1 })]
  | file :: files => do
    if file = standardOutput ∨ files.contains file then openSinks i files
    else if file = "/dev/stderr" then
      return (file, { fd := some 2 }) :: (← openSinks i files)
    else
      match ← Action.openFile (.ofOctets file) .output with
      | .error cause => die i.name s!"couldn't open file {file}: {errorWords cause}" editingFault
      | .ok fd => return (file, { fd := some fd }) :: (← openSinks i files)

/-- Ends an editor that was called wrongly. -/
def refuse (i : Invocation) : Action α := do
  complain (s!"Usage: {i.name} [OPTION]... \x7bscript-only-if-no-other-script\x7d " ++
    "[input-file]...\n\n")
  Action.exit 1

end Editing

open Editing in
/-- Edits lines by a script. -/
def sed (i : Invocation) : Action Unit := do
  match readOptions options false (i.arguments.length + 1) i.arguments with
  | .error text => do
    complainAs i.name text
    refuse i
  | .ok (given, operands) => do
    let isScript : GivenOption → Bool := fun (c, _) => c = 'e' || c = 'f'
    let (parts, operands) ← match given.any isScript, operands with
      | true, operands => pure (given, operands)
      | false, script :: operands => pure ([('e', some script)], operands)
      | false, [] => refuse i
    let extended := hasOption given 'E' || hasOption given 'r'
    let (arguments, silent, draft) ←
      readParts i { extended, confined := hasOption given 'S' } 0 true false {} parts
    match draft.finish with
    | .error text => die i.name text
    | .ok steps => do
      let inPlace := (given.reverse.find? (·.1 = 'i')).map fun (_, ending) => ending.getD ""
      let indexed := steps.zipIdx.map fun (step, index) => (index, step)
      let width := match optionValue? given 'l' with
        | some text => Text.natOfDigits (text.toList.takeWhile Char.isDigit)
        | none => 70
      let unbuffered := hasOption given 'u'
      let plan : Plan := {
        steps := indexed
        quiet := silent || hasOption given 'n'
        separate := hasOption given 's' || inPlace.isSome
        unbuffered
        strict := hasOption given 'P'
        newline := if hasOption given 'z' then Char.ofNat 0 else '\n'
        width
        inPlace
        arguments }
      if let some label := missingLabel? indexed then
        die i.name ("can't find label for jump to " ++ quoted label) editingFault
      let sinks ← openSinks i (outputFiles steps)
      if inPlace.isSome ∧ operands = [] then die i.name "no input files" editingFault
      let editor : Editor := {
        feed := { newline := plan.newline, blockSize := if unbuffered then 1 else 4096 }
        operands := if operands = [] then ["-"] else operands
        progress := plan.progress
        sinks }
      editor.runLines i plan Action.manyTimes false

end JobShell.Tool
