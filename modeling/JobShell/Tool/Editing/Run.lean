import JobShell.Tool.Editing.Feed
import JobShell.Tool.Editing.Passage

/-!
# Running an editing script

A script is run for every line that is read. An `Editor` is what is known in
between: the passage that is edited and the one that is kept, the inputs, the
outputs, and how far ranges of lines have come. Output is held back until
there is enough of it, as that of other programs is.
-/

namespace JobShell.Tool.Editing

open Machine (Action Facts FileKind)

/-! ## States -/

/-- What is done, and how. -/
structure Plan where
  steps : List (Nat × Step)
  /-- Passages are only printed where a step says so. -/
  quiet : Bool := false
  /-- Every input has lines, and a last one, of its own. -/
  separate : Bool := false
  /-- Output is not held back. -/
  unbuffered : Bool := false
  /-- A passage that lacks a next line is not printed. -/
  strict : Bool := false
  newline : Char := '\n'
  /-- How long the lines of a listing are. -/
  width : Nat := 70
  /-- Inputs are replaced by the output; what the names of copies end in. -/
  inPlace : Option String := none
  /-- How many arguments the script came from. -/
  arguments : Nat := 1

/-- How far a range of lines has come. -/
inductive Progress
  | waiting
  /-- Inside of the range, whose last line is known or not. -/
  | inside (last : Option Nat)
  | passed
  deriving DecidableEq, Repr

/-- What is printed behind a passage. -/
inductive Addition
  | text (text : String)
  | file (name : String)

/-- Where output goes. -/
structure Sink where
  /-- None if output is only collected. -/
  fd : Option Fd := none
  /-- What was not written yet, the last piece first. -/
  held : List String := []
  size : Nat := 0
  /-- The last line has no end yet. -/
  lacksEnd : Bool := false

/-- The state of a run. -/
structure Editor where
  feed : Feed
  /-- The inputs that were not opened yet. -/
  operands : List String
  passage : Passage := {}
  kept : Passage := {}
  /-- Something was replaced. -/
  replaced : Bool := false
  /-- The number of the last line that was read. -/
  number : Nat := 0
  /-- The pattern that was used last. -/
  pattern : Option Pattern := none
  progress : List (Nat × Progress)
  additions : List Addition := []
  sinks : List (String × Sink)
  /-- The files that single lines are taken from. -/
  sources : List (String × Feed) := []
  /-- Some input could not be opened. -/
  failed : Bool := false

/-- How a script ends. -/
inductive Outcome
  | finished
  /-- The passage is not printed. -/
  | dropped
  /-- The same, and no line is read before the script begins again. -/
  | again
  | quit (prints : Bool) (status : Nat)

/-- The name of the standard output. -/
def standardOutput : String := "/dev/stdout"

/-- The status of an editor that can not go on. -/
def editingFault : Nat := 4

/-- The ranges at the beginning. One that starts at line zero has begun. -/
def Plan.progress (p : Plan) : List (Nat × Progress) :=
  p.steps.filterMap fun (index, step) =>
    match step.selector with
    | .range (.line 0) _ => some (index, .inside none)
    | .range _ _ => some (index, .waiting)
    | _ => none

/-- The output that passages go to; no file has this name. -/
def mainOutput : String := ""

/-- The output where a text for an output is held back: passages go to the
standard output unless they take the place of their input. -/
def Plan.buffer (p : Plan) (name : String) : String :=
  if name = mainOutput ∧ p.inPlace.isNone then standardOutput else name

namespace Editor

/-! ## Output -/

/-- Where output to a file goes. -/
def sink (e : Editor) (name : String) : Sink := (e.sinks.lookup name).getD {}

/-- Replaces where output to a file goes. -/
def setSink (e : Editor) (name : String) (sink : Sink) : Editor :=
  { e with sinks := (name, sink) :: e.sinks.filter (·.1 ≠ name) }

/-- Writes what was held back. -/
def flush (i : Invocation) (e : Editor) (name : String) : Action Editor := do
  let sink := e.sink name
  match sink.fd, sink.held with
  | none, _ | _, [] => return e
  | some fd, held =>
    match ← Action.writeAll fd (.ofOctets (String.join held.reverse)) with
    | .ok () => return e.setSink name { sink with held := [], size := 0 }
    | .error cause =>
      let shown := if name = standardOutput then "stdout" else name
      die i.name s!"couldn't flush {shown}: {errorWords cause}" editingFault

/-- Ends with a complaint. What was held back is written. -/
def abort (i : Invocation) (e : Editor) (text : String) (status : Nat := editingFault) :
    Action α := do
  complainAs i.name text
  let _ ← e.flush i standardOutput
  Action.exit status

/-- Adds a text to an output as it is. -/
def put (i : Invocation) (p : Plan) (e : Editor) (name text : String) : Action Editor := do
  let name := p.buffer name
  let sink := e.sink name
  let sink := { sink with held := text :: sink.held, size := sink.size + text.length }
  let e := e.setSink name sink
  if name = standardOutput ∧ !p.unbuffered ∧ sink.size < 4096 then return e
  else e.flush i name

/-- Adds an end to the last line of an output if it lacks one. -/
def endLine (i : Invocation) (p : Plan) (e : Editor) (name : String) : Action Editor := do
  let sink := e.sink name
  if sink.lacksEnd then
    (e.setSink name { sink with lacksEnd := false }).put i p name p.newline.toString
  else return e

/-- Adds a passage to an output. -/
def putPassage (i : Invocation) (p : Plan) (e : Editor) (name : String) (passage : Passage) :
    Action Editor := do
  let e ← e.endLine i p name
  let e ← e.put i p name (if passage.isEnded then passage.text.push p.newline else passage.text)
  return e.setSink name { e.sink name with lacksEnd := !passage.isEnded }

/-- Prints a text where passages are printed. -/
def print (i : Invocation) (p : Plan) (e : Editor) (text : String) : Action Editor := do
  let e ← e.endLine i p mainOutput
  e.put i p mainOutput text

/-- Prints the passage. -/
def printPassage (i : Invocation) (p : Plan) (e : Editor) : Action Editor :=
  e.putPassage i p mainOutput e.passage

/-- Prints what is wanted behind the passage. -/
def printAdditions (i : Invocation) (p : Plan) (e : Editor) : Action Editor := do
  let rec go (e : Editor) : List Addition → Action Editor
    | [] => return e
    | .text text :: rest => do go (← e.print i p text) rest
    | .file name :: rest => do
      let e ← e.endLine i p mainOutput
      match ← Action.openFile (.ofOctets name) .input with
      | .error _ => go e rest
      | .ok fd =>
        let data ← Action.readAll fd
        Action.close fd
        match data with
        | .ok data => do go (← e.put i p mainOutput data.octets) rest
        | .error cause => e.abort i s!"read error on {name}: {errorWords cause}"
  go { e with additions := [] } e.additions

/-! ## Input -/

/-- The name of a copy of an edited file: a star in the ending stands for the
name, and an ending without one is put behind it. -/
def copyName (path ending : String) : String :=
  let base := (path.toList.reverse.takeWhile (· ≠ '/')).reverse
  let directory := path.toList.take (path.length - base.length)
  let name :=
    if ending.contains '*' then
      ending.toList.flatMap fun c => if c = '*' then base else [c]
    else base ++ ending.toList
  String.ofList (if name.contains '/' then name else directory ++ name)

/-- Puts a text in the place of a file. -/
def replaceFile (i : Invocation) (e : Editor) (path ending text : String) : Action Unit := do
  let base := (path.toList.reverse.takeWhile (· ≠ '/')).reverse
  let directory := String.ofList (path.toList.take (path.length - base.length))
  let temporary := (if directory = "" then "./" else directory) ++ "sedXXXXXX"
  match ← Action.openFile (.ofOctets temporary) .output with
  | .error cause => e.abort i s!"couldn't open temporary file {temporary}: {errorWords cause}"
  | .ok fd =>
    let written ← Action.writeAll fd (.ofOctets text)
    Action.close fd
    if let .error cause := written then
      e.abort i s!"couldn't flush {temporary}: {errorWords cause}"
    if let .ok facts ← Action.facts (.ofOctets path) then
      let _ ← Action.ask (.setExecutable (.ofOctets temporary) facts.executable)
    if ending ≠ "" then
      let moved ← Action.ask (.rename (.ofOctets path) (.ofOctets (copyName path ending)))
      if let .error cause := moved then
        let _ ← Action.ask (.remove (.ofOctets temporary))
        e.abort i s!"cannot rename {path}: {errorWords cause}"
    match ← Action.ask (.rename (.ofOctets temporary) (.ofOctets path)) with
    | .ok () => return ()
    | .error cause => e.abort i s!"cannot rename {temporary}: {errorWords cause}"

/-- Closes the input. One that is edited in place is replaced. -/
def closeFeed (i : Invocation) (p : Plan) (e : Editor) : Action Editor := do
  let isOpen := e.feed.fd.isSome
  let feed ← e.feed.close
  let e := { e with feed }
  match p.inPlace with
  | some ending =>
    if isOpen then
      e.replaceFile i feed.name ending (String.join (e.sink mainOutput).held.reverse)
      return e.setSink mainOutput {}
    else return e
  | none => return e

/-- Goes on to the next input. -/
def openNext (i : Invocation) (p : Plan) (e : Editor) : Action Editor := do
  let e ← e.closeFeed i p
  match e.operands with
  | [] => return e
  | operand :: operands => do
    let e := { e with operands }
    let opened ←
      if p.inPlace.isSome then Action.openFile (.ofOctets operand) .input else openInput operand
    match opened with
    | .error cause =>
      complainAs i.name s!"can't read {operand}: {errorWords cause}"
      return { e with failed := true }
    | .ok fd => do
      if p.inPlace.isSome then
        if let .ok facts ← Action.factsOf fd then
          if facts.kind ≠ FileKind.regular then
            e.abort i s!"couldn't edit {operand}: not a regular file"
      let e := { e with feed := e.feed.ofInput operand fd }
      return if p.separate then { e with number := 0, progress := p.progress } else e

/-- Sees to it that a line was read if the input has one. -/
def fill (i : Invocation) (e : Editor) : Action Editor := do
  match ← e.feed.fill with
  | .ok feed => return { e with feed }
  | .error cause =>
    let name := if e.feed.name = "-" then "stdin" else e.feed.name
    e.abort i s!"read error on {name}: {errorWords cause}"

/-- Whether there is no line left; `inputs` bounds how many inputs there are
to look at. -/
def isLast (i : Invocation) (p : Plan) : (inputs : Nat) → Editor → Action (Editor × Bool)
  | 0, e => return (e, true)
  | inputs + 1, e => do
    let e ← e.fill i
    if e.feed.hasLine then return (e, false)
    else if p.separate ∨ e.operands = [] then return (e, true)
    else isLast i p inputs (← e.openNext i p)

/-- Takes the next line, if there is one; `inputs` bounds how many inputs
there are to look at. The flag says whether the line has an end. -/
def nextLine? (i : Invocation) (p : Plan) : (inputs : Nat) → Editor →
    Action (Editor × Option (String × Bool))
  | 0, e => return (e, none)
  | inputs + 1, e => do
    let e ← e.fill i
    match e.feed.take? with
    | some (line, isEnded, feed) =>
      return ({ e with feed, number := e.number + 1, replaced := false }, some (line, isEnded))
    | none =>
      if e.operands = [] then return (e, none) else nextLine? i p inputs (← e.openNext i p)

/-- How many inputs there can be to look at. -/
def inputs (e : Editor) : Nat := e.operands.length + 2

/-! ## Selecting lines -/

/-- Takes a pattern, or the one that was used last. -/
def use (i : Invocation) (p : Plan) (e : Editor) (pattern : Option Pattern) :
    Action (Editor × Pattern) := do
  match pattern, e.pattern with
  | some pattern, _ => return ({ e with pattern := some pattern }, pattern)
  | none, some pattern => return (e, pattern)
  | none, none =>
    e.abort i s!"-e expression #{p.arguments}, char 0: no previous regular expression" 1

/-- Whether an address is that of the last line read. -/
def isAt (i : Invocation) (p : Plan) (e : Editor) : Address → Action (Editor × Bool)
  | .line n => return (e, e.number = n)
  | .every first step => return (e, first ≤ e.number && (e.number - first) % step = 0)
  | .last => e.isLast i p e.inputs
  | .matching pattern => do
    let (e, pattern) ← e.use i p pattern
    return (e, pattern.isIn e.passage.text)

/-- How far the range of a step has come. -/
def progressOf (e : Editor) (index : Nat) : Progress := (e.progress.lookup index).getD .waiting

/-- Replaces how far the range of a step has come. -/
def setProgress (e : Editor) (index : Nat) (progress : Progress) : Editor :=
  { e with progress := (index, progress) :: e.progress.filter (·.1 ≠ index) }

/-- Begins a range here. -/
def beginRange (e : Editor) (index : Nat) (finish : RangeEnd) : Editor :=
  let upTo (last : Nat) : Editor :=
    e.setProgress index (if last ≤ e.number then .passed else .inside (some last))
  match finish with
  | .address (.line n) => upTo n
  | .address _ => e.setProgress index (.inside none)
  | .after count => upTo (e.number + count)
  | .multiple n => upTo (if n = 0 then e.number else e.number / n * n + n)

/-- Whether a step is for the line that was read. A range that starts at the
number of a line starts only once, if need be later. -/
def selects (i : Invocation) (p : Plan) (e : Editor) (index : Nat) :
    Selector → Action (Editor × Bool)
  | .all => return (e, true)
  | .only a => e.isAt i p a
  | .range first finish => do
    match e.progressOf index, finish with
    | .inside (some last), _ =>
      let e := if last ≤ e.number then e.setProgress index .passed else e
      return (e, e.number ≤ last)
    | .inside none, .address a => do
      let (e, ends) ← e.isAt i p a
      return (if ends then e.setProgress index .passed else e, true)
    | progress, _ => do
      let (e, begins) ← match first with
        | .line n => pure (e, n ≤ e.number && progress ≠ .passed)
        | a => e.isAt i p a
      return (if begins then e.beginRange index finish else e, begins)

/-! ## Steps -/

/-- What a command prints. -/
def outputOf (i : Invocation) (command : String) : Action String := do
  match ← Action.makePipe with
  | .error _ => return ""
  | .ok (reader, writer) => do
    let worker ← Action.fork do
      Action.close reader
      if writer ≠ 1 then
        let _ ← Action.ask (.duplicateOnto writer 1)
        Action.close writer
      let _ ← Action.call (.execute (.ofString "/bin/sh")
        (["sh", "-c"].map Bytes.ofString ++ [.ofOctets command]) i.environment)
      Action.exit 127
    Action.close writer
    let data ← Action.readAll reader
    Action.close reader
    let _ ← Action.wait (some worker)
    return (data.toOption.getD []).octets

/-- Replaces the passage by what it prints as a command. -/
def runPassage (i : Invocation) (p : Plan) (e : Editor) : Action Editor := do
  let e ← e.flush i standardOutput
  let output ← outputOf i e.passage.text
  let lines := output.toList
  let text := if lines.getLast? = some p.newline then lines.dropLast else lines
  return { e with passage := { e.passage with text := String.ofList text } }

/-- Prints the next line of a file behind the passage. -/
def addLine (i : Invocation) (p : Plan) (e : Editor) (name : String) : Action Editor := do
  let feed ← match e.sources.lookup name with
    | some feed => pure feed
    | none => do
      let empty : Feed := { newline := p.newline }
      match ← Action.openFile (.ofOctets name) .input with
      | .ok fd => pure (empty.ofInput name fd)
      | .error _ => pure empty
  match ← feed.fill with
  | .error cause => e.abort i s!"read error on {name}: {errorWords cause}"
  | .ok feed =>
    let (feed, additions) := match feed.take? with
      | some (line, isEnded, feed) =>
        (feed, [Addition.text (if isEnded then line.push p.newline else line)])
      | none => (feed, [])
    return { e with sources := (name, feed) :: e.sources.filter (·.1 ≠ name)
                    additions := e.additions ++ additions }

/-- Does a substitution. -/
def substitute (i : Invocation) (p : Plan) (e : Editor) (sub : Substitution) :
    Action Editor := do
  let (e, pattern) ← e.use i p sub.pattern
  match sub.apply? pattern e.passage.text with
  | none => return e
  | some text => do
    let e := { e with passage := { e.passage with text }, replaced := true }
    let e ← if sub.runs then e.runPassage i p else pure e
    let e ← if sub.prints then e.printPassage i p else pure e
    match sub.file with
    | some file => e.putPassage i p file e.passage
    | none => return e

/-- Carries out an edit after which the next step follows. -/
def carryOut (i : Invocation) (p : Plan) (e : Editor) (edit : Edit) : Action Editor := do
  let first : Passage := { text := (e.passage.firstLine p.newline).1 }
  let isWhole := (e.passage.firstLine p.newline).2.isNone
  let firstPassage := { first with isEnded := e.passage.isEnded || !isWhole }
  match edit with
  | .showNumber => e.print i p (toString e.number ++ p.newline.toString)
  | .showName => e.print i p (e.feed.name ++ p.newline.toString)
  | .append text => return { e with additions := e.additions ++ [.text text] }
  | .insert text => if text = "" then return e else e.print i p text
  | .insertFile name => return { e with additions := e.additions ++ [.file name] }
  | .insertLine name => e.addLine i p name
  | .run (some command) => do
    let e ← e.endLine i p mainOutput
    let e ← e.flush i standardOutput
    e.put i p mainOutput (← outputOf i command)
  | .run none => do
    let e ← e.runPassage i p
    return { e with passage := { e.passage with isEnded := true } }
  | .print => e.printPassage i p
  | .printFirst => e.putPassage i p mainOutput firstPassage
  | .write file => e.putPassage i p file e.passage
  | .writeFirst file => e.putPassage i p file firstPassage
  | .list width =>
    e.print i p (listing (width.getD p.width) e.passage.text ++ p.newline.toString)
  | .fetch => return { e with passage := e.kept }
  | .fetchMore => return { e with passage := e.passage.append p.newline e.kept }
  | .keep => return { e with kept := e.passage }
  | .keepMore => return { e with kept := e.kept.append p.newline e.passage }
  | .exchange => return { e with passage := e.kept, kept := e.passage }
  | .clear => return { e with passage := { e.passage with text := "" } }
  | .substitute sub => e.substitute i p sub
  | .translate table => return { e with passage := e.passage.translate table }
  | _ => return e

/-- Whether a jump is made. One that asks whether something was replaced
forgets about it. -/
def jumps (e : Editor) : JumpCondition → Editor × Bool
  | .always => (e, true)
  | .replaced => ({ e with replaced := false }, e.replaced)
  | .notReplaced => ({ e with replaced := false }, !e.replaced)

/-- Runs the steps that are left; `count` bounds how many are run. -/
def runSteps (i : Invocation) (p : Plan) : (count : Nat) → Editor → List (Nat × Step) →
    Action (Editor × Outcome)
  | 0, e, _ | _, e, [] => return (e, .finished)
  | count + 1, e, (index, step) :: rest => do
    let (e, selected) ← e.selects i p index step.selector
    if selected = step.negated then
      let isBlock := match step.edit with
        | .openBlock => true
        | _ => false
      runSteps i p count e (if isBlock then skipBlock 0 rest else rest)
    else
      match step.edit with
      | .jump condition label =>
        let (e, jumps) := e.jumps condition
        runSteps i p count e (if jumps then (behindLabel? label p.steps).getD [] else rest)
      | .change text => do
        let isInside := match e.progressOf index with
          | .inside _ => true
          | _ => false
        let e ← if isInside then pure e else e.print i p text
        return (e, .dropped)
      | .delete => return (e, .dropped)
      | .deleteFirst =>
        match (e.passage.firstLine p.newline).2 with
        | none => return (e, .dropped)
        | some text => return ({ e with passage := { e.passage with text } }, .again)
      | .quit prints status => return (e, .quit prints status)
      | .next => do
        let (e, last) ← e.isLast i p e.inputs
        if last then return (e, if p.strict then .dropped else .finished)
        else
          let e ← if p.quiet then pure e else e.printPassage i p
          let e ← e.printAdditions i p
          match ← e.nextLine? i p e.inputs with
          | (e, none) => return (e, .dropped)
          | (e, some (text, isEnded)) =>
            runSteps i p count { e with passage := { text, isEnded } } rest
      | .nextMore => do
        let (e, last) ← e.isLast i p e.inputs
        if last then return (e, if p.strict then .dropped else .finished)
        else
          let e ← e.printAdditions i p
          match ← e.nextLine? i p e.inputs with
          | (e, none) => return (e, .finished)
          | (e, some (text, isEnded)) =>
            let passage := { e.passage.append p.newline { text } with isEnded }
            runSteps i p count { e with passage } rest
      | edit => do runSteps i p count (← e.carryOut i p edit) rest

/-! ## Lines -/

/-- Ends the run. -/
def finish (i : Invocation) (p : Plan) (e : Editor) (status : Nat) : Action Unit := do
  e.feed.giveBack
  let e ← e.closeFeed i p
  let e ← e.flush i standardOutput
  Action.exit (if e.failed then 2 else status)

/-- Runs the script for the lines that are left; `count` bounds how many
there are. If `again` is set, no line is read first. -/
def runLines (i : Invocation) (p : Plan) : (count : Nat) → (again : Bool) → Editor →
    Action Unit
  | 0, _, e => e.finish i p 0
  | count + 1, again, e => do
    let (e, passage) ← if again then pure (e, some e.passage) else do
      let (e, line) ← e.nextLine? i p e.inputs
      pure (e, line.map fun (text, isEnded) => { text, isEnded })
    match passage with
    | none => e.finish i p 0
    | some passage =>
      let (e, outcome) ← runSteps i p Action.manyTimes { e with passage } p.steps
      match outcome with
      | .finished => do
        let e ← if p.quiet then pure e else e.printPassage i p
        runLines i p count false (← e.printAdditions i p)
      | .dropped => do runLines i p count false (← e.printAdditions i p)
      | .again => do runLines i p count true (← e.printAdditions i p)
      | .quit prints status => do
        if !prints then e.finish i p status
        else
          let e ← if p.quiet then pure e else e.printPassage i p
          let e ← e.endLine i p mainOutput
          (← e.printAdditions i p).finish i p status

end Editor

end JobShell.Tool.Editing
