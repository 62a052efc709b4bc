import JobShell.Text.Decimal
import JobShell.Tool.Launch

/-!
# Commands for the words of the input

`xargs` reads words, and runs a command with as many of them as fit, or as
many as it is told. Reading is a machine that takes one character at a time
(`Feed.Reader`); what it has found out are `Feed.Event`s.
-/

namespace JobShell.Tool

open Machine (Action)

namespace Feed

/-! ## Reading words -/

/-- What a character can mean. -/
inductive Mode
  /-- Between words. -/
  | blank
  | plain
  | quoted (by_ : Char)
  | escaped
  deriving DecidableEq

/-- What was found in the input. -/
inductive Event
  | word (text : String)
  /-- The end of a line; one with a blank in front of it goes on. -/
  | line (counts : Bool)
  | openQuote (by_ : Char)
  /-- The rest of the input is left alone. -/
  | stop
  deriving DecidableEq

/-- How words are divided. -/
structure Division where
  /-- The only character that divides; quotes mean nothing then. -/
  delimiter : Option Char := none
  /-- Blanks do not divide. -/
  byLine : Bool := false
  /-- The word that ends the input. -/
  last : Option String := none

/-- A reader in the middle of the input. -/
structure Reader where
  mode : Mode := .blank
  /-- The characters of the word, the last one first. -/
  text : List Char := []
  /-- A word was begun on the line. -/
  begun : Bool := false
  previous : Option Char := none

/-- The word that was read. -/
def Reader.word (r : Reader) : String := String.ofList r.text.reverse

/-- A word that was found, unless it ends the input. -/
def Division.found (d : Division) (text : String) : Event :=
  if d.last = some text then .stop else .word text

/-- Takes a character where quotes have a meaning. -/
def Reader.takeQuoting (d : Division) (r : Reader) (c : Char) : Reader × List Event :=
  let r' := { r with previous := some c }
  let isBlank := c = ' ' || c = '\t'
  let keep : Reader × List Event := ({ r' with mode := .plain, text := c :: r.text }, [])
  let plain : Reader × List Event :=
    if c = '\n' then
      let counts := !(r.previous = some ' ' || r.previous = some '\t')
      if r.text = [] ∧ !r.begun then ({ r' with mode := .blank }, [])
      else ({ previous := some c }, [d.found r.word, .line counts])
    else if !d.byLine && isBlank then
      ({ r' with mode := .blank, text := [], begun := false }, [d.found r.word])
    else if c = '\\' then ({ r' with mode := .escaped, begun := true }, [])
    else if c = '\'' ∨ c = '"' then ({ r' with mode := .quoted c, begun := true }, [])
    else ({ r' with mode := .plain, text := c :: r.text, begun := true }, [])
  match r.mode with
  | .blank => if isBlank || ('\n' ≤ c && c ≤ '\r') then (r', []) else plain
  | .plain => plain
  | .quoted quote =>
    if c = '\n' then (r', [.openQuote quote])
    else if c = quote then ({ r' with mode := .plain }, [])
    else ({ r' with text := c :: r.text }, [])
  | .escaped => keep

/-- Takes a character. -/
def Reader.take (d : Division) (r : Reader) (c : Char) : Reader × List Event :=
  match d.delimiter with
  | none => r.takeQuoting d c
  | some delimiter =>
    if c = delimiter then ({}, [.word r.word, .line true])
    else ({ r with text := c :: r.text }, [])

/-- What the end of the input means. -/
def Reader.finish (d : Division) (r : Reader) : List Event :=
  match r.mode with
  | .quoted quote => if r.text = [] then [] else [.openQuote quote]
  | _ => if r.text = [] then [] else [d.found r.word]

/-- Takes all characters of a block. -/
def Reader.run (d : Division) (r : Reader) : List Char → Reader × List Event
  | [] => (r, [])
  | c :: rest =>
    let (r, events) := r.take d c
    let (r, more) := run d r rest
    (r, events ++ more)

/-! ## Running commands -/

/-- How commands are made of words. -/
structure Setting where
  command : List String
  division : Division := {}
  /-- What is replaced by a word. Every word is a command of its own then. -/
  placeholder : Option String := none
  /-- How many words a command gets at most. -/
  words : Option Nat := none
  /-- How many lines. -/
  lines : Option Nat := none
  /-- How many bytes a command has at most. -/
  room : Nat := 131072
  strict : Bool := false
  /-- A command is run even if there are no words. -/
  always : Bool := true
  tells : Bool := false
  /-- The descriptor that commands read from. -/
  passesInput : Bool := false

/-- What is waiting for a command. -/
structure State where
  words : List String := []
  lines : Nat := 0
  /-- How many commands were run. -/
  commands : Nat := 0
  status : Nat := 0

/-- The bytes of the words of a command, each with its end. -/
def sizeOf (words : List String) : Nat := (words.map (·.length + 1)).sum

end Feed

/-- Runs a command in a process of its own; how it ended, or why it was not
begun. -/
def runCommand (words : List String) (environment : Environment) (passesInput : Bool) :
    Action (Except OsError WaitStatus) := do
  match ← Action.makePipe with
  | .error cause => return .error cause
  | .ok (reader, writer) => do
    let command := Bytes.ofOctets (words.headD "")
    let worker ← Action.fork do
      Action.close reader
      let report ← Action.askNumber (.duplicate writer 3 true)
      Action.close writer
      if !passesInput then
        if let .ok fd ← Action.openFile (.ofString "/dev/null") .input then
          let _ ← Action.ask (.duplicateOnto fd 0)
          Action.close fd
      let cause ← executeNamed command (words.map Bytes.ofOctets) environment
      if let .ok report := report then
        let _ ← Action.writeAll report.toNat (.ofString (toString (numberOf cause)))
      Action.exit (launchStatus cause)
    Action.close writer
    let report ← Action.readAll reader
    Action.close reader
    match ← Action.wait (some worker), report with
    | .error cause, _ => return .error cause
    | .ok (_, status), .ok [] => return .ok status
    | .ok _, .ok report =>
      return .error (.code ((Text.readInt? report.octets).getD 0))
    | .ok (_, status), .error _ => return .ok status
where
  numberOf : OsError → Int
    | .code number => number
    | .custom _ => 0

namespace Feed

/-- Runs a command and takes up how it ended. -/
def Setting.run (s : Setting) (i : Invocation) (words : List String) (state : State) :
    Action State := do
  let name := words.headD ""
  if s.tells then
    complain (" ".intercalate (words.map (Quoted.forShell · false)) ++ "\n")
  match ← runCommand words i.environment s.passesInput with
  | .error cause =>
    complainAs i.name (name ++ ": " ++ errorWords cause)
    Action.exit (launchStatus cause)
  | .ok status =>
    let state := { state with commands := state.commands + 1 }
    match status.exitStatus?, status.termSignal? with
    | some 0, _ => return state
    | some 255, _ => die i.name (name ++ ": exited with status 255; aborting") 124
    | some _, _ => return { state with status := 123 }
    | none, some signal => die i.name s!"{name}: terminated by signal {signal}" 125
    | none, none => return state

/-- Runs a command with the words that wait for it. -/
def Setting.flush (s : Setting) (i : Invocation) (state : State) : Action State := do
  let state ← s.run i (s.command ++ state.words) state
  return { state with words := [], lines := 0 }

/-- Takes a word. If it does not fit, a command is run first. -/
def Setting.push (s : Setting) (i : Invocation) (state : State) (word : String) :
    Action State := do
  let fixed := sizeOf s.command
  if s.room ≤ fixed + word.length + 1 then
    if s.room < fixed + word.length + 2 then
      die i.name "argument line too long"
  match s.placeholder with
  | some placeholder =>
    let replaced := (s.command.drop 1).map (·.replace placeholder word)
    s.run i (s.command.take 1 ++ replaced) state
  | none =>
    let full := s.room < fixed + sizeOf state.words + word.length + 1
    if full && s.strict && (s.words.isSome || s.lines.isSome) then
      die i.name "argument list too long"
    let state ←
      if full || s.words.any (· ≤ state.words.length) then s.flush i state else pure state
    return { state with words := state.words ++ [word] }

/-- Does what events ask for; whether the input goes on. -/
def Setting.handle (s : Setting) (i : Invocation) (state : State) :
    List Event → Action (State × Bool)
  | [] => return (state, true)
  | .stop :: _ => return (state, false)
  | .word text :: rest => do
    let nul := text.contains '\x00' && s.division.delimiter.isNone
    if nul then
      complainAs i.name ("WARNING: a NUL character occurred in the input.  It cannot be passed " ++
        "through in the argument list.  Did you mean to use the --null option?")
    let text := if nul then String.ofList (text.toList.takeWhile (· ≠ '\x00')) else text
    handle s i (← s.push i state text) rest
  | .line counts :: rest => do
    let lines := if counts then state.lines + 1 else state.lines
    let state := { state with lines }
    let state ← if s.lines.any (· ≤ lines) && state.words ≠ [] then s.flush i state else pure state
    handle s i state rest
  | .openQuote quote :: _ => do
    let _ ← if state.words = [] then pure state else s.flush i state
    let kind := if quote = '"' then "double" else "single"
    die i.name (s!"unmatched {kind} quote; by default quotes are special to xargs unless " ++
      "you use the -0 option")

end Feed

/-- The character that divides words, as an option names it. -/
def feedDelimiter (i : Invocation) (text : String) : Action Char := do
  let unknown : Action Char :=
    die i.name s!"Invalid escape sequence {text} in input delimiter specification."
  let number (base : Nat) (digits : List Char) : Action Char :=
    let value? := digits.foldl (fun value c => value.bind fun n =>
      let digit := if c.isDigit then c.toNat - 48 else c.toLower.toNat - 87
      if digit < base && (c.isDigit || ('a' ≤ c.toLower && c.toLower ≤ 'f')) then
        some (n * base + digit)
      else none) (some 0)
    match value? with
    | some n => if digits ≠ [] ∧ n < 256 then return Char.ofNat n else unknown
    | none => unknown
  match text.toList with
  | [c] => return c
  | ['\\', c] =>
    match [('a', '\x07'), ('b', '\x08'), ('f', '\x0c'), ('n', '\n'), ('r', '\r'), ('t', '\t'),
      ('v', '\x0b'), ('\\', '\\')].lookup c with
    | some c => return c
    | none => if '0' ≤ c ∧ c ≤ '7' then number 8 [c] else unknown
  | '\\' :: 'x' :: digits => number 16 digits
  | '\\' :: digits => number 8 digits
  | _ =>
    die i.name (s!"Invalid input delimiter specification {text}: the delimiter must be either " ++
      "a single character or an escape sequence starting with \\.")

/-- A number of at least `least` as the value of an option. -/
def feedNumber (i : Invocation) (options : List GivenOption) (c : Char) (least : Int) :
    Action (Option Nat) := do
  match optionValue? options c with
  | none => return none
  | some text =>
    match Text.readInt? text with
    | none => misused i s!"invalid number \"{text}\" for -{c} option"
    | some n =>
      if n < least then misused i s!"value {n} for -{c} option should be >= {least}"
      else return some n.toNat

/-- Runs a command with the words of its input as further arguments. -/
def xargs (i : Invocation) : Action Unit := do
  let (options, operands) ← i.options
    { flags := "0prtxo", valued := "adEILnPs", attached := "eil",
      long := [("null", '0'), ("arg-file", 'a'), ("delimiter", 'd'), ("eof", 'e'),
        ("replace", 'i'), ("max-lines", 'l'), ("max-args", 'n'), ("open-tty", 'o'),
        ("interactive", 'p'), ("no-run-if-empty", 'r'), ("max-chars", 's'), ("verbose", 't'),
        ("exit", 'x'), ("max-procs", 'P')] } 1 true
  let delimiter ← match options.reverse.find? fun (c, _) => c = '0' || c = 'd' with
    | some ('d', some text) => pure (some (← feedDelimiter i text))
    | some _ => pure (some '\x00')
    | none => pure none
  let words ← feedNumber i options 'n' 1
  let lines ← feedNumber i options 'L' 1
  let room ← feedNumber i options 's' 1
  let _ ← feedNumber i options 'P' 0
  let shortLines := (options.find? (·.1 = 'l')).map fun (_, text) =>
    ((text.bind Text.readNat?).getD 1)
  let lines := lines.orElse fun _ => shortLines
  let last := match options.reverse.find? fun (c, _) => c = 'E' || c = 'e' with
    | some (_, some text) => if text = "" then none else some text
    | _ => none
  let placeholder := match options.reverse.find? fun (c, _) => c = 'I' || c = 'i' with
    | some (_, some text) => some text
    | some (_, none) => some "\x7b\x7d"
    | none => none
  -- Of the ways to divide words among commands the one given last counts.
  let way := (options.reverse.find? fun (c, _) => ['I', 'i', 'L', 'l', 'n'].contains c).map (·.1)
  let replaces := way = some 'I' || way = some 'i'
  let byLines := way = some 'L' || way = some 'l'
  let s : Feed.Setting := {
    command := if operands = [] then ["echo"] else operands
    division := { delimiter, byLine := replaces, last }
    placeholder := if replaces then placeholder else none
    words := if way = some 'n' then words else none
    lines := if byLines then lines else none
    room := room.getD 131072
    strict := hasOption options 'x' || byLines || replaces
    always := !hasOption options 'r' && !replaces
    tells := hasOption options 't' || hasOption options 'p'
    passesInput := (optionValue? options 'a').isSome }
  if s.room < Feed.sizeOf s.command then
    die i.name "cannot fit single argument within argument list size limit"
  let fd ← match optionValue? options 'a' with
    | none | some "-" => pure 0
    | some path =>
      match ← Action.openFile (.ofOctets path) .input with
      | .ok fd => pure fd
      | .error cause =>
        die i.name (s!"Cannot open input file {Quoted.always path}: " ++ errorWords cause)
  let result ← Action.foldBlocks fd (fun ((reader, state, _) : Feed.Reader × Feed.State × Bool)
      block => do
    let (reader, events) := reader.run s.division (Bytes.octets block).toList
    let (state, more) ← s.handle i state events
    return ((reader, state, more), more)) ({}, {}, true)
  match result with
  | .error _ => do
    let _ ← if s.always then s.flush i {} else pure {}
    die i.name "error closing file"
  | .ok (reader, state, more) => do
    let (state, _) ←
      if more then s.handle i state (reader.finish s.division) else pure (state, more)
    let state ←
      if state.words ≠ [] || (s.always && state.commands = 0) then s.flush i state else pure state
    Action.exit state.status

end JobShell.Tool
