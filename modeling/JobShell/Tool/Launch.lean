import JobShell.Name
import JobShell.Tool.Sending

/-!
# Running a command in another environment

`env` changes the environment, the directory or the treatment of signals and
then becomes a command; `nohup` does so for a command that outlives its
terminal. `printenv` shows the environment. With `-S`, `env` takes a single
text for all its arguments, which `Launch.split` cuts into words.
-/

namespace JobShell.Tool

open Machine (Action Disposition OpenMode)

/-- The status of a program that could not do its part for a command. -/
def launchFault : Nat := 125

/-- The status when a command could not be begun. -/
def launchStatus (cause : OsError) : Nat := if cause = .noEntry then 127 else 126

namespace Launch

/-! ## Words of a text -/

/-- Why a text is not cut into words. -/
inductive SplitFault
  | finalBackslash
  | escape (c : Char)
  | stopBetweenQuotes
  | openQuote
  | expansion (rest : String)

/-- The wording of a fault. -/
def SplitFault.message : SplitFault → String
  | finalBackslash => "invalid backslash at end of string in -S"
  | escape c => s!"invalid sequence '\\{c}' in -S"
  | stopBetweenQuotes => "'\\c' must not appear in double-quoted -S string"
  | openQuote => "no terminating quote in -S string"
  | expansion rest => "only $\x7bVARNAME\x7d expansion is supported, error at: " ++ rest

/-- What characters stand between. -/
inductive Quotes
  | none
  | single
  | double
  deriving DecidableEq

/-- The name between the braces of an expansion, and what is behind them. -/
def expansionName? : List Char → Option (String × List Char)
  | c :: rest =>
    if c ≠ Char.ofNat 123 then none
    else
      let name := rest.takeWhile fun c => c.isAlphanum || c = '_'
      match rest.drop name.length with
      | d :: behind =>
        if d = Char.ofNat 125 ∧ name ≠ [] ∧ !(name.headD '0').isDigit then
          some (String.ofList name, behind)
        else none
      | [] => none
  | [] => none

/-- The character that an escape stands for. -/
def escaped? (c : Char) : Option Char :=
  if ['"', '#', '$', '\'', '\\'].contains c then some c
  else [('f', '\x0c'), ('n', '\n'), ('r', '\r'), ('t', '\t'), ('v', '\x0b')].lookup c

/-- Whether a character separates words. -/
def isBlank (c : Char) : Bool := c = ' ' || ('\t' ≤ c && c ≤ '\r')

/-- The words so far, with characters added to the last one. -/
def extend (words : List String) (open_ : Bool) (text : String) : List String :=
  if open_ then
    match words.reverse with
    | last :: rest => ((last ++ text) :: rest).reverse
    | [] => [text]
  else words ++ [text]

/-- Cuts a text into words. `words` are those so far; the last of them goes
on if it is `open_`. `length` bounds how many characters are left. -/
def splitFrom (environment : Environment) : (length : Nat) → (words : List String) →
    (open_ : Bool) → Quotes → List Char → Except SplitFault (List String)
  | 0, words, _, _, _ => .ok words
  | _, words, _, quotes, [] => if quotes = .none then .ok words else .error .openQuote
  | length + 1, words, open_, quotes, c :: rest =>
    let go := splitFrom environment length
    let plain (c : Char) (rest : List Char) : Except SplitFault (List String) :=
      go (extend words open_ c.toString) true quotes rest
    if c = '\'' ∧ quotes ≠ .double then
      go (extend words open_ "") true (if quotes = .single then .none else .single) rest
    else if c = '"' ∧ quotes ≠ .single then
      go (extend words open_ "") true (if quotes = .double then .none else .double) rest
    else if isBlank c ∧ quotes = .none then go words false quotes rest
    else if c = '#' ∧ !open_ then .ok words
    else if c = '\\' then
      match rest with
      | [] => if quotes = .single then plain c [] else .error .finalBackslash
      | e :: behind =>
        if quotes = .single ∧ e ≠ '\\' ∧ e ≠ '\'' then plain c rest
        else if e = '_' then
          if quotes = .double then plain ' ' behind else go words false quotes behind
        else if e = 'c' then
          if quotes = .double then .error .stopBetweenQuotes else .ok words
        else
          match escaped? e with
          | some c => plain c behind
          | none => .error (.escape e)
    else if c = '$' ∧ quotes ≠ .single then
      match expansionName? rest with
      | none => .error (.expansion (String.ofList (c :: rest)))
      | some (name, behind) =>
        match environment.get? (.ofOctets name) with
        | some value => go (extend words open_ value.octets) true quotes behind
        | none => go words open_ quotes behind
    else plain c rest

/-- Cuts a text into words. -/
def split (environment : Environment) (text : String) : Except SplitFault (List String) :=
  splitFrom environment (text.length + 1) [] false .none text.toList

end Launch

/-! ## Changing the environment -/

/-- The parts of `NAME=VALUE`. -/
def assignmentParts? (word : String) : Option (Bytes × Bytes) :=
  (splitAtEquals word.toList).map fun (name, value) =>
    (.ofOctets (String.ofList name), .ofOctets (String.ofList value))

/-- Prints an environment. -/
def printEnvironment (i : Invocation) (environment : Environment) (newline : String)
    (status : Nat) : Action Unit :=
  say i.name (joinLines (environment.entries.map Bytes.octets) newline) status

/-- The options of `env`. Blanks are among them, to recognize arguments that
should have been several. -/
def envOptions : OptionTable where
  flags := "iv0 \t"
  valued := "CSu"
  attached := "DIBL"
  long := [("ignore-environment", 'i'), ("null", '0'), ("unset", 'u'), ("chdir", 'C'),
    ("default-signal", 'D'), ("ignore-signal", 'I'), ("block-signal", 'B'),
    ("list-signal-handling", 'L'), ("debug", 'v'), ("split-string", 'S')]

/-- Reads the options of `env`. The words of a text that is split take its
place among the arguments; `count` bounds how many arguments are read. -/
def readEnvOptions (i : Invocation) : (count : Nat) → List GivenOption → List String →
    Action (List GivenOption × List String)
  | 0, options, rest => return (options, rest)
  | _, options, [] => return (options, [])
  | count + 1, options, argument :: rest => do
    if argument = "--" then return (options, rest)
    else if !isDashed argument then return (options, argument :: rest)
    else
      match readDashed envOptions argument rest with
      | .error text => misused i text launchFault
      | .ok (given, rest) => do
        if let some (c, _) := given.find? fun (c, _) => Launch.isBlank c then
          complainAs i.name s!"invalid option -- '{c}'"
          misused i "use -[v]S to pass options in shebang lines" launchFault
        let options := options ++ given
        match given.getLast? with
        | some ('S', some text) =>
          match Launch.split i.environment text with
          | .error fault => die i.name fault.message launchFault
          | .ok words => do
            if hasOption options 'v' then showSplit text words
            readEnvOptions i count options (words ++ rest)
        | _ => readEnvOptions i count options rest
where
  /-- Tells how a text is split. -/
  showSplit (text : String) (words : List String) : Action Unit := do
    complain s!"split -S:  {Quoted.plain text}\n"
    for (word, n) in words.zipIdx do
      complain ((if n = 0 then " into:    " else "     &    ") ++ Quoted.plain word ++ "\n")

/-- The environment without the variables that options name. -/
def unsetGiven (i : Invocation) (tells : Bool) (environment : Environment) :
    List GivenOption → Action Environment
  | [] => return environment
  | ('u', some name) :: rest => do
    if name = "" || name.contains '=' then
      die i.name s!"cannot unset {Quoted.plain name}: Invalid argument" launchFault
    if tells then complain s!"unset:    {name}\n"
    unsetGiven i tells (environment.unset (.ofOctets name)) rest
  | _ :: rest => unsetGiven i tells environment rest

/-- Takes up the assignments in front of a command. -/
def assignGiven (tells : Bool) (environment : Environment) :
    List String → Action (Environment × List String)
  | [] => return (environment, [])
  | word :: rest =>
    match assignmentParts? word with
    | some (name, value) => do
      if tells then complain s!"setenv:   {word}\n"
      assignGiven tells (environment.set name value) rest
    | none => return (environment, word :: rest)

/-- Changes how the signals are treated that an option lists; all of them if
it lists none. -/
def treatSignals (i : Invocation) (disposition : Disposition) (value : Option String) :
    Action Unit := do
  match value with
  | none =>
    for number in List.range 31 do
      let _ ← Action.ask (.handle (Int.ofNat number + 1) disposition)
  | some text =>
    for name in text.splitOn "," do
      match readSignal name with
      | none => misused i s!"{Quoted.plain name}: invalid signal" launchFault
      | some signal => let _ ← Action.ask (.handle signal disposition)

/-- Changes the environment, and becomes a command or prints what came of
it. -/
def env (i : Invocation) : Action Unit := do
  let (options, operands) ← readEnvOptions i (i.arguments.length + 1000) [] i.arguments
  let (clears, operands) : Bool × List String := match operands with
    | "-" :: rest => (true, rest)
    | operands => (hasOption options 'i', operands)
  let tells := hasOption options 'v'
  if clears && tells then complain "cleaning environ\n"
  let environment ← unsetGiven i tells (if clears then [] else i.environment) options
  let (environment, words) ← assignGiven tells environment operands
  let directory := optionValue? options 'C'
  match words with
  | [] => do
    if directory.isSome then
      misused i "must specify command with --chdir (-C)" launchFault
    printEnvironment i environment (if hasOption options '0' then "\x00" else "\n") launchFault
  | command :: _ => do
    if hasOption options '0' then
      misused i "cannot specify --null (-0) with command" launchFault
    for (c, value) in options do
      if c = 'D' then treatSignals i .usual value
      if c = 'I' then treatSignals i .ignored value
    if let some path := directory then
      if tells then complain s!"chdir:    {Quoted.plain path}\n"
      if let .error cause ← Action.ask (.enterDirectory (.ofOctets path)) then
        die i.name (s!"cannot change directory to {Quoted.always path}: " ++ errorWords cause)
          launchFault
    if tells then
      complain s!"executing: {command}\n"
      for (word, n) in words.zipIdx do
        complain s!"   arg[{n}]= {Quoted.plain word}\n"
    let cause ← executeNamed (.ofOctets command) (words.map Bytes.ofOctets) environment
    complainAs i.name s!"{Quoted.plain command}: {errorWords cause}"
    if cause = .noEntry && command.toList.any Launch.isBlank then
      complainAs i.name "use -[v]S to pass options in shebang lines"
    Action.exit (launchStatus cause)

/-- Prints the values of variables. -/
def printenv (i : Invocation) : Action Unit := do
  let (options, names) ← i.options { flags := "0", long := [("null", '0')] } 2 true
  let newline := if hasOption options '0' then "\x00" else "\n"
  if names = [] then printEnvironment i i.environment newline 2
  else
    let values := names.map fun name =>
      if name.contains '=' then none else i.environment.get? (.ofOctets name)
    say i.name (joinLines (values.filterMap fun value => value.map Bytes.octets) newline) 2
    Action.exit (if values.all Option.isSome then 0 else 1)

/-! ## Outliving the terminal -/

/-- The file that gets the output of a command instead of the terminal. -/
def openOutput (i : Invocation) : Action (Except OsError (String × Fd)) := do
  match ← Action.openFile (.ofString "nohup.out") .append with
  | .ok fd => return .ok ("nohup.out", fd)
  | .error cause =>
    match i.environment.get? (.ofString "HOME") with
    | none => return .error cause
    | some home =>
      let path := (Path.join home (.ofString "nohup.out")).octets
      match ← Action.openFile (.ofOctets path) .append with
      | .ok fd => return .ok (path, fd)
      | .error cause => return .error cause

/-- Becomes a command that is not ended by the loss of the terminal. What it
would write to the terminal goes to a file. -/
def nohup (i : Invocation) : Action Unit := do
  let (_, words) ← i.options {} launchFault true
  match words with
  | [] => misused i "missing operand" launchFault
  | command :: _ => do
    let input ← Action.isTerminal 0
    let output ← Action.isTerminal 1
    let errors ← Action.isTerminal 2
    if input then
      match ← Action.openFile (.ofString "/dev/null") { writes := true } with
      | .ok fd =>
        let _ ← Action.ask (.duplicateOnto fd 0)
        Action.close fd
      | .error cause =>
        die i.name ("failed to render standard input unusable: " ++ errorWords cause) launchFault
      if !output && !errors then complainAs i.name "ignoring input"
    if output then
      match ← openOutput i with
      | .error cause =>
        die i.name ("failed to open 'nohup.out': " ++ errorWords cause) launchFault
      | .ok (path, fd) =>
        let _ ← Action.ask (.duplicateOnto fd 1)
        Action.close fd
        complainAs i.name ((if input then "ignoring input and " else "") ++
          s!"appending output to {Quoted.always path}")
    if errors then
      if !output then
        complainAs i.name ((if input then "ignoring input and " else "") ++
          "redirecting stderr to stdout")
      let _ ← Action.ask (.duplicateOnto 1 2)
    let _ ← Action.ask (.handle Signal.hangup .ignored)
    let cause ← executeNamed (.ofOctets command) (words.map Bytes.ofOctets) i.environment
    complainAs i.name s!"failed to run command {Quoted.always command}: {errorWords cause}"
    Action.exit (launchStatus cause)

end JobShell.Tool
