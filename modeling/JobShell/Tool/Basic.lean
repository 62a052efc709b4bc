import JobShell.Machine.Program
import JobShell.Tool.Quoted

/-!
# What programs have in common

Programs treat arguments and input byte by byte, so both are strings whose
characters are octets (`Bytes.octets`). Here are the ways in which programs
read their options, open their inputs, write, complain and end.
-/

namespace JobShell.Tool

open Machine (Action Program OpenMode)

/-- The octets of a text. -/
def octetsOf (s : String) : String := (Bytes.ofString s).octets

/-- What a program is called with. -/
structure Invocation where
  /-- The name the program was called by. -/
  name : String
  arguments : List String
  environment : Environment

namespace Invocation

/-- The invocation of a program with all its arguments, the name first. -/
def ofArguments (arguments : List Bytes) (environment : Environment) : Invocation where
  name := (arguments.headD []).octets
  arguments := arguments.tail.map Bytes.octets
  environment

end Invocation

/-- The wording of an error as programs show it. -/
def errorWords (cause : OsError) : String :=
  match cause with
  | .code number => errorText number
  | .custom text => text

/-! ## Writing -/

/-- Writes to standard error. -/
def complain (text : String) : Action Unit := do
  let _ ← Action.writeAll 2 (.ofOctets text)

/-- Complains in the name of a program. -/
def complainAs (name text : String) : Action Unit := complain (name ++ ": " ++ text ++ "\n")

/-- Complains in the name of a program and ends it. -/
def die (name text : String) (status : Nat := 1) : Action α := do
  complainAs name text
  Action.exit status

/-- Writes to standard output. A program that can not write ends. -/
def say (name text : String) (status : Nat := 1) : Action Unit := do
  match ← Action.writeAll 1 (.ofOctets text) with
  | .ok () => return ()
  | .error cause => die name ("write error: " ++ errorWords cause) status

/-- A text of lines. -/
def joinLines (lines : List String) (newline : String := "\n") : String :=
  String.join (lines.map (· ++ newline))

/-! ## Options -/

/-- The options of a program: the letters it knows, those that take a value,
those that a value can be attached to, and the long names. A long name that
no letter stands for has a letter that is in none of these, or in
`longValued` if it takes a value. -/
structure OptionTable where
  flags : String := ""
  valued : String := ""
  attached : String := ""
  longValued : String := ""
  long : List (String × Char) := []

/-- An option that was given, with its value. -/
abbrev GivenOption := Char × Option String

/-- Reads a cluster of options such as `-nr`; a value is the rest of the
cluster or the next argument. -/
def readCluster (table : OptionTable) :
    List Char → List String → Except String (List GivenOption × List String)
  | [], rest => .ok ([], rest)
  | c :: cs, rest =>
    if table.flags.contains c then do
      let (more, rest) ← readCluster table cs rest
      return ((c, none) :: more, rest)
    else if table.attached.contains c then
      .ok ([(c, if cs = [] then none else some (String.ofList cs))], rest)
    else if table.valued.contains c then
      match cs, rest with
      | [], [] => .error s!"option requires an argument -- '{c}'"
      | [], value :: rest => .ok ([(c, some value)], rest)
      | cs, rest => .ok ([(c, some (String.ofList cs))], rest)
    else .error s!"invalid option -- '{c}'"

/-- The long names that a written one stands for: itself, or all that begin
with it. -/
def longCandidates (table : OptionTable) (name : String) : List (String × Char) :=
  match table.long.find? (·.1 = name) with
  | some exact => [exact]
  | none => table.long.filter fun (long, _) => name.toList.isPrefixOf long.toList

/-- Reads a long option, without its dashes. -/
def readLong (table : OptionTable) (text : String) (rest : List String) :
    Except String (GivenOption × List String) :=
  let (name, value) := text.toList.span (· ≠ '=')
  let attached := if value = [] then none else some (String.ofList value.tail)
  match longCandidates table (String.ofList name) with
  | [] => .error s!"unrecognized option '--{text}'"
  | (long, c) :: others =>
    if others.any (·.2 ≠ c) then
      let names := ((long, c) :: others).map fun (long, _) => s!" '--{long}'"
      .error (s!"option '--{text}' is ambiguous; possibilities:" ++ String.join names)
    else if table.valued.contains c || table.longValued.contains c then
      match attached, rest with
      | some value, rest => .ok ((c, some value), rest)
      | none, value :: rest => .ok ((c, some value), rest)
      | none, [] => .error s!"option '--{long}' requires an argument"
    else if table.attached.contains c then .ok ((c, attached), rest)
    else if attached.isSome then .error s!"option '--{long}' doesn't allow an argument"
    else .ok ((c, none), rest)

/-- Reads an argument that begins with a dash, and the value behind it. -/
def readDashed (table : OptionTable) (argument : String) (rest : List String) :
    Except String (List GivenOption × List String) :=
  match argument.toList with
  | '-' :: '-' :: long => do
    let (option, rest) ← readLong table (String.ofList long) rest
    return ([option], rest)
  | cs => readCluster table cs.tail rest

/-- Whether an argument is an option, or several. -/
def isDashed (argument : String) : Bool :=
  argument.length > 1 && argument.toList.head? = some '-'

/-- Reads options and operands. They may be mixed, unless the program is a
`leading` one, whose options end in front of the first operand. Everything
behind `--` is an operand. `count` bounds the number of arguments. -/
def readOptions (table : OptionTable) (leading : Bool) :
    (count : Nat) → List String → Except String (List GivenOption × List String)
  | 0, rest => .ok ([], rest)
  | _, [] => .ok ([], [])
  | count + 1, argument :: rest =>
    if argument = "--" then .ok ([], rest)
    else if isDashed argument then do
      let (given, rest) ← readDashed table argument rest
      let (options, operands) ← readOptions table leading count rest
      return (given ++ options, operands)
    else if leading then .ok ([], argument :: rest)
    else do
      let (options, operands) ← readOptions table leading count rest
      return (options, argument :: operands)

/-- Ends a program that was called wrongly. -/
def misused (i : Invocation) (text : String) (status : Nat := 1) : Action α := do
  complainAs i.name text
  complain s!"Try '{i.name} --help' for more information.\n"
  Action.exit status

/-- The options and operands of an invocation. A program that is called
wrongly explains itself and ends. -/
def Invocation.options (i : Invocation) (table : OptionTable) (status : Nat := 1)
    (leading : Bool := false) : Action (List GivenOption × List String) := do
  match readOptions table leading (i.arguments.length + 1) i.arguments with
  | .ok result => return result
  | .error text => misused i text status

/-- The choice that the value of a long option stands for: the one it names,
or the only one whose name begins with it. A program that is called with any
other value explains itself and ends. -/
def chooseFrom [DecidableEq α] (i : Invocation) (option text : String)
    (choices : List (String × α)) (status : Nat := 1) : Action α := do
  let candidates := choices.filter fun (name, _) => text.toList.isPrefixOf name.toList
  let explain (fault : String) : Action α := do
    complainAs i.name s!"{fault} argument {Quoted.plain text} for '--{option}'"
    complain "Valid arguments are:\n"
    complain (joinLines (alternatives choices))
    complain s!"Try '{i.name} --help' for more information.\n"
    Action.exit status
  match choices.lookup text, candidates with
  | some choice, _ => return choice
  | none, [] => explain "invalid"
  | none, (_, choice) :: others =>
    if others.all (·.2 = choice) then return choice else explain "ambiguous"
where
  /-- The names that there are; neighbours that mean the same share a line. -/
  alternatives : List (String × α) → List String
    | [] => []
    | (name, choice) :: rest =>
      let line := s!"  - '{name}'"
      match rest, alternatives rest with
      | (_, next) :: _, joined :: others =>
        if choice = next then (line ++ "," ++ String.ofList (joined.toList.drop 3)) :: others
        else line :: joined :: others
      | _, _ => [line]

/-- Whether an option was given. -/
def hasOption (options : List GivenOption) (c : Char) : Bool := options.any (·.1 = c)

/-- The value of an option that was given last. -/
def optionValue? (options : List GivenOption) (c : Char) : Option String :=
  ((options.reverse.find? (·.1 = c)).bind (·.2))

/-! ## Inputs -/

/-- Complains about an input that can not be read. -/
def complainAbout (i : Invocation) (operand : String) (cause : OsError) : Action Unit :=
  complainAs i.name (Quoted.forShell operand ++ ": " ++ errorWords cause)

/-- Opens an input; `-` is the standard input. -/
def openInput (operand : String) : Action (Except OsError Fd) :=
  if operand = "-" then return .ok 0 else Action.openFile (.ofOctets operand) .input

/-- Closes an input, unless it is the standard input. -/
def closeInput (fd : Fd) : Action Unit := if fd = 0 then return () else Action.close fd

/-- Does something with every operand, each opened for reading; no operand
at all is the standard input. The value is the status of the program: one if
some operand could not be used. -/
def forInputs (i : Invocation) (operands : List String)
    (use : String → Fd → Action (Except OsError Unit)) : Action Nat := do
  let rec go (status : Nat) : List String → Action Nat
    | [] => return status
    | operand :: rest => do
      match ← openInput operand with
      | .error cause =>
        complainAbout i operand cause
        go 1 rest
      | .ok fd =>
        let result ← use operand fd
        closeInput fd
        match result with
        | .ok () => go status rest
        | .error cause =>
          complainAbout i operand cause
          go 1 rest
  go 0 (if operands = [] then ["-"] else operands)

/-- Cuts a text into its lines, without their ends; the second value says
whether the last line has an end. -/
def splitLines (text : String) (newline : String := "\n") : List String × Bool :=
  let pieces := text.splitOn newline
  match pieces.getLast? with
  | some "" => (pieces.dropLast, true)
  | _ => (pieces, false)

/-- The lines of a text. -/
def linesOf (text : String) : List String := (splitLines text).1

/-- Hands over line by line what can be read from `fd`, together with a
state, until `step` says that it has enough. The state may collect output,
which is written after every block. -/
def foldLines (name : String) (fd : Fd) (step : σ → String → σ × List String × Bool)
    (start : σ) (newline : String := "\n") (status : Nat := 1) : Action (Except OsError σ) := do
  let rec take (s : σ) : List String → σ × List String × Bool
    | [] => (s, [], true)
    | line :: rest =>
      let (s, output, more) := step s line
      if more then
        let (s, others, more) := take s rest
        (s, output ++ others, more)
      else (s, output, false)
  let result ← Action.foldBlocks fd (fun (s, held) block => do
    let (lines, ended) := splitLines (held ++ block.octets) newline
    let (whole, held) := if ended then (lines, "") else (lines.dropLast, lines.getLastD "")
    let (s, output, more) := take s whole
    if output ≠ [] then say name (joinLines output newline) status
    return ((s, held), more)) (start, "")
  match result with
  | .error cause => return .error cause
  | .ok (s, held) =>
    if held = "" then return .ok s
    else
      let (s, output, _) := step s held
      if output ≠ [] then say name (joinLines output newline) status
      return .ok s

/-! ## Executing -/

/-- The search path for the programs that programs execute. -/
def searchPathOf (environment : Environment) : Bytes :=
  (environment.get? (.ofString "PATH")).getD (.ofString "/usr/local/bin:/usr/bin:/bin")

/-- Whether the beginning of a file is no text: there are control characters
on its first line. -/
def beginsBinary (data : Bytes) : Bool :=
  ((data.take 128).takeWhile (· ≠ 10)).any fun b =>
    b = 127 || (b < 32 && b ≠ 27 && !(9 ≤ b && b ≤ 15))

/-- Whether a file can be read and is no text. -/
def isBinary (path : Bytes) : Action Bool := do
  match ← Action.openFile path .input with
  | .error _ => return false
  | .ok fd =>
    let data ← Action.read fd 128
    Action.close fd
    match data with
    | .ok data => return beginsBinary data
    | .error _ => return false

/-- Executes a file; one that is no program is interpreted as a script, unless
`refused` says that it can not be one. The action only goes on if that
fails. -/
def executeFile (refused : Bytes → Action Bool) (path : Bytes) (arguments : List Bytes)
    (environment : Environment) : Action OsError := do
  match ← Action.call (.execute path arguments environment) with
  | .failed (.code 8) =>
    if ← refused path then return .code 8
    else
      let shell := Bytes.ofString "/bin/sh"
      return Action.causeOf
        (← Action.call (.execute shell (shell :: path :: arguments.drop 1) environment))
  | r => return Action.causeOf r

/-- Executes a command that is looked up along a search path. The first
failure that is not the absence of a file is reported. -/
def executeAlong (refused : Bytes → Action Bool) (searchPath command : Bytes)
    (arguments : List Bytes) (environment : Environment) : Action OsError := do
  if command.contains slash then executeFile refused command arguments environment
  else
    let rec go (denied : Bool) : List Bytes → Action OsError
      | [] => return if denied then .accessDenied else .noEntry
      | directory :: rest => do
        match ← executeFile refused (Path.join directory command) arguments environment with
        | .code 2 | .code 20 => go denied rest
        | .code 13 => go true rest
        | cause => return cause
    go false (Path.searchDirectories searchPath)

/-- Executes a command the way it is looked up by name. -/
def executeNamed (command : Bytes) (arguments : List Bytes) (environment : Environment) :
    Action OsError :=
  if command = [] then return .noEntry
  else
    executeAlong (fun _ => return false) (searchPathOf environment) command arguments environment

end JobShell.Tool
