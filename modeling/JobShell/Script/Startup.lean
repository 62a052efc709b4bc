import JobShell.Script.Interpreter

/-!
# The command interpreter as a program

How the interpreter is called - with a script as an argument, as a file, or
as its input - and what a script finds when it begins.
-/

namespace JobShell.Script

open Machine (Action Program)

/-- How the interpreter is called. -/
structure Startup where
  options : List Char := []
  /-- The first operand is the script itself. -/
  inline : Bool := false
  /-- The profiles are run first. -/
  login : Bool := false
  operands : List String := []

/-- Reads the arguments of the interpreter. -/
def Startup.ofArguments (arguments : List String) : Except String Startup :=
  go (arguments.length + 1) {} arguments
where
  go : (count : Nat) → Startup → List String → Except String Startup
    | 0, s, _ | _, s, [] => .ok s
    | count + 1, s, word :: rest =>
      match word.toList with
      | ['-', '-'] | ['-'] => .ok { s with operands := rest }
      | sign :: letters =>
        if sign = '-' ∨ sign = '+' then do
          let others := letters.filter fun c => c ≠ 'c' && c ≠ 'l'
          let (options, rest) ← readOptionLetters (sign = '-') s.options others rest
          go count { s with options, inline := s.inline || letters.contains 'c'
                            login := s.login || letters.contains 'l' } rest
        else .ok { s with operands := word :: rest }
      | [] => .ok { s with operands := word :: rest }

/-- The variables that every script finds. -/
def givenVariables : List (String × String) :=
  [("IFS", " \t\n"), ("PATH", State.usualSearchPath), ("PS1", "# "), ("PS2", "> "),
   ("PS4", "+ "), ("OPTIND", "1")]

/-- Takes the variables from the environment; entries that do not have the
name of a variable are left out. -/
def State.inherit (s : State) (environment : Environment) : State :=
  let entries := environment.map fun (name, value) => (name.octets, value.octets)
  let named := entries.filter fun (name, _) => isVariableName name
  named.foldl (fun s (name, value) => s.assign name value true) s

/-- The directory that scripts are told: the inherited one if it is the
current one. -/
def initialDirectory (s : State) : Action (Except OsError String) := do
  let physical : Action (Except OsError String) := do
    return (← Action.askData .currentDirectory).map Bytes.octets
  match s.value? "PWD" with
  | some path =>
    if path.toList.head? = some '/' then
      match ← Action.facts (.ofOctets path), ← Action.facts (.ofString ".") with
      | .ok a, .ok b => if a.identity = b.identity then return .ok path else physical
      | _, _ => physical
    else physical
  | none => physical

/-- The state in which a script begins. -/
def initialState (name : String) (environment : Environment) : Action State := do
  let (own, parent) ← Action.ownNumbers
  let s : State := { name, pid := own, line := 0 }
  let s := givenVariables.foldl (fun s (name, value) => s.assign name value) s
  let s := s.inherit environment
  let s := ((s.assign "IFS" " \t\n").assign "OPTIND" "1").assign "PPID" (toString parent)
  match ← initialDirectory s with
  | .ok path => return { s.assign "PWD" path true with directory := path }
  | .error cause =>
    Tool.complain s!"{name}: 0: getcwd() failed: {Tool.errorWords cause}\n"
    return s.assign "PWD" "" true

/-- Runs a text that is read from a file. -/
def runFileText (text : String) : Sh Unit := do
  modify fun s => { s with line := 1 }
  runText Action.manyTimes false (String.ofList (text.toList.filter (· ≠ '\x00')))

/-- Runs the script on the standard input, which is read no further than it
has to be. -/
def runInput : Sh Unit := do
  modify fun s => { s with line := 1 }
  runSource Action.manyTimes false true 0 { rest := [], whole := false }

/-- Runs a file, if there is one, as a part of the script. -/
def runProfile (path : String) : Sh Unit := do
  match ← fileText path with
  | .error _ => return ()
  | .ok text =>
    match ← observe (runFileText text) with
    | .error (.function _) => return ()
    | result => resumeWith result

/-- Runs the files that every login begins with. -/
def runProfiles : Sh Unit := do
  runProfile "/etc/profile"
  runProfile (((← get).value? "HOME").getD "" ++ "/.profile")

/-- Runs the script that the interpreter was called with. -/
def runStartup (startup : Startup) : Sh Unit := do
  modify fun s => { s with options := startup.options }
  let profiles := if startup.login then runProfiles else return ()
  match startup.inline, startup.operands with
  | true, [] => abandon "-c requires an argument"
  | true, script :: rest => do
    modify fun s => { s with name := rest.headD s.name, arguments := rest.tail }
    profiles
    modify fun s => { s with line := 1 }
    runText Action.manyTimes false script
  | false, [] => do
    profiles
    runInput
  | false, operands =>
    if startup.options.contains 's' then
      modify fun s => { s with arguments := operands }
      profiles
      runInput
    else
      let path := operands.headD ""
      match ← fileText path with
      | .error cause => abandon (openingWords false path cause)
      | .ok text => do
        modify fun s => { s with name := path, arguments := operands.tail }
        profiles
        runFileText text

/-- The command interpreter. -/
def interpreter (arguments : List Bytes) (environment : Environment) : Program :=
  Action.program do
    let words := arguments.map Bytes.octets
    let _ ← Action.ask (.handle Signal.child .usual)
    let s ← initialState (words.headD "") environment
    let atExit := runText Action.manyTimes false
    match Startup.ofArguments words.tail with
    | .error reason => inShell atExit (abandon reason) s
    | .ok startup =>
      let login := startup.login || (words.headD "").startsWith "-"
      inShell atExit (runStartup { startup with login }) s

end JobShell.Script
