import JobShell.Script.Builtin
import JobShell.Script.Reader
import JobShell.Script.Redirection

/-!
# Running scripts

The command interpreter. Commands other than builtin ones and functions run
in processes of their own, except at the very end: a shell that has nothing
left to do afterwards becomes the last program itself.

Running a command can run any other command (functions, substitutions,
`eval`), so `fuel` bounds how many steps a script can take; it is far more
than a script of any use takes.
-/

namespace JobShell.Script

open Machine (Action Pid)

/-- How much of a script on the standard input is read at a time. -/
def scriptBlock : Nat := 8192

/-- Where a command stands. -/
structure Place where
  /-- The shell ends after the command. -/
  last : Bool := false
  /-- The status is asked for, so a failure does not end the script. -/
  tested : Bool := false

/-- Waits for a child, also when caught signals arrive meanwhile. -/
def waitForChild (pid : Pid) : (times : Nat) → Sh Nat
  | 0 => return 0
  | times + 1 => do
    match ← Action.wait (some pid) with
    | .ok (_, ending) => statusOf ending
    | .error cause => do
      if cause.isInterrupted then
        let _ ← noticeSignals
        waitForChild pid times
      else return 127

/-- Waits for the processes of a pipeline; the status is that of the last. -/
def waitForAll (status : Nat) : List Pid → Sh Nat
  | [] => return status
  | pid :: rest => do
    let status ← waitForChild pid Action.manyTimes
    waitForAll status rest

/-- The search path for a command, which can be the usual one. -/
def pathFor (standard : Bool) : Sh Bytes := do
  let s ← get
  return if standard then .ofOctets State.usualSearchPath else s.searchPath

/-- The file a command name stands for: the first one of that name along the
search path that can be executed. Otherwise the reason why there is none. -/
def locate (name : String) (standard : Bool := false) : Sh (Except OsError String) := do
  if name.toList.contains '/' then return .ok name
  else
    let directories := Path.searchDirectories (← pathFor standard)
    let rec go (denied : Bool) : List Bytes → Action (Except OsError String)
      | [] => return .error (if denied then .accessDenied else .noEntry)
      | directory :: rest => do
        let path := Path.join directory (.ofOctets name)
        match ← Action.facts path with
        | .ok facts =>
          if facts.kind = .regular && facts.executable then return .ok path.octets
          else go true rest
        | .error _ => go denied rest
    go false directories

/-- The script a name stands for: the first file of that name along the search
path. -/
def locateScript (name : String) : Sh (Option String) := do
  if name.toList.contains '/' then return some name
  else
    let rec go : List Bytes → Action (Option String)
      | [] => return none
      | directory :: rest => do
        let path := Path.join directory (.ofOctets name)
        match ← Action.facts path with
        | .ok facts => if facts.kind = .regular then return some path.octets else go rest
        | .error _ => go rest
    go (Path.searchDirectories (← get).searchPath)

/-- Why a command is not run, in words. -/
def commandFailure (cause : OsError) : String :=
  if cause = .noEntry ∨ cause = .notDirectory then "not found" else Tool.errorWords cause

/-- Becomes another program. A failure ends the shell. -/
def becomeProgram (standard : Bool) (words : List String) : Sh α := do
  let command := words.headD ""
  let cause ← Tool.executeAlong Tool.isBinary (← pathFor standard) (.ofOctets command)
    (words.map Bytes.ofOctets) (← get).environment
  complain (command ++ ": " ++ commandFailure cause)
  let absent := [OsError.noEntry, .notDirectory, .tooManyLinks, .nameTooLong].contains cause
  throw (.script (if absent then 127 else 126))

/-- A shell does `body` and ends. Commands for signals that it has from its
parent are dropped; `atExit` runs the command for its own end. -/
def inShell (atExit : String → Sh Unit) (body : Sh Unit) (s : State) : Action Unit := do
  let handled := s.traps.filter fun (signal, action) => action ≠ "" && signal ≠ 0
  for (signal, _) in handled do
    let _ ← Action.ask (.handle signal .usual)
  let s := { s with jobs := [], traps := s.traps.filter fun (_, action) => action = "" }
  let (result, s) ← (body.run).run s
  let status := statusAfter result s
  match s.traps.lookup 0 with
  | none => Action.exit status
  | some command =>
    let s := { s with status, traps := s.traps.filter (·.1 ≠ 0) }
    let (result, _) ← ((atExit command).run).run s
    Action.exit (match result with
      | .error (.script status) => status
      | .error .fault => usageStatus
      | _ => status)
where
  statusAfter (result : Except Leave Unit) (s : State) : Nat :=
    match result with
    | .error (.script status) | .error (.function status) => status
    | .error .fault => usageStatus
    | _ => s.status

/-- Splits off a shell that does `body`. -/
def split (atExit : String → Sh Unit) (body : Sh Unit) : Sh Pid := do
  let s ← get
  Action.fork (inShell atExit body s)

/-- Splits off a shell that does `body`, and waits for it. -/
def splitAndWait (atExit : String → Sh Unit) (body : Sh Unit) : Sh Nat := do
  modify fun s => s.takeNumber.2
  let pid ← split atExit body
  waitForChild pid Action.manyTimes

/-- Whether the shell has commands for signals or for its end, so that it
can not become another program. -/
def hasTraps : Sh Bool := do
  return (← get).traps.any fun (_, action) => action ≠ ""

/-- Shows a command before it is run, if that is wanted. -/
def trace (words : List String) : Sh Unit := do
  let s ← get
  if s.options.contains 'x' && words ≠ [] then
    let mark := (s.value? "PS4").getD "+ "
    Tool.complain (mark ++ " ".intercalate words ++ "\n")

/-- What ends a loop, or lets it go on, after its body was run. -/
inductive Round
  | next
  | stop
  | leave (why : Leave)

/-- What a loop does after a part of it was run. -/
def Round.after : Except Leave Unit → Round
  | .ok () => .next
  | .error (.loop 1 true) => .next
  | .error (.loop 1 false) => .stop
  | .error (.loop levels again) => .leave (.loop (levels - 1) again)
  | .error why => .leave why

/-- Does something inside a loop. -/
def inLoop (body : Sh Unit) : Sh Unit := do
  modify fun s => { s with loops := s.loops + 1 }
  let result ← observe body
  modify fun s => { s with loops := s.loops - 1 }
  resumeWith result

/-- Makes the assignments in front of a command. The value is how they are
shown. -/
def assignAll (substitute : Command → Sh String) (exported : Bool) :
    List (String × Word) → Sh (List String)
  | [] => return []
  | (name, word) :: rest => do
    let value ← expandText substitute word
    setVariable name value exported
    return (name ++ "=" ++ value) :: (← assignAll substitute exported rest)

/-- How a command that is no function is run. -/
structure Manner where
  /-- Wrong use of it ends the script. -/
  special : Bool
  /-- It is looked for along the usual search path. -/
  standardPath : Bool := false

/-- Runs a builtin command. Wrong use ends the script only if the command is a
special one. -/
def asBuiltin (name : String) (special : Bool) (body : Sh Unit) : Sh Unit := do
  match ← observe (inName name body) with
  | .error .fault => if special then throw .fault else setStatus usageStatus
  | result => resumeWith result

/-- What `command` runs: whether it is looked for along the usual search path,
and its words; `none` if nothing is run. -/
def commandWords : (standard : Bool) → List String → Option (Bool × List String)
  | _, [] => none
  | standard, word :: rest =>
    match word.toList with
    | ['-', '-'] => if rest = [] then none else some (standard, rest)
    | '-' :: c :: cs => if (c :: cs).all (· = 'p') then commandWords true rest else none
    | _ => some (standard, word :: rest)

/-- Describes what a command name stands for; the status is 127 if it stands
for nothing. -/
def describeName (standard short : Bool) (name : String) : Sh Nat := do
  let s ← get
  let say (long : String) (plain : String) : Sh Nat := do
    printed ((if short then plain else name ++ " is " ++ long) ++ "\n")
  if reservedWords.contains name then say "a shell keyword" name
  else if let some text := s.aliases.lookup name then
    say ("an alias for " ++ text) ("alias " ++ name ++ "=" ++ quote text)
  else if s.functions.any (·.1 = name) then say "a shell function" name
  else if specialBuiltins.contains name then say "a special shell builtin" name
  else if isBuiltin name then say "a shell builtin" name
  else
    match ← locate name standard with
    | .error _ => do
      if !short then
        let _ ← print (name ++ ": not found\n")
      return 127
    | .ok path =>
      if path.toList.contains '/' then
        match ← Action.facts (.ofOctets path) with
        | .ok _ => say path path
        | .error _ => do
          if !short then
            let _ ← print (name ++ ": not found\n")
          return 127
      else say path path

/-- Describes several names; the status is zero if all stand for something. -/
def describeNames (status : Nat) : List String → Sh Nat
  | [] => return status
  | name :: rest => do
    let found ← describeName false false name
    describeNames (if found = 0 then status else found) rest

/-- Describes the command that `command` is asked about. -/
def describeCommand (arguments : List String) : Sh Nat := do
  let (options, operands) ← readFlags "pvV" "" arguments
  match operands, options.any (·.1 ≠ 'p') with
  | name :: _, true => describeName (options.any (·.1 = 'p')) (!options.any (·.1 = 'V')) name
  | _, _ => return 0

/-- Looks commands up; the status tells whether all were found. -/
def lookUp (status : Nat) : List String → Sh Nat
  | [] => return status
  | name :: rest => do
    if isBuiltin name ∨ (← get).functions.any (·.1 = name) then lookUp status rest
    else
      match ← locate name with
      | .ok _ => lookUp status rest
      | .error _ => do
        complain (name ++ ": not found")
        lookUp 1 rest

/-- Looks commands up in advance. What is found is not kept, because looking
again comes to the same. -/
def hashBuiltin (arguments : List String) : Sh Nat := do
  let (_, operands) ← readFlags "r" "" arguments
  lookUp 0 operands

/-- Everything in a file; nothing if it can be opened but not be read. -/
def fileText (path : String) : Action (Except OsError String) := do
  match ← Action.openFile (.ofOctets path) .input with
  | .error cause => return .error cause
  | .ok fd =>
    let data ← Action.readAll fd
    Action.close fd
    match data with
    | .ok data => return .ok data.octets
    | .error _ => return .ok ""

mutual

/-- Runs a command, and leaves its status in the state. -/
def run : (fuel : Nat) → Place → Command → Sh Unit
  | 0, _, _ => throw .fault
  | fuel + 1, place, command => do
    if (← get).options.contains 'n' then return ()
    match command with
    | .nothing => setStatus 0
    | .simple line assignments words redirects =>
      modify fun s => { s with line }
      runSimple fuel place assignments words redirects
      checkFailure place
      handleSignals fuel
    | .pipeline negated stages =>
      match negated, stages with
      | true, [stage] => run fuel { tested := true } stage
      | _, stages => do
        modify fun s => s.takeNumber.2
        let pids ← startStages fuel false 0 stages
        setStatus (← waitForAll 0 pids)
      if negated then modify fun s => { s with status := if s.status = 0 then 1 else 0 }
      else checkFailure place
    | .both a b => do
      run fuel { tested := true } a
      if (← get).status = 0 then run fuel place b
    | .either a b => do
      run fuel { tested := true } a
      if (← get).status ≠ 0 then run fuel place b
    | .sequence a b => do
      run fuel { tested := place.tested } a
      run fuel place b
    | .background a => do
      let pids ← match a with
        | .pipeline false stages => startStages fuel true 0 stages
        | a => startStages fuel true 0 [a]
      modify fun s => { s.addJob pids with background := pids.getLast?, status := 0 }
    | .subshell line body redirects => do
      modify fun s => { s with line }
      if place.last && !(← hasTraps) then
        match ← redirect (substitute fuel) false [] redirects with
        | some _ => run fuel { place with last := true } body
        | none => setStatus usageStatus
      else
        let status ← splitAndWait (runText fuel false) do
          match ← redirect (substitute fuel) false [] redirects with
          | some _ => run fuel { place with last := true } body
          | none => setStatus usageStatus
        setStatus status
        checkFailure place
    | .redirected line body redirects => do
      modify fun s => { s with line }
      withRedirects fuel redirects (run fuel { place with last := false } body)
    | .choice condition body otherwise => do
      run fuel { tested := true } condition
      if (← get).status = 0 then run fuel place body else run fuel place otherwise
    | .loop wanted condition body => do
      setStatus (← repeatLoop fuel place.tested wanted condition body 0)
    | .forEach line name words body => do
      modify fun s => { s with line }
      let values ← match words with
        | none => do pure (← get).arguments
        | some words => expandWords (substitute fuel) false words
      setStatus 0
      forValues fuel place.tested name body values
    | .case_ line subject clauses => do
      modify fun s => { s with line }
      let text ← expandText (substitute fuel) subject
      setStatus 0
      runClauses fuel place text.toList clauses
    | .function name body => do
      modify fun s =>
        { s with functions := (name, body) :: s.functions.filter (·.1 ≠ name), status := 0 }
    if place.last then throw (.script (← get).status)

/-- Ends the script after a failure, if that is wanted. -/
def checkFailure (place : Place) : Sh Unit := do
  let s ← get
  if s.status ≠ 0 && s.options.contains 'e' && !place.tested then throw (.script s.status)

/-- Runs the commands for signals that arrived. -/
def handleSignals : (fuel : Nat) → Sh Unit
  | 0 => return ()
  | fuel + 1 => do
    let traps := (← get).traps.filter fun (signal, action) => action ≠ "" && signal ≠ 0
    if traps ≠ [] then
      let _ ← noticeSignals
      let caught := (← get).caught
      modify fun s => { s with caught := [] }
      for signal in caught do
        match traps.lookup signal with
        | none => pure ()
        | some command =>
          let status := (← get).status
          runText fuel false command
          setStatus status

/-- Runs something with redirections that are undone afterwards. -/
def withRedirects : (fuel : Nat) → List Redirect → Sh Unit → Sh Unit
  | 0, _, _ => throw .fault
  | fuel + 1, redirects, body => do
    match ← redirect (substitute fuel) true [] redirects with
    | none => setStatus usageStatus
    | some saved =>
      let result ← observe body
      restoreFds saved
      resumeWith result

/-- The rounds of a loop; the value is the status of its body. -/
def repeatLoop : (fuel : Nat) → (tested wanted : Bool) → (condition body : Command) →
    (status : Nat) → Sh Nat
  | 0, _, _, _, _, status => return status
  | fuel + 1, tested, wanted, condition, body, status => do
    match Round.after (← observe (inLoop (run fuel { tested := true } condition))) with
    | .leave why => throw why
    | .stop => return status
    | .next =>
      if decide ((← get).status = 0) ≠ wanted then return status
      else
        let result ← observe (inLoop (run fuel { tested } body))
        let status := (← get).status
        match Round.after result with
        | .leave why => throw why
        | .stop => return status
        | .next => repeatLoop fuel tested wanted condition body status

/-- The rounds of a loop over values. -/
def forValues : (fuel : Nat) → (tested : Bool) → (name : String) → (body : Command) →
    List String → Sh Unit
  | 0, _, _, _, _ => return ()
  | _ + 1, _, _, _, [] => return ()
  | fuel + 1, tested, name, body, value :: rest => do
    setVariable name value
    match Round.after (← observe (inLoop (run fuel { tested } body))) with
    | .leave why => throw why
    | .stop => return ()
    | .next => forValues fuel tested name body rest

/-- Runs the body of the first clause with a pattern that matches. -/
def runClauses : (fuel : Nat) → Place → (text : List Char) →
    List (List Word × Command) → Sh Unit
  | 0, _, _, _ => return ()
  | _ + 1, _, _, [] => return ()
  | fuel + 1, place, text, (patterns, body) :: rest => do
    if ← matchesAny fuel text patterns then
      match body with
      | .nothing => return ()
      | body => run fuel place body
    else runClauses fuel place text rest

/-- Whether one of the patterns matches. -/
def matchesAny : (fuel : Nat) → (text : List Char) → List Word → Sh Bool
  | 0, _, _ => return false
  | _ + 1, _, [] => return false
  | fuel + 1, text, word :: rest => do
    let pattern ← expandPattern (substitute fuel) word
    if pattern.isMatch text then return true else matchesAny fuel text rest

/-- Starts commands that are connected by pipes. `input` is the end to read
from, or zero. -/
def startStages : (fuel : Nat) → (background : Bool) → (input : Fd) → List Command → Sh (List Pid)
  | 0, _, _, _ => return []
  | _ + 1, _, _, [] => return []
  | fuel + 1, background, input, stage :: rest => do
    let pipe? ← if rest = [] then pure none else do
      match ← Action.makePipe with
      | .ok ends => pure (some ends)
      | .error _ => abandon "Pipe call failed"
    let pid ← split (runText fuel false) do
      if background then
        let _ ← Action.ask (.handle Signal.interrupt .ignored)
        let _ ← Action.ask (.handle Signal.quit .ignored)
        if input = 0 then
          Action.close 0
          let _ ← Action.openFile (.ofString "/dev/null") .input
      match pipe? with
      | some (reader, _) => Action.close reader
      | none => pure ()
      if input ≠ 0 then moveFd input 0
      match pipe? with
      | some (_, writer) => moveFd writer 1
      | none => pure ()
      run fuel { last := true } stage
    if input ≠ 0 then Action.close input
    match pipe? with
    | none => return [pid]
    | some (reader, writer) =>
      Action.close writer
      return pid :: (← startStages fuel background reader rest)

/-- The output of a command, without the line ends behind it. -/
def substitute : (fuel : Nat) → Command → Sh String
  | 0, _ => throw .fault
  | _ + 1, .nothing => return ""
  | fuel + 1, body => do
    match ← Action.makePipe with
    | .error _ => abandon "Pipe call failed"
    | .ok (reader, writer) =>
      modify fun s => s.takeNumber.2
      let pid ← split (runText fuel false) do
        Action.close reader
        moveFd writer 1
        run fuel { last := true } body
      Action.close writer
      let output ← Action.readAll reader
      Action.close reader
      let status ← waitForChild pid Action.manyTimes
      modify fun s => { s with substituted := status }
      match output with
      | .ok data =>
        let text := data.octets.toList.filter (· ≠ '\x00')
        return String.ofList (text.reverse.dropWhile (· = '\n')).reverse
      | .error _ => return ""

/-- Reads and runs all commands of a text; without any the status is zero. -/
def runText : (fuel : Nat) → (tested : Bool) → String → Sh Unit
  | 0, _, _ => throw .fault
  | fuel + 1, tested, text => runSource fuel tested true 0 { rest := text.toList }

/-- Reads and runs what is left of a text, of which nothing was run yet if it
is `idle`. What is not known of it comes from the descriptor `stream`. -/
def runSource : (fuel : Nat) → (tested idle : Bool) → (stream : Fd) → Source → Sh Unit
  | 0, _, _, _, _ => throw .fault
  | fuel + 1, tested, idle, stream, source => do
    let s ← get
    let source := { source with
      asked := s.askedDocuments, documents := s.documents, aliases := s.aliases }
    match Read.completeCommand.run source with
    | .error .unfinished =>
      let block ← Action.readSome stream scriptBlock
      let more := block.octets.toList.filter (· ≠ '\x00')
      runSource fuel tested idle stream
        { source with rest := source.rest ++ more, whole := block = [] }
    | .error (.fault line fault) =>
      modify fun s => { s with line }
      abandon fault.message
    | .ok (none, _) => if idle then setStatus 0
    | .ok (some command, source) =>
      modify fun s => { s with askedDocuments := source.asked, documents := source.documents }
      run fuel { tested } command
      runSource fuel tested false stream source

/-- Runs a simple command. -/
def runSimple : (fuel : Nat) → Place → List (String × Word) → List Word → List Redirect → Sh Unit
  | 0, _, _, _, _ => throw .fault
  | fuel + 1, place, assignments, words, redirects => do
    let substitute := substitute fuel
    modify fun s => { s with substituted := 0 }
    let texts ← expandWords substitute false (words.take 1)
    let declaring := texts.head?.any declaringBuiltins.contains
    let texts := texts ++ (← expandWords substitute declaring (words.drop 1))
    match texts with
    | [] =>
      match ← redirect substitute true [] redirects with
      | none => setStatus usageStatus
      | some saved =>
        let result ← observe (assignAll substitute false assignments)
        restoreFds saved
        trace (← resumeWith result)
        setStatus (← get).substituted
    | name :: arguments => do
      let special := specialBuiltins.contains name
      let keep := name ≠ "exec"
      match ← redirect substitute keep [] redirects with
      | none =>
        setStatus usageStatus
        if special then throw .fault
      | some saved =>
        let result ← observe do
          if special then
            let shown ← assignAll substitute false assignments
            trace (shown ++ name :: arguments)
            runNamed fuel place name arguments
          else
            let before := (← get).vars
            let shown ← assignAll substitute true assignments
            trace (shown ++ name :: arguments)
            let result ← observe (runNamed fuel place name arguments)
            for (name, _) in assignments do
              modify (·.restoreVariable name (before.lookup name))
            resumeWith result
        if keep then restoreFds saved
        resumeWith result

/-- Runs what a command name stands for. -/
def runNamed : (fuel : Nat) → Place → (name : String) → (arguments : List String) → Sh Unit
  | 0, _, _, _ => throw .fault
  | fuel + 1, place, name, arguments => do
    match (← get).functions.lookup name with
    | some body => runFunction fuel place body arguments
    | none => runOther fuel place { special := specialBuiltins.contains name } name arguments

/-- Runs a command that is no function. -/
def runOther : (fuel : Nat) → Place → Manner → (name : String) → (arguments : List String) →
    Sh Unit
  | 0, _, _, _, _ => throw .fault
  | fuel + 1, place, manner, name, arguments => do
    match name, arguments with
    | "command", _ =>
      match commandWords false arguments with
      | some (standardPath, name :: arguments) =>
        runOther fuel place { special := false, standardPath } name arguments
      | _ => asBuiltin name false do
        setStatus (← describeCommand arguments)
    | "eval", _ => asBuiltin name manner.special do
      runText fuel place.tested (" ".intercalate arguments)
    | ".", _ => asBuiltin name manner.special do
      match ← operandsOf arguments with
      | [] => setStatus 0
      | path :: _ => runFile fuel path
    | "exec", [] => setStatus 0
    | "exec", _ => do
      modify fun s => { s with builtin := some name }
      becomeProgram manner.standardPath arguments
    | "type", _ => asBuiltin name false do
      setStatus (← describeNames 0 arguments)
    | "hash", _ => asBuiltin name false do
      setStatus (← hashBuiltin arguments)
    | _, _ =>
      match builtins.lookup name with
      | some body => asBuiltin name manner.special do
        setStatus (← body arguments)
      | none => do
        let become : Sh Unit := becomeProgram manner.standardPath (name :: arguments)
        match ← locate name manner.standardPath with
        | .error cause =>
          complain (name ++ ": " ++ commandFailure cause)
          setStatus 127
        | .ok _ =>
          if place.last && !(← hasTraps) then become
          else
            let status ← splitAndWait (runText fuel false) become
            setStatus status

/-- Runs the commands in a file, which can be left like a function. -/
def runFile : (fuel : Nat) → (path : String) → Sh Unit
  | 0, _ => throw .fault
  | fuel + 1, path => do
    match ← locateScript path with
    | none => abandon (path ++ ": not found")
    | some path =>
      match ← fileText path with
      | .error cause => abandon (openingWords false path cause)
      | .ok text =>
        match ← observe (inName path (runText fuel false text)) with
        | .error (.function status) => setStatus status
        | result => resumeWith result

/-- Runs a function with its own positional parameters. -/
def runFunction : (fuel : Nat) → Place → Command → (arguments : List String) → Sh Unit
  | 0, _, _, _ => throw .fault
  | fuel + 1, place, body, arguments => do
    let outer ← get
    modify fun s => { s.setArguments arguments with locals := some [], loops := 0 }
    let result ← observe (run fuel { tested := place.tested } body)
    let saved := ((← get).locals).getD []
    for (name, old) in saved do
      modify (·.restoreVariable name old)
    modify fun s =>
      { s with arguments := outer.arguments, optionIndex := outer.optionIndex,
               optionOffset := outer.optionOffset, locals := outer.locals, loops := outer.loops }
    match result with
    | .error (.function status) => setStatus status
    | result => resumeWith result

end

end JobShell.Script
