import JobShell.Script.Syntax
import JobShell.Status
import JobShell.Text.Decimal
import JobShell.Tool.Basic

/-!
# The state of a script

What a running script remembers, and the monad `Sh` in which it runs: a
command changes the state, makes calls, or leaves the place where it stands
for the end of a loop, of a function or of the whole script.

Texts are strings of octets, like the arguments of all programs.
-/

namespace JobShell.Script

open Machine (Action Pid)

/-- A variable. One that was only marked has no value. -/
structure Variable where
  value : Option String
  exported : Bool := false
  readOnly : Bool := false

/-- A pipeline that runs in the background: its number, and its processes with
what is known of their ends. -/
structure BackgroundJob where
  number : Nat
  processes : List (Pid × Option WaitStatus)
  /-- The script has waited for it. -/
  waited : Bool := false

namespace BackgroundJob

/-- The processes of a job. -/
def pids (job : BackgroundJob) : List Pid := job.processes.map (·.1)

/-- The processes that are not known to have ended. -/
def running (job : BackgroundJob) : List Pid :=
  (job.processes.filter (·.2.isNone)).map (·.1)

/-- How the job ended, if it has: the way its last process did. -/
def ending? (job : BackgroundJob) : Option WaitStatus :=
  if job.running = [] then job.processes.getLast?.bind (·.2) else none

end BackgroundJob

/-- What a script knows while it runs. -/
structure State where
  /-- The name of the script in messages. -/
  name : String
  /-- The positional parameters. -/
  arguments : List String := []
  vars : List (String × Variable) := []
  functions : List (String × Command) := []
  /-- The abbreviations of commands. -/
  aliases : List (String × String) := []
  /-- How many documents the scripts asked for, and their texts. -/
  askedDocuments : Nat := 0
  documents : List (Nat × Word) := []
  /-- What is done about signals; zero is the end of the script. -/
  traps : List (Signal × String) := []
  options : List Char := []
  /-- The status of the last command. -/
  status : Nat := 0
  /-- The status of the last substituted command of the current one. -/
  substituted : Nat := 0
  background : Option Pid := none
  /-- The jobs in the background, the latest first. -/
  jobs : List BackgroundJob := []
  /-- The caught signals whose commands are not run yet. -/
  caught : List Signal := []
  /-- The path of the current directory as the script knows it. -/
  directory : String := ""
  /-- Where the search for options goes on: the number of an argument, and a
  place in the argument before it. -/
  optionIndex : Nat := 1
  optionOffset : Option Nat := none
  /-- The permissions that new files do not get. -/
  mask : Nat := 0o022
  pid : Pid := 0
  line : Nat := 1
  /-- The builtin command that is being run. -/
  builtin : Option String := none
  /-- The variables to bring back when the current function ends. -/
  locals : Option (List (String × Option Variable)) := none
  /-- How many loops the current command stands in. -/
  loops : Nat := 0

/-- Leaving the place of a command. -/
inductive Leave
  /-- The end of the given number of loops, or their next round. -/
  | loop (levels : Nat) (again : Bool)
  | function (status : Nat)
  | script (status : Nat)
  /-- Something was used wrongly, which was complained about. -/
  | fault

/-- A part of a running script. -/
abbrev Sh := ExceptT Leave (StateT State Action)

/-- Does something and hands over how it was left. -/
def observe (body : Sh α) : Sh (Except Leave α) :=
  fun s => do
    let (result, s) ← (body.run).run s
    return (.ok result, s)

/-- Goes on as `result` says. -/
def resumeWith (result : Except Leave α) : Sh α := fun s => return (result, s)

/-! ## Messages -/

/-- The status of a command that was used wrongly. -/
def usageStatus : Nat := 2

/-- Complains in the name of the script and of the current builtin. -/
def complain (text : String) : Sh Unit := do
  let s ← get
  let command := match s.builtin with
    | some command => command ++ ": "
    | none => ""
  Tool.complain s!"{s.name}: {s.line}: {command}{text}\n"

/-- Does something in the name of a builtin command. -/
def inName (name : String) (body : Sh α) : Sh α := do
  let outer := (← get).builtin
  modify fun s => { s with builtin := some name }
  let result ← observe body
  modify fun s => { s with builtin := outer }
  resumeWith result

/-- Complains and leaves what was used wrongly. -/
def abandon (text : String) : Sh α := do
  complain text
  throw .fault

/-- Remembers the status of a command. -/
def setStatus (status : Nat) : Sh Unit := modify fun s => { s with status }

/-! ## Variables -/

namespace State

/-- The variable of a name. -/
def variableOf? (s : State) (name : String) : Option Variable := s.vars.lookup name

/-- The value of a variable that is set. -/
def value? (s : State) (name : String) : Option String := (s.variableOf? name).bind (·.value)

/-- Gives a name a variable. -/
def putVariable (s : State) (name : String) (v : Variable) : State :=
  if s.vars.any (·.1 = name) then
    { s with vars := s.vars.map fun entry => if entry.1 = name then (name, v) else entry }
  else { s with vars := s.vars ++ [(name, v)] }

/-- Takes a name's variable away. -/
def removeVariable (s : State) (name : String) : State :=
  { s with vars := s.vars.filter (·.1 ≠ name) }

/-- Brings a variable back to an earlier state. -/
def restoreVariable (s : State) (name : String) : Option Variable → State
  | some v => s.putVariable name v
  | none => s.removeVariable name

/-- Gives a variable a value, and marks it if `exported` holds. -/
def assign (s : State) (name value : String) (exported : Bool := false) : State :=
  let old := (s.variableOf? name).getD { value := none }
  s.putVariable name
    { old with value := some value,
               exported := exported || old.exported || s.options.contains 'a' }

/-- The variables are kept in this many chains. -/
def chainCount : Nat := 39

/-- The chain of a variable, which decides its place in an environment. -/
def chainOf (name : String) : Nat :=
  let numbers := name.toList.map Char.toNat
  (numbers.headD 0 * 16 + numbers.sum) % chainCount

/-- The exported variables, chain by chain. -/
def environment (s : State) : Environment :=
  let exported := s.vars.filterMap fun (name, v) =>
    if v.exported then v.value.map fun value => (name, value) else none
  let sorted := exported.mergeSort fun a b => decide (chainOf a.1 ≤ chainOf b.1)
  sorted.map fun (name, value) => (.ofOctets name, .ofOctets value)

/-- Gives a name the meaning of a text. -/
def putAlias (s : State) (name text : String) : State :=
  if s.aliases.any (·.1 = name) then
    { s with aliases := s.aliases.map fun entry => if entry.1 = name then (name, text) else entry }
  else { s with aliases := s.aliases ++ [(name, text)] }

/-- The abbreviations, chain by chain. -/
def sortedAliases (s : State) : List (String × String) :=
  s.aliases.mergeSort fun a b => decide (chainOf a.1 ≤ chainOf b.1)

/-- Replaces the positional parameters; the search for options begins anew. -/
def setArguments (s : State) (arguments : List String) : State :=
  { s with arguments, optionIndex := 1, optionOffset := none }

/-- The search path that is used when none is set. -/
def usualSearchPath : String := "/usr/local/sbin:/usr/local/bin:/usr/sbin:/usr/bin:/sbin:/bin"

/-- The search path for commands. -/
def searchPath (s : State) : Bytes := .ofOctets ((s.value? "PATH").getD "")

/-- The characters that separate fields. -/
def separators (s : State) : List Char :=
  match s.variableOf? "IFS" with
  | some { value := some text, .. } => text.toList
  | _ => [' ', '\t', '\n']

/-! ### Jobs -/

/-- The least number of a new job. A job that ended and was waited for gives
its number away. -/
def takeNumber (s : State) : Nat × State :=
  let taken (number : Nat) : Bool :=
    s.jobs.any fun job => job.number = number && !(job.waited && job.ending?.isSome)
  let number := ((List.range (s.jobs.length + 1)).map (· + 1)).find? (!taken ·)
  let number := number.getD (s.jobs.length + 1)
  (number, { s with jobs := s.jobs.filter (·.number ≠ number) })

/-- Adds a job, which becomes the current one. -/
def addJob (s : State) (pids : List Pid) : State :=
  let (number, s) := s.takeNumber
  { s with jobs := { number, processes := pids.map fun pid => (pid, none) } :: s.jobs }

/-- Forgets a job. -/
def dropJob (s : State) (number : Nat) : State :=
  { s with jobs := s.jobs.filter (·.number ≠ number) }

/-- Remembers how a process of some job ended. -/
def noteEnding (s : State) (pid : Pid) (ending : WaitStatus) : State :=
  { s with jobs := s.jobs.map fun job =>
      { job with processes := job.processes.map fun entry =>
          if entry.1 = pid then (pid, some ending) else entry } }

/-- Remembers that the script has waited for a job. -/
def markWaited (s : State) (number : Nat) : State :=
  { s with jobs := s.jobs.map fun job =>
      if job.number = number then { job with waited := true } else job }

/-- The job that was made last. -/
def currentJob? (s : State) : Except String BackgroundJob :=
  match s.jobs with
  | [] => .error "No current job"
  | job :: _ => .ok job

/-- The job that a text such as `%1` names. -/
def job? (s : State) (text : String) : Except String BackgroundJob :=
  match text.toList with
  | ['%'] | ['%', '%'] | ['%', '+'] => s.currentJob?
  | ['%', '-'] =>
    match s.jobs[1]? with
    | some job => .ok job
    | none => .error "No previous job"
  | '%' :: digits =>
    let number := Text.readNat? (String.ofList digits)
    match s.jobs.find? fun job => some job.number = number with
    | some job => .ok job
    | none => .error ("No such job: " ++ text)
  | _ => .error ("No such job: " ++ text)

end State

/-- Gives a variable a value, unless it is read only. The place where the
search for options goes on is such a variable. -/
def setVariable (name value : String) (exported : Bool := false) : Sh Unit := do
  match (← get).variableOf? name with
  | some { readOnly := true, .. } => abandon (name ++ ": is read only")
  | _ =>
    modify (·.assign name value exported)
    if name = "OPTIND" then
      match Text.readNat? value with
      | some n => modify fun s => { s with optionIndex := max 1 n, optionOffset := none }
      | none => abandon ("Illegal number: " ++ value)

/-! ## Printing -/

/-- Writes to standard output in the name of a builtin; false if that
fails. -/
def print (text : String) : Sh Bool := do
  if text = "" then return true
  else
    match ← Action.writeAll 1 (.ofOctets text) with
    | .ok () => return true
    | .error _ =>
      let command := ((← get).builtin).getD ""
      complain (command ++ ": I/O error")
      return false

/-- Writes to standard output; the value is the status of the builtin. -/
def printed (text : String) : Sh Nat := do
  return if ← print text then 0 else 1

/-- Characters between single quotes; single quotes among them stand between
double ones. -/
def quoteChars : (length : Nat) → List Char → List Char
  | 0, _ => []
  | length + 1, cs =>
    let (plain, rest) := cs.span (· ≠ '\'')
    let (marks, rest) := rest.span (· = '\'')
    '\'' :: plain ++ '\'' ::
      (if marks = [] then [] else '"' :: marks ++ '"' ::
        (if rest = [] then [] else quoteChars length rest))

/-- A text in quotes that a script reads as the text. -/
def quote (text : String) : String :=
  String.ofList (quoteChars (text.length + 1) text.toList)

end JobShell.Script
