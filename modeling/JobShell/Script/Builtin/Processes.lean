import JobShell.Script.Builtin.Arguments
import JobShell.Tool.Mode

/-!
# Processes and signals

The builtin commands that send signals, wait for the jobs of a script, and
say what is done about signals. A script has no job control: its jobs only
run in the background until it waits for them.
-/

namespace JobShell.Script

open Machine (Action Pid)

/-! ## Signals -/

/-- How scripts name a signal; zero is the end of the script. -/
def signalName (signal : Nat) : String :=
  if signal = 0 then "EXIT"
  else if signal = 30 then "PWR"
  else if signal = 34 then "RTMIN"
  else if 34 < signal ∧ signal < 50 then s!"RTMIN+{signal - 34}"
  else if 50 ≤ signal ∧ signal < 64 then s!"RTMAX-{64 - signal}"
  else if signal = 64 then "RTMAX"
  else (Signal.names.lookup (Int.ofNat signal)).getD (toString signal)

/-- The number of signals, with that for the end of the script. -/
def signalCount : Nat := 65

/-- The signal, not below `least`, that a name or a number stands for. -/
def readSignal (least : Nat) (text : String) : Option Nat :=
  match Text.readNat? text with
  | some n => if least ≤ n ∧ n < signalCount then some n else none
  | none =>
    (List.range signalCount).find? fun signal =>
      least ≤ signal && signalName signal = text.map Char.toUpper

/-- What is asked of `kill`. -/
inductive KillRequest
  | list (operands : List String)
  | send (signal : Nat) (targets : List String)

/-- Reads the arguments of `kill`. The first one may name the signal. -/
def readKill (arguments : List String) : Sh KillRequest := do
  let named := match (arguments.headD "").toList with
    | '-' :: name => readSignal 0 (String.ofList name)
    | _ => none
  match named with
  | some signal => return .send signal arguments.tail
  | none => do
    let (options, operands) ← readFlags "l" "s" arguments
    if options.any (·.1 = 'l') then return .list operands
    else
      match options.reverse.lookup 's' with
      | none => return .send Signal.terminate.toNat operands
      | some name =>
        match readSignal 0 name with
        | some signal => return .send signal operands
        | none => abandon ("invalid signal number or name: " ++ name)

/-- Names all signals, or the one that a number or a status stands for. -/
def listSignals (operands : List String) : Sh Nat := do
  match operands with
  | [] =>
    let names := (List.range signalCount).tail.map signalName
    printed (Tool.joinLines ("0" :: names))
  | text :: _ => do
    let n ← readNumber text
    let signal := if 128 < n then n - 128 else n
    if 0 < signal ∧ signal < signalCount then printed (signalName signal ++ "\n")
    else abandon ("invalid signal number or exit status: " ++ text)

/-- The process, or the group of processes, that a target of `kill` is. -/
def readTarget (text : String) : Sh Int := do
  match text.toList with
  | '%' :: _ =>
    match (← get).job? text with
    | .ok job => return -Int.ofNat (job.pids.headD 0)
    | .error reason => abandon reason
  | '-' :: digits => return -Int.ofNat (← readNumber (String.ofList digits))
  | _ => return Int.ofNat (← readNumber text)

/-- Sends a signal to one target after the other. -/
def sendSignal (signal : Nat) (status : Nat) : List String → Sh Nat
  | [] => return status
  | target :: rest => do
    let pid ← readTarget target
    match ← Action.ask (.send pid (Int.ofNat signal)) with
    | .ok () => sendSignal signal status rest
    | .error cause => do
      complain (Tool.errorWords cause ++ "\n")
      sendSignal signal 1 rest

/-- Sends signals, or names them. -/
def killBuiltin (arguments : List String) : Sh Nat := do
  let usage := "Usage: kill [-s sigspec | -signum | -sigspec] [pid | job]... or\n" ++
    "kill -l [exitstatus]"
  if arguments = [] then abandon usage
  match ← readKill arguments with
  | .list operands => listSignals operands
  | .send _ [] => abandon usage
  | .send signal targets => sendSignal signal 0 targets

/-- Says what is done about a signal. -/
def setTrap (signal : Signal) (action : Option String) : Sh Unit := do
  let disposition : Machine.Disposition := match action with
    | none => .usual
    | some "" => .ignored
    | some _ => .caught
  if signal ≠ 0 then
    let _ ← Action.ask (.handle signal disposition)
  modify fun s =>
    let others := s.traps.filter (·.1 ≠ signal)
    { s with traps := match action with
        | none => others
        | some action => others ++ [(signal, action)] }

/-- Says the same for every signal that is named. -/
def setTraps (action : Option String) : List String → Sh Nat
  | [] => return 0
  | name :: rest => do
    match readSignal 0 name with
    | none => do
      Tool.complain ("trap: " ++ name ++ ": bad trap\n")
      return 1
    | some signal => do
      setTrap (Int.ofNat signal) action
      setTraps action rest

/-- Prints what is done about signals, or changes it. -/
def trapBuiltin (arguments : List String) : Sh Nat := do
  match ← operandsOf arguments with
  | [] =>
    let traps := (← get).traps.mergeSort fun a b => decide (a.1 ≤ b.1)
    let lines := traps.map fun (signal, action) =>
      "trap -- " ++ quote action ++ " " ++ signalName signal.toNat
    printed (Tool.joinLines lines)
  | first :: rest =>
    if rest = [] ∨ (Text.readNat? first).any (· < signalCount) then setTraps none (first :: rest)
    else setTraps (if first = "-" then none else some first) rest

/-! ## Waiting -/

/-- The status that the end of a command gives. -/
def endingStatus (ending : WaitStatus) : Nat :=
  match ending.exitStatus?, ending.termSignal? with
  | some code, _ => code.toNat
  | none, some signal => 128 + signal.toNat
  | none, none => 0

/-- The status of a command that ended; the end by a signal is reported. -/
def statusOf (ending : WaitStatus) : Sh Nat := do
  match ending.termSignal? with
  | some signal =>
    if signal ≠ Signal.interrupt && signal ≠ Signal.brokenPipe then
      Tool.complain (signal.describe ++ "\n")
  | none => pure ()
  return endingStatus ending

/-- Takes up the signals that were caught, for later. The value is the last
one. -/
def noticeSignals : Sh (Option Signal) := do
  let signals ← Action.takeCaught
  modify fun s => { s with caught := s.caught ++ signals }
  return signals.getLast?

/-- The status of a wait that failed: caught signals end it. -/
def interruptedStatus (cause : OsError) (otherwise : Nat) : Sh Nat := do
  if cause.isInterrupted then
    match ← noticeSignals with
    | some signal => return 128 + signal.toNat
    | none => return otherwise
  else return otherwise

/-- Waits for one process after the other, and remembers how they ended.
Whether all have ended, or else the status. -/
def awaitProcesses : List Pid → Sh (Except Nat Unit)
  | [] => return .ok ()
  | pid :: rest => do
    match ← Action.wait (some pid) with
    | .ok (_, ending) =>
      modify (·.noteEnding pid ending)
      awaitProcesses rest
    | .error cause =>
      if cause.isInterrupted then return .error (← interruptedStatus cause 0)
      else awaitProcesses rest

/-- Waits for a job. -/
def awaitJob (job : BackgroundJob) : Sh Nat := do
  match ← awaitProcesses job.running with
  | .error status => return status
  | .ok () => do
    modify (·.markWaited job.number)
    match ((← get).jobs.find? (·.number = job.number)).bind (·.ending?) with
    | none => return 0
    | some ending => if job.running = [] then return endingStatus ending else statusOf ending

/-- Waits for all jobs; `count` bounds the number of their processes. -/
def awaitAll : (count : Nat) → Sh Nat
  | 0 => return 0
  | count + 1 => do
    match ← Action.wait none with
    | .ok (pid, ending) =>
      modify (·.noteEnding pid ending)
      awaitAll count
    | .error cause => do
      if !cause.isInterrupted then
        modify fun s => { s with jobs := s.jobs.map fun job => { job with waited := true } }
      interruptedStatus cause 0

/-- Waits for jobs that are named or given by the number of a process. -/
def awaitEach (status : Nat) : List String → Sh Nat
  | [] => return status
  | text :: rest => do
    let s ← get
    let job? ← if text.startsWith "%" then
        match s.job? text with
        | .ok job => pure (some job)
        | .error reason => abandon reason
      else do
        let pid ← readNumber text
        pure (s.jobs.find? fun job => job.pids.getLast? = some pid)
    match job? with
    | none => awaitEach 127 rest
    | some job => do
      let status ← awaitJob job
      awaitEach status rest

/-- Waits for children of the script. -/
def waitBuiltin (arguments : List String) : Sh Nat := do
  match ← operandsOf arguments with
  | [] => awaitAll Action.manyTimes
  | operands => awaitEach 0 operands

/-! ## Jobs -/

/-- Takes up which processes have ended meanwhile. -/
def noticeEndings : List Pid → Sh Unit
  | [] => return ()
  | pid :: rest => do
    if let some ending ← Action.endingOf pid then modify (·.noteEnding pid ending)
    noticeEndings rest

/-- What a job is doing, in words. -/
def BackgroundJob.activity (job : BackgroundJob) : String :=
  match job.ending? with
  | none => "Running"
  | some ending =>
    match ending.termSignal?, endingStatus ending with
    | some signal, _ => signal.describe
    | none, 0 => "Done"
    | none, status => s!"Done({status})"

/-- The lines about a job; `mark` tells the current one and the one before.
The commands are not shown, as the script does not keep their texts. -/
def BackgroundJob.lines (job : BackgroundJob) (mark : Char) (withPids : Bool) : String :=
  let padded (text : String) : String := text ++ "".pushn ' ' (max 1 (33 - text.length))
  let number := toString job.number
  let start := s!"[{number}] {mark} "
  if withPids then
    match job.pids with
    | [] => ""
    | first :: rest =>
      let others := rest.map fun pid =>
        padded (" |\n" ++ "".pushn ' ' start.length ++ s!"{pid} ")
      padded (start ++ s!"{first} " ++ job.activity) ++ String.join others ++ "\n"
  else
    padded (start ++ job.activity) ++
      String.join (job.pids.tail.map fun _ => " | ") ++ "\n"

/-- Shows jobs. Those that have ended are forgotten then. -/
def showJobs (options : List Char) (current : List BackgroundJob) : List BackgroundJob → Sh Nat
  | [] => return 0
  | job :: rest => do
    let mark := if current.head?.any (·.number = job.number) then '+'
      else if (current[1]?).any (·.number = job.number) then '-' else ' '
    let text := match options.getLast? with
      | some 'p' => toString (job.pids.headD 0) ++ "\n"
      | option => job.lines mark (option = some 'l')
    let status ← printed text
    if job.ending?.isSome && options.getLast? ≠ some 'p' then modify (·.dropJob job.number)
    let others ← showJobs options current rest
    return max status others

/-- Shows what the jobs of the script are doing. -/
def jobsBuiltin (arguments : List String) : Sh Nat := do
  let (options, operands) ← readFlags "lp" "" arguments
  noticeEndings ((← get).jobs.flatMap (·.running))
  let jobs := (← get).jobs
  let rec named : List String → Sh (List BackgroundJob)
    | [] => return []
    | name :: rest => do
      match (← get).job? name with
      | .error reason => abandon reason
      | .ok job => return job :: (← named rest)
  showJobs (options.map (·.1)) jobs (← if operands = [] then pure jobs else named operands)

/-- Continues a job, which needs job control. -/
def continueBuiltin (arguments : List String) : Sh Nat := do
  let operands ← operandsOf arguments
  let s ← get
  let found := match operands with
    | [] => s.currentJob?
    | name :: _ => s.job? name
  match found with
  | .error reason => abandon reason
  | .ok _ =>
    let name := operands.headD "(null)"
    abandon s!"job {name} not created under job control"

/-! ## Limits -/

/-- The limits of processes: their letters, what they are in words, and their
usual values. -/
def limits : List (Char × String × String) :=
  [('t', "time(seconds)", "unlimited"), ('f', "file(blocks)", "unlimited"),
   ('d', "data(kbytes)", "unlimited"), ('s', "stack(kbytes)", "8192"),
   ('c', "coredump(blocks)", "0"), ('m', "memory(kbytes)", "unlimited"),
   ('l', "locked memory(kbytes)", "8192"), ('p', "process", "unlimited"),
   ('n', "nofiles", "1024"), ('v', "vmemory(kbytes)", "unlimited"),
   ('w', "locks", "unlimited"), ('r', "rtprio", "0")]

/-- Shows limits. Changing them has no effect: nothing here reaches them. -/
def ulimitBuiltin (arguments : List String) : Sh Nat := do
  let (options, operands) ← readFlags "HSatfdscmlpnvwr" "" arguments
  let letters := (options.map (·.1)).filter fun c => c ≠ 'H' && c ≠ 'S'
  let letter := letters.getLast?.getD 'f'
  match operands with
  | [] =>
    if letter = 'a' then
      printed (Tool.joinLines (limits.map fun (_, words, value) =>
        words ++ "".pushn ' ' (21 - words.length) ++ value))
    else
      match limits.lookup letter with
      | some (_, value) => printed (value ++ "\n")
      | none => return 0
  | value :: rest =>
    if letter = 'a' ∨ rest ≠ [] then abandon "too many arguments"
    if value ≠ "unlimited" ∧ (Text.readNat? value).isNone then abandon "bad number"
    return 0

/-- The bits of permissions as they are written in clauses. -/
def maskClauses (mask : Nat) : String :=
  let shown (who : String) (shift : Nat) : String :=
    let allowed := ((0o777 - mask) >>> shift) % 8
    let letter (bit : Nat) (c : String) : String := if allowed &&& bit ≠ 0 then c else ""
    who ++ "=" ++ letter 4 "r" ++ letter 2 "w" ++ letter 1 "x"
  ",".intercalate [shown "u" 6, shown "g" 3, shown "o" 0]

/-- Shows or sets the permissions that new files do not get. -/
def umaskBuiltin (arguments : List String) : Sh Nat := do
  let (options, operands) ← readFlags "S" "" arguments
  let mask := (← get).mask
  match operands with
  | [] => printed ((if options = [] then Tool.Mode.octal mask else maskClauses mask) ++ "\n")
  | text :: _ =>
    if (text.toList.headD '-').isDigit then
      if !text.toList.all fun c => '0' ≤ c ∧ c ≤ '7' then abandon ("Illegal number: " ++ text)
      let digits := text.toList.foldl (fun n c => n * 8 + (c.toNat - '0'.toNat)) 0
      modify fun s => { s with mask := digits % 0o1000 }
      return 0
    else
      let clauses := (text.splitOn ",").filter fun clause =>
        !(clause ≠ "" ∧ clause.toList.all fun c => (Tool.Mode.whoBits? c).isSome)
      match Tool.Mode.read (",".intercalate clauses) with
      | some change =>
        modify fun s => { s with mask := 0o777 - change (0o777 - mask) true % 0o1000 }
        return 0
      | none =>
        if clauses = [] then return 0 else abandon ("Illegal mode: " ++ text)

/-- Shows the time that was used. -/
def timesBuiltin (_ : List String) : Sh Nat := do
  let line := "0m0.000000s 0m0.000000s\n"
  printed (line ++ line)

end JobShell.Script
