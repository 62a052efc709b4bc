import JobShell.Text.Floating
import JobShell.Tool.Launch

/-!
# Programs that look at the clock

`sleep` waits; `timeout` runs a command and sends signals to it when it
takes too long. Durations are numbers with a unit.
-/

namespace JobShell.Tool

open Machine (Action Pid)

/-- The longest time that is waited for, in microseconds. -/
def longestWait : Nat := 10 ^ 18

/-- The seconds of a unit of time. -/
def timeUnit? : List Char → Option Nat
  | [] | ['s'] => some 1
  | ['m'] => some 60
  | ['h'] => some 3600
  | ['d'] => some 86400
  | _ => none

/-- The microseconds of a duration such as `0.3` or `2m`; parts of one count
as a whole one. -/
def readDuration (text : String) : Option Nat :=
  match Text.Floating.read? .double text.toList with
  | some (.finite negative significand exponent, _, rest) =>
    if negative ∧ significand ≠ 0 then none
    else
      (timeUnit? rest).map fun unit =>
        let (n, d) := Text.Floating.scale (significand * unit * 1000000) 1 2 exponent
        min longestWait ((n + d - 1) / d)
  | some (.infinite false, _, rest) => (timeUnit? rest).map fun _ => longestWait
  | _ => none

/-- Waits for the sum of its arguments. -/
def sleep (i : Invocation) : Action Unit := do
  let (_, arguments) ← i.options {}
  if arguments = [] then misused i "missing operand"
  let wrong := arguments.filter fun text => (readDuration text).isNone
  for text in wrong.dropLast do
    complainAs i.name s!"invalid time interval {Quoted.plain text}"
  match wrong.getLast? with
  | some text => misused i s!"invalid time interval {Quoted.plain text}"
  | none =>
    let _ ← Action.ask (.sleep (min longestWait (arguments.filterMap readDuration).sum))

/-! ## Limits -/

namespace Limit

/-- How a command is watched. -/
structure Setting where
  duration : Nat
  signal : Signal
  /-- How long after the first signal the command is killed. -/
  killAfter : Option Nat
  /-- The command stays in the group of the terminal. -/
  foreground : Bool
  /-- The status of the command counts even if it took too long. -/
  preserves : Bool
  tells : Bool

/-- Sends a signal to a command, and to all that it began. -/
def Setting.send (s : Setting) (i : Invocation) (command : String) (worker : Pid)
    (signal : Signal) : Action Unit := do
  if s.tells then
    let name := match Signal.names.lookup signal with
      | some name => name
      | none => toString signal
    complainAs i.name s!"sending signal {name} to command {Quoted.always command}"
  let _ ← Action.ask (.send worker signal)
  if !s.foreground then
    let _ ← Action.ask (.handle signal .ignored)
    let _ ← Action.ask (.send 0 signal)
    if signal ≠ Signal.kill ∧ signal ≠ Signal.continue_ then
      let _ ← Action.ask (.handle Signal.continue_ .ignored)
      let _ ← Action.ask (.send worker Signal.continue_)
      let _ ← Action.ask (.send 0 Signal.continue_)

/-- Ends as the command ended. -/
def Setting.finish (s : Setting) (late : Bool) (status : WaitStatus) : Action Unit := do
  match status.exitStatus?, status.termSignal? with
  | some code, _ => Action.exit (if late && !s.preserves then 124 else code.toNat)
  | none, some signal => do
    if !late then
      let (own, _) ← Action.ownNumbers
      let _ ← Action.ask (.handle signal .usual)
      let _ ← Action.ask (.send own signal)
    let code := 128 + signal.toNat
    Action.exit (if late && !s.preserves && signal ≠ Signal.kill then 124 else code)
  | none, none => Action.exit launchFault

/-- Begins a process that ends after some time. -/
def startClock (time : Nat) : Action Pid := Action.fork do
  let _ ← Action.ask (.sleep time)

/-- Waits for the command. Whenever the clock ends first, the command gets a
signal, and the clock is set once more if it is to be killed then. `rounds`
bounds how often anything happens. -/
def Setting.watch (s : Setting) (i : Invocation) (command : String) (worker : Pid) :
    (rounds : Nat) → (clock : Option Pid) → (late : Bool) → Action Unit
  | 0, _, _ => Action.exit launchFault
  | rounds + 1, clock, late => do
    match ← Action.wait none with
    | .error _ => Action.exit launchFault
    | .ok (pid, status) =>
      if pid = worker then
        if let some clock := clock then
          let _ ← Action.ask (.send clock Signal.kill)
        s.finish late status
      else if clock = some pid then
        s.send i command worker (if late then Signal.kill else s.signal)
        match s.killAfter, late with
        | some time, false =>
          let clock ← startClock time
          watch s i command worker rounds (some clock) true
        | _, _ => watch s i command worker rounds none true
      else watch s i command worker rounds clock late

end Limit

/-- Runs a command, and ends it if it takes too long. -/
def timeout (i : Invocation) : Action Unit := do
  let (options, operands) ← i.options
    { flags := "v", valued := "ks", longValued := "",
      long := [("kill-after", 'k'), ("signal", 's'), ("foreground", 'F'),
        ("preserve-status", 'P'), ("verbose", 'v')] } launchFault true
  let duration (text : String) : Action Nat := do
    match readDuration text with
    | some time => return time
    | none => misused i s!"invalid time interval {Quoted.plain text}" launchFault
  let killAfter ← match optionValue? options 'k' with
    | none => pure none
    | some text => pure (some (← duration text))
  let signal ← match optionValue? options 's' with
    | none => pure Signal.terminate
    | some text =>
      match readSignal text with
      | some signal => pure signal
      | none => misused i s!"{Quoted.plain text}: invalid signal" launchFault
  match operands with
  | text :: command :: arguments => do
    let s : Limit.Setting := {
      duration := ← duration text, signal, killAfter := killAfter.filter (· ≠ 0)
      foreground := hasOption options 'F', preserves := hasOption options 'P'
      tells := hasOption options 'v' }
    if !s.foreground then
      let _ ← Action.ask .leadGroup
    let _ ← Action.ask (.handle Signal.terminalInput .ignored)
    let _ ← Action.ask (.handle Signal.terminalOutput .ignored)
    let worker ← Action.fork do
      let _ ← Action.ask (.handle Signal.terminalInput .usual)
      let _ ← Action.ask (.handle Signal.terminalOutput .usual)
      let words := (command :: arguments).map Bytes.ofOctets
      let cause ← executeNamed (.ofOctets command) words i.environment
      complainAs i.name s!"failed to run command {Quoted.always command}: {errorWords cause}"
      Action.exit (launchStatus cause)
    let clock ← if s.duration = 0 then pure none else
      pure (some (← Limit.startClock s.duration))
    s.watch i command worker Action.manyTimes clock false
  | _ => do
    complain s!"Try '{i.name} --help' for more information.\n"
    Action.exit launchFault

end JobShell.Tool
