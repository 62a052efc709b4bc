import JobShell.Signal
import JobShell.Text.Decimal
import JobShell.Tool.Basic

/-!
# Sending signals

`kill` sends a signal to processes. Signals are named or numbered.
-/

namespace JobShell.Tool

open Machine (Action)

/-- The signals with a name, some of them with a second one. -/
def signalNames : List (Signal × String) :=
  Signal.names ++ [(16, "STKFLT"), (30, "PWR"), (29, "POLL"), (6, "IOT"), (17, "CLD"),
    (0, "EXIT"), (34, "RTMIN"), (64, "RTMAX")]

/-- The signal that a name or a number stands for. -/
def readSignal (text : String) : Option Signal :=
  match Text.readNat? text with
  | some n => if n ≤ 64 then some n else none
  | none =>
    let name := text.map Char.toUpper
    let name := if name.startsWith "SIG" then String.ofList (name.toList.drop 3) else name
    (signalNames.find? (·.2 = name)).map (·.1)

/-- The names of signals as lists show them. -/
def listedSignals : List (Nat × String) :=
  (List.range 31).map fun k =>
    let name := match k + 1 with
      | 16 => "STKFLT"
      | 29 => "POLL"
      | 30 => "PWR"
      | number => (Signal.names.lookup (Int.ofNat number)).getD ""
    (k + 1, name)

/-- How `kill` is used. -/
def killUsage : String := joinLines
  ["", "Usage:", " kill [options] <pid> [...]", "", "Options:",
   " <pid> [...]            send signal to every <pid> listed",
   " -<signal>, -s, --signal <signal>",
   "                        specify the <signal> to be sent",
   " -q, --queue <value>    integer value to be sent with the signal",
   " -l, --list=[<signal>]  list all signal names, or convert one to a name",
   " -L, --table            list all signal names in a nice table", "",
   " -h, --help     display this help and exit",
   " -V, --version  output version information and exit", "",
   "For more details see kill(1)."]

/-- Ends a `kill` that was called wrongly. -/
def refuseKill : Action α := do
  complain killUsage
  Action.exit 1

/-- Lists the names of signals, or says what one stands for. -/
def listSignals (i : Invocation) (text : Option String) : Action Unit := do
  match text with
  | none =>
    let names := listedSignals.map (·.2)
    say i.name (joinLines [" ".intercalate (names.take 16), " ".intercalate (names.drop 16)])
  | some text =>
    match Text.readNat? text, readSignal text with
    | some n, _ =>
      match listedSignals.lookup n with
      | some name => say i.name (name ++ "\n")
      | none => complainAs i.name s!"unknown signal name {text}"
    | none, some signal => say i.name (toString signal ++ "\n")
    | none, none => complainAs i.name s!"unknown signal name {text}"

/-- Shows the signals with their numbers, seven in a line. -/
def tabulateSignals (i : Invocation) : Action Unit := do
  let cell (number : Nat) (name : String) : String :=
    let digits := toString number
    "".pushn ' ' (2 - digits.length) ++ digits ++ " " ++ name ++ "".pushn ' ' (7 - name.length)
  let rec rows : (count : Nat) → List (Nat × String) → List String
    | 0, _ | _, [] => []
    | count + 1, signals =>
      let cells := (signals.take 7).map fun (number, name) => cell number name
      let line := " ".intercalate cells
      let line := if signals.length < 7 then line else
        String.ofList (line.toList.reverse.dropWhile (· = ' ')).reverse
      line :: rows count (signals.drop 7)
  say i.name (joinLines (rows listedSignals.length listedSignals))

/-- Sends a signal to every target. -/
def sendToAll (i : Invocation) (signal : Signal) (status : Nat) : List String → Action Unit
  | [] => Action.exit status
  | target :: rest => do
    match Text.readInt? target with
    | none => die i.name s!"failed to parse argument: '{target}'"
    | some pid =>
      match ← Action.ask (.send pid signal) with
      | .ok () => sendToAll i signal status rest
      | .error cause =>
        complainAs i.name s!"({pid}): {errorWords cause}"
        sendToAll i signal 1 rest

/-- Sends signals. An argument such as `-9` or `-TERM` names the signal,
wherever it stands. -/
def kill (i : Invocation) : Action Unit := do
  if i.arguments = [] then refuseKill
  let asSignal (argument : String) : Option Signal :=
    if isDashed argument then readSignal (String.ofList (argument.toList.drop 1)) else none
  let given := i.arguments.findSome? asSignal
  let arguments := match i.arguments.findIdx? fun argument => (asSignal argument).isSome with
    | some k => i.arguments.eraseIdx k
    | none => i.arguments
  let table : OptionTable := {
    flags := "LhV", valued := "sq", attached := "l"
    long := [("list", 'l'), ("table", 'L'), ("signal", 's'), ("queue", 'q')] }
  match readOptions table false (arguments.length + 1) arguments with
  | .error text =>
    let letter := if text.endsWith "'" && !text.startsWith "un" then
      ((text.toList.reverse.drop 1).headD '\x00') else '\x00'
    complainAs i.name s!"invalid argument {letter}"
    refuseKill
  | .ok (options, targets) => do
    if let some (_, text) := options.find? (·.1 = 'l') then
      listSignals i text
      Action.exit 0
    if hasOption options 'L' then
      tabulateSignals i
      Action.exit 0
    if targets = [] then refuseKill
    let signal : Signal := match optionValue? options 's' with
      | some text => (readSignal text).getD (-1)
      | none => given.getD Signal.terminate
    sendToAll i signal 0 targets

end JobShell.Tool
