import JobShell.Machine.Program

/-!
# Worlds

The state that the started processes share: files, pipes, the processes
themselves, a clock, and what was typed at the terminal. The shell is not
one of these processes. What they see of it - its open descriptors, its
process group, who owns the terminal - is `Outside`, which no step of a
process can change.
-/

namespace JobShell.Machine

/-- What an open file gives access to. -/
inductive Endpoint
  | node (id : NodeId)
  | pipeReader (pipe : Nat)
  | pipeWriter (pipe : Nat)
  /-- A text that was made up when the file was opened. -/
  | snapshot (data : Bytes)
  /-- One end of a connection nobody but the machine reads from. -/
  | report
  deriving DecidableEq, Repr

/-- A file that was opened; all descriptors that stem from the same opening
share its offset. -/
structure OpenFile where
  endpoint : Endpoint
  offset : Nat := 0
  mode : OpenMode
  deriving Repr

/-- What a process is doing. -/
inductive Activity
  /-- Runs `program`; a sleeping process goes on at the time `wake`. -/
  | running (program : Program) (wake : Option Nat)
  | stopped (program : Program) (wake : Option Nat)
  | ended (status : WaitStatus)

/-- A process. -/
structure Process where
  parent : Pid
  group : Pid
  /-- The last part of the path of its program. -/
  name : Bytes
  slots : Slots
  slotLimit : Nat := Slots.usualLimit
  directory : NodeId
  ignored : List Signal := []
  caught : List Signal := []
  /-- Caught signals that were not taken up yet. -/
  arrived : List Signal := []
  activity : Activity

/-- What the processes see of the shell. -/
structure Outside where
  pid : Pid
  group : Pid
  slots : Slots
  /-- The group the terminal belongs to; none without a terminal. -/
  foreground : Option Pid
  /-- The signals the shell ignores. If the one about ended children is among
  them, ended children of the shell vanish at once. -/
  ignored : List Signal

/-- The programs a machine brings along, by name. -/
abbrev Library := String → Option (List Bytes → Environment → Program)

/-- A machine: its files, its processes, its clock and its keyboard. -/
structure World where
  library : Library
  tree : Tree
  files : Array OpenFile := #[]
  /-- The bytes in each pipe. -/
  pipes : Array Bytes := #[]
  processes : Std.TreeMap Pid Process := ∅
  nextPid : Pid
  /-- Microseconds since the start. -/
  clock : Nat := 0
  /-- The lines typed at the terminal; an empty one is an end of input. -/
  keyboard : List Bytes := []

namespace World

/-! ## Files -/

def file? (w : World) (id : FileId) : Option OpenFile := w.files[id]?

/-- A new open file. -/
def addFile (w : World) (file : OpenFile) : FileId × World :=
  (w.files.size, { w with files := w.files.push file })

def setOffset (w : World) (id : FileId) (offset : Nat) : World :=
  { w with files := w.files.modify id fun file => { file with offset } }

/-- A new pipe, and the files of its read end and its write end. -/
def addPipe (w : World) : FileId × FileId × World :=
  let pipe := w.pipes.size
  let w := { w with pipes := w.pipes.push [] }
  let (reader, w) := w.addFile { endpoint := .pipeReader pipe, mode := { reads := true } }
  let (writer, w) := w.addFile { endpoint := .pipeWriter pipe, mode := { writes := true } }
  (reader, writer, w)

/-- Whether some descriptor refers to the endpoint. -/
def isHeld (w : World) (outside : Outside) (endpoint : Endpoint) : Bool :=
  let holds (slots : Slots) : Bool :=
    slots.any fun _ slot =>
      match w.file? slot.file with
      | some file => file.endpoint = endpoint
      | none => false
  holds outside.slots || w.processes.any fun _ p => holds p.slots

/-! ## Processes -/

def process? (w : World) (pid : Pid) : Option Process := w.processes[pid]?

def setProcess (w : World) (pid : Pid) (p : Process) : World :=
  { w with processes := w.processes.insert pid p }

/-- Adds a process under the next number. -/
def addProcess (w : World) (p : Process) : Pid × World :=
  (w.nextPid, { w with processes := w.processes.insert w.nextPid p, nextPid := w.nextPid + 1 })

def removeProcess (w : World) (pid : Pid) : World :=
  { w with processes := w.processes.erase pid }

/-- How a process ended, if it has. -/
def ending? (w : World) (pid : Pid) : Option WaitStatus :=
  match w.process? pid with
  | some p =>
    match p.activity with
    | .ended status => some status
    | _ => none
  | none => none

/-- Whether a process of this number is there and has not ended. -/
def isAlive (w : World) (pid : Pid) : Bool :=
  match w.process? pid with
  | some p =>
    match p.activity with
    | .ended _ => false
    | _ => true
  | none => false

/-- The parent of processes whose own parent ended. -/
def adopter : Pid := 1

/-- Whether ended children of `parent` are waited for by it. -/
def keepsEnded (w : World) (outside : Outside) (parent : Pid) : Bool :=
  if parent = outside.pid then Signal.child ∉ outside.ignored
  else
    match w.process? parent with
    | some p => Signal.child ∉ p.ignored && w.isAlive parent
    | none => false

/-- Ends a process: its descriptors are closed, its children are adopted,
and its status is kept for its parent. -/
def finish (w : World) (outside : Outside) (pid : Pid) (status : WaitStatus) : World :=
  match w.process? pid with
  | none => w
  | some p =>
    let w :=
      if w.keepsEnded outside p.parent then
        w.setProcess pid { p with slots := ∅, activity := .ended status }
      else w.removeProcess pid
    let orphans := w.processes.filter fun _ child => child.parent = pid
    orphans.foldl (fun w orphan child =>
      match child.activity with
      | .ended _ => w.removeProcess orphan
      | _ => w.setProcess orphan { child with parent := adopter }) w

/-! ## Signals -/

/-- A signal reaches a process. -/
def deliver (w : World) (outside : Outside) (pid : Pid) (signal : Signal) : World :=
  match w.process? pid with
  | none => w
  | some p =>
    match p.activity with
    | .ended _ => w
    | .running program wake =>
      if signal ∈ p.ignored then w
      else if signal ∈ p.caught then
        w.setProcess pid { p with arrived := p.arrived.filter (· ≠ signal) ++ [signal] }
      else
        match Signal.defaultEffect signal with
        | .terminates => w.finish outside pid (.ofSignal signal)
        | .stops => w.setProcess pid { p with activity := .stopped program wake }
        | .nothing => w
    | .stopped program wake =>
      if signal = Signal.kill then w.finish outside pid (.ofSignal signal)
      else if signal = Signal.continue_ then
        w.setProcess pid { p with activity := .running program wake }
      else w

/-- The processes of a group. -/
def members (w : World) (group : Pid) : List Pid :=
  (w.processes.filter fun _ p => p.group = group).keys

/-- A signal reaches some processes. Signal zero reaches nobody. -/
def deliverValid (w : World) (outside : Outside) (pids : List Pid) (signal : Signal) :
    Except OsError World :=
  if signal < 0 ∨ 64 < signal then .error .invalidArgument
  else if signal = 0 then .ok w
  else .ok (pids.foldl (fun w pid => w.deliver outside pid signal) w)

/-- A signal reaches every process of a group. -/
def signalGroup (w : World) (outside : Outside) (group : Pid) (signal : Signal) :
    Except OsError World :=
  match w.members group with
  | [] => .error .noProcess
  | pids => w.deliverValid outside pids signal

/-- Sends a signal the way a process names its targets: a process by its
number, the sender's group by zero, any other group by a negative number. -/
def send (w : World) (outside : Outside) (sender : Process) (target : Int) (signal : Signal) :
    Except OsError World :=
  if target = 0 then w.signalGroup outside sender.group signal
  else if target < 0 then w.signalGroup outside target.natAbs signal
  else
    match w.process? target.toNat with
    | some _ => w.deliverValid outside [target.toNat] signal
    | none => if target = outside.pid ∨ target = 1 then .ok w else .error .noProcess

end World

end JobShell.Machine
