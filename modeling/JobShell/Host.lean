import JobShell.Descriptor
import JobShell.Log
import JobShell.Resolve
import JobShell.Machine.Schedule

/-!
# The shell's hold on the machine

`Host` is the machine together with what belongs to the shell itself: its
descriptors, its process group, the ownership of the terminal, and its logs.
Everything the shell opens for itself is closed when another program is
executed.
-/

namespace JobShell

open Machine (World Outside OpenMode OpenFile NodeId Pid Slots)

/-- The machine and the shell's own place in it. -/
structure Host where
  world : World
  shell : Outside
  slotLimit : Nat := Slots.usualLimit
  logger : Log.Logger := []

namespace Host

/-! ## Descriptors of the shell -/

/-- Opens a file for the shell. -/
def openFile (h : Host) (directory : NodeId) (path : Bytes) (mode : OpenMode) :
    Except OsError (Fd × Host) :=
  if path.hasNul then .error .nulInPath
  else if h.slotLimit ≤ h.shell.slots.firstFree 0 then .error .tooManyOpenFiles
  else do
    let (file, world) ←
      h.world.openEndpoint h.shell h.shell.pid directory path mode
    let (id, world) := world.addFile file
    let (fd, slots) ← h.shell.slots.allocate h.slotLimit 0 ⟨id, true⟩
    return (fd, { h with world, shell := { h.shell with slots } })

/-- Closes a descriptor of the shell. -/
def close (h : Host) (fd : Fd) : Host :=
  { h with shell := { h.shell with slots := h.shell.slots.erase fd } }

/-- Closes several descriptors of the shell. -/
def closeAll (h : Host) (fds : List Fd) : Host := fds.foldl close h

/-- The read end and the write end of a new pipe. -/
def makePipe (h : Host) : Except OsError ((Fd × Fd) × Host) := do
  let (reader, writer, world) := h.world.addPipe
  let (readFd, slots) ← h.shell.slots.allocate h.slotLimit 0 ⟨reader, true⟩
  let (writeFd, slots) ← Slots.allocate slots h.slotLimit 0 ⟨writer, true⟩
  return ((readFd, writeFd), { h with world, shell := { h.shell with slots } })

/-- A duplicate of one of the shell's descriptors, above the standard
streams. -/
def duplicate (h : Host) (fd : Fd) : Except OsError (Fd × Host) := do
  let (copy, slots) ← h.shell.slots.duplicate h.slotLimit fd 3 true
  return (copy, { h with shell := { h.shell with slots } })

/-- The shell as a process, for calls on its own descriptors. -/
def asProcess (h : Host) : Machine.Process where
  parent := World.adopter
  group := h.shell.group
  name := []
  slots := h.shell.slots
  directory := Machine.Tree.root
  ignored := h.shell.ignored
  activity := .running (.exit 0) none

/-- Writes for the shell. What can not be written is lost. -/
def write (h : Host) (fd : Fd) (data : Bytes) : Host :=
  match h.world.performWrite h.shell h.shell.pid h.asProcess fd data with
  | .answered (.number _) world => { h with world }
  | _ => h

/-- Reads for the shell; nothing at the end of input. -/
def read (h : Host) (fd : Fd) (count : Nat) : Except OsError (Bytes × Host) :=
  match h.world.performRead h.shell h.shell.pid h.asProcess fd count with
  | .answered (.data block) world => .ok (block, { h with world })
  | .answered (.failed e) _ => .error e
  | _ => .ok ([], h)

/-- Whether a descriptor of the shell is a terminal. -/
def isTerminal (h : Host) (fd : Fd) : Bool :=
  match h.world.performIsTerminal h.asProcess fd with
  | .answered .done _ => true
  | _ => false

/-! ## Messages -/

/-- Text on the shell's standard output. -/
def print (h : Host) (text : String) : Host := h.write 1 (.ofString text)

/-- A line on the shell's standard error. -/
def complain (h : Host) (line : String) : Host := h.write 2 (.ofString (line ++ "\n"))

/-- Writes a record to the logs. -/
def record (h : Host) (r : Log.Record) : Host :=
  (h.logger.deliveries r).foldl (fun h (sink, line) =>
    match sink with
    | .user _ => h.write 2 (.ofString line)
    | .file fd => h.write fd (.ofString line)) h

/-- Sends the records of a target to a sink as well. -/
def addRoute (h : Host) (target : String) (sink : Log.Sink) : Host :=
  { h with logger := h.logger ++ [.ofTarget target sink] }

/-- Adds a logger for a target. Its file is created if there is none. -/
def addLogger (h : Host) (directory : NodeId) (target : String) :
    Log.Outlet → Except OsError Host
  | .user label => .ok (h.addRoute target (.user label))
  | .file path => do
    let (fd, h) ← h.openFile directory path .append
    return h.addRoute target (.file fd)

/-- Adds loggers for some targets, up to the first one whose file can not be
opened. -/
def addLoggers (h : Host) (directory : NodeId) :
    List (String × Log.Outlet) → Except OsError Host
  | [] => .ok h
  | (target, outlet) :: rest => do (← h.addLogger directory target outlet).addLoggers directory rest

/-- A message for developers. -/
def log (h : Host) (level : Log.Level) (message : String) : Host :=
  h.record { target := Log.devTarget, level, message }

/-! ## The file tree -/

/-- The tree as the shell finds it from a directory. -/
def tree (h : Host) (directory : NodeId) : Machine.Tree :=
  h.world.seenBy h.shell h.shell.pid directory

/-- What resolution needs to know, seen from a directory. -/
def fileView (h : Host) (directory : NodeId) : FileView where
  isRegularFile := (h.tree directory).isRegularFile directory
  currentDirectory := (h.tree directory).pathTo directory

/-! ## Redirections -/

/-- Opens the file of a redirection. -/
def openRedirection (h : Host) (directory : NodeId) (r : Redirection) :
    Except Failure (Fd × Host) :=
  if !DescriptorTable.isRedirectable r.fd then
    .error (.redirection r.path (.unredirectable r.fd))
  else
    let mode := match r.direction with
      | .input => OpenMode.input
      | .output => OpenMode.output
    match h.openFile directory r.path mode with
    | .ok result => .ok result
    | .error cause => .error (.redirection r.path cause)

/-- Applies redirections to a table from left to right, up to the first one
that fails. -/
def redirectAll (h : Host) (directory : NodeId) (t : DescriptorTable) :
    List Redirection → Option Failure × DescriptorTable × Host
  | [] => (none, t, h)
  | r :: rest =>
    match h.openRedirection directory r with
    | .error failure => (some failure, t, h)
    | .ok (fd, h) => redirectAll h directory (t.redirect r.fd (.file r.path fd)) rest

/-- The table of a stage. If a redirection fails, everything is closed. -/
def buildTable (h : Host) (directory : NodeId) (stdin stdout : Descriptor)
    (redirections : List Redirection) : Except Failure DescriptorTable × Host :=
  match h.redirectAll directory (.standard stdin stdout) redirections with
  | (none, t, h) => (.ok t, h)
  | (some failure, t, h) => (.error failure, h.closeAll t.fds)

end Host

end JobShell
