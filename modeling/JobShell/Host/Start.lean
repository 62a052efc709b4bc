import JobShell.Host

/-!
# Starting a process

The shell starts a process by splitting itself. The new process prepares
itself - descriptors, group, terminal, signals - and then executes the
command. It reports a failure to the shell over a connection that closes by
itself when the execution succeeds; until then the shell waits, which is why
all of this is one step.

The connection is opened right before the split, at the lowest free numbers.
A redirected descriptor can have the same number. Then the report of a
failure ends up in the file of that redirection, and the shell takes the
process for started.
-/

namespace JobShell

open Machine (World Image Process Slots NodeId Pid Endpoint)

/-- A process to be started. -/
structure StartRequest where
  path : Bytes
  /-- All arguments; the first one is the name the command is run under. -/
  arguments : List Bytes
  environment : Environment
  table : DescriptorTable
  /-- The group to join; without one the process leads a new group. -/
  group : Option Pid
  /-- Whether the group of the process gets the terminal. -/
  takesTerminal : Bool

namespace StartRequest

/-- Whether something in the request can not be handed to a process. -/
def hasNul (r : StartRequest) : Bool :=
  r.path.hasNul || r.arguments.any Bytes.hasNul || r.environment.entries.any Bytes.hasNul

end StartRequest

namespace Host

/-- The end of a failure report that tells it from other data. -/
def reportMark : Bytes := .ofString "NOEX"

/-- A failure report: the error number in four bytes, and the mark. -/
def report (cause : OsError) : Bytes :=
  let number := match cause with
    | .code number => number.toNat
    | .custom _ => 22
  [UInt8.ofNat (number / 16777216), UInt8.ofNat (number / 65536), UInt8.ofNat (number / 256),
   UInt8.ofNat number] ++ reportMark

/-- What a process says when it can not even report a failure. -/
def unreportable : Bytes :=
  .ofString "fatal runtime error: assertion failed: output.write(&bytes).is_ok(), aborting\n"

/-- Duplicates the descriptors that become the standard streams. -/
def duplicateStreams (h : Host) : List (Fd × Fd) → Except OsError (List (Fd × Fd) × Host)
  | [] => .ok ([], h)
  | (fd, target) :: rest => do
    let (copy, h) ← h.duplicate fd
    let (copies, h) ← duplicateStreams h rest
    return ((copy, target) :: copies, h)

/-- Opens the connection for the report; the second number is the end of the
new process. -/
def openReport (h : Host) : Except OsError ((Fd × Fd) × Host) := do
  let (file, world) := h.world.addFile { endpoint := .report, mode := { writes := true } }
  let (own, slots) ← h.shell.slots.allocate h.slotLimit 0 ⟨file, true⟩
  let (other, slots) ← Slots.allocate slots h.slotLimit 0 ⟨file, true⟩
  return ((own, other), { h with world, shell := { h.shell with slots } })

/-- The descriptors a new process has set up when it comes to executing the
command, from those it was split off with. -/
def childSlots (slots : Slots) (limit : Nat) (streams moves : List (Fd × Fd)) :
    Option OsError × Slots :=
  match slots.place limit streams with
  | (some e, slots) => (some e, slots)
  | (none, slots) => slots.remap limit moves

/-- The signals a new process ignores: those of the shell, except the ones
that a shell ignores for itself. -/
def childIgnored (h : Host) : List Signal :=
  Signal.restoreJobControl (h.shell.ignored.filter (· ≠ Signal.brokenPipe))

/-- A process that could not execute its command reports that. If the end of
the connection is gone the process ends as any other, and the shell does not
learn of the failure. -/
def reportFailure (h : Host) (p : Process) (reportFd : Fd) (cause : OsError) :
    Except OsError Pid × Host :=
  let file := (p.slots[reportFd]?).bind fun slot => h.world.file? slot.file
  match file.map (·.endpoint) with
  | some Endpoint.report =>
    (.error cause, { h with world := { h.world with nextPid := h.world.nextPid + 1 } })
  | _ =>
    let (pid, world) := h.world.addProcess p
    match world.performWrite h.shell pid p reportFd (report cause) with
    | .answered (.number _) world =>
      (.ok pid, { h with world := world.finish h.shell pid (.ofExit 1) })
    | _ =>
      let world := match world.performWrite h.shell pid p 2 unreportable with
        | .answered _ world => world
        | _ => world
      (.ok pid, { h with world := world.finish h.shell pid (.ofSignal Signal.abort) })

/-- Splits off the process and lets it prepare itself. -/
def split (h : Host) (directory : NodeId) (r : StartRequest) (copies : List (Fd × Fd))
    (reportFds : Fd × Fd) : Except OsError Pid × Host :=
  let pid := h.world.nextPid
  let group := r.group.getD pid
  let h := if r.takesTerminal then
      { h with shell := { h.shell with foreground := some group } }
    else h
  let (failed, slots) :=
    childSlots (h.shell.slots.erase reportFds.1) h.slotLimit copies r.table.moves
  let p : Process :=
    { parent := h.shell.pid, group, name := [], slots, slotLimit := h.slotLimit, directory,
      ignored := h.childIgnored, activity := .running (.exit 1) none }
  match failed with
  | some cause => h.reportFailure p reportFds.2 cause
  | none =>
    let t := (h.world.setProcess pid p).seenBy h.shell pid directory
    match h.world.executeCommand t directory r.path r.arguments r.environment with
    | .error cause => h.reportFailure p reportFds.2 cause
    | .ok image =>
      let (pid, world) := h.world.addProcess
        { p with name := image.name, slots := slots.afterExec,
                 activity := .running image.program none }
      (.ok pid, { h with world })

/-- Starts a process in a directory. The descriptors opened for that are
closed again. -/
def start (h : Host) (directory : NodeId) (r : StartRequest) : Except OsError Pid × Host :=
  match h.duplicateStreams r.table.streams with
  | .error cause => (.error cause, h)
  | .ok (copies, opened) =>
    if r.hasNul then (.error .nulInData, h)
    else
      match opened.openReport with
      | .error cause => (.error cause, h)
      | .ok (reportFds, connected) =>
        let (result, after) := connected.split directory r copies reportFds
        (result, after.closeAll ([reportFds.1, reportFds.2] ++ copies.map (·.1)))

end Host

end JobShell
