import JobShell.Host

/-!
# Terminal control

A shell that has a terminal hands it to its foreground jobs and takes it
back for the group that had it at first. A shell without one has nothing to
hand over, and its own group stands for the one in the foreground.
-/

namespace JobShell

open Machine (Pid)

/-- The shell's control over its terminal. -/
structure TerminalController where
  /-- The shell's own descriptor for the terminal, if it has one. -/
  fd? : Option Fd := none
  /-- The group in the foreground when it was asked for first. -/
  foreground? : Option Pid := none
  deriving DecidableEq, Repr

namespace TerminalController

/-- No control over a terminal. -/
def detached : TerminalController := {}

def isAttached (t : TerminalController) : Bool := t.fd?.isSome

/-- Controls the terminal on standard input, if that is one. -/
def ofStandardInput (h : Host) : Except OsError TerminalController × Host :=
  if h.isTerminal 0 then
    match h.duplicate 0 with
    | .ok (fd, h) => (.ok { fd? := some fd }, h)
    | .error cause => (.error cause, h)
  else
    (.ok detached, h.log .info "standard input is not a terminal, job control is disabled")

/-- Why the terminal does not say which group it belongs to: it does not
control the shell, and was not asked before. -/
def fault? (t : TerminalController) (h : Host) : Option OsError :=
  if t.isAttached && t.foreground?.isNone && h.shell.foreground.isNone then some .notTerminal
  else none

/-- The group that the terminal belongs to when no job has it. It is asked
for only once. -/
def foregroundGroup (t : TerminalController) (h : Host) : Pid × TerminalController :=
  match t.foreground? with
  | some group => (group, t)
  | none =>
    let group := match t.fd? with
      | some _ => h.shell.foreground.getD h.shell.group
      | none => h.shell.group
    (group, { t with foreground? := some group })

/-- Hands the terminal to a group. -/
def handTo (t : TerminalController) (h : Host) (group : Pid) : Host :=
  match t.fd? with
  | some _ =>
    let h := h.log .info s!"handing the terminal to process group {group}"
    { h with shell := { h.shell with foreground := some group } }
  | none => h

end TerminalController

end JobShell
