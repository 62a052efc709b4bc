import JobShell.Signal

/-!
# How processes end

The system reports the end of a process as one number. `WaitStatus` reads
it: the low seven bits are zero for a process that exited by itself and the
signal for one that was killed, and the next byte but one is the exit
status. `ExitReason` is what is left of it for the jobs.
-/

namespace JobShell

/-- The status a process leaves behind, as the system encodes it. -/
structure WaitStatus where
  raw : Int
  deriving DecidableEq, Repr

namespace WaitStatus

/-- The status of a process that exited with `code`. -/
def ofExit (code : Nat) : WaitStatus := ⟨(code % 256 : Nat) * 256⟩

/-- The status of a process that `signal` killed. -/
def ofSignal (signal : Signal) : WaitStatus := ⟨signal⟩

/-- The low seven bits. -/
def low (s : WaitStatus) : Int := s.raw % 128

/-- Whether the process exited by itself. -/
def didExit (s : WaitStatus) : Bool := s.low = 0

/-- The exit status, if the process exited by itself. -/
def exitStatus? (s : WaitStatus) : Option Int :=
  if s.didExit then some (s.raw / 256 % 256) else none

/-- Whether a signal killed the process. -/
def wasSignaled (s : WaitStatus) : Bool := s.low ≠ 0 && s.low ≠ 127

/-- The signal that killed the process, if one did. -/
def termSignal? (s : WaitStatus) : Option Signal :=
  if s.wasSignaled then some s.low else none

/-- The status as the development log shows it. -/
def render (s : WaitStatus) : String :=
  match s.exitStatus?, s.termSignal? with
  | some code, _ => s!"ExitStatus({code})"
  | none, some signal => s!"TermSignal({signal.render})"
  | none, none => "Unknown"

end WaitStatus

/-- Why a stage ended. -/
inductive ExitReason
  | code (status : Int)
  | signal (s : Signal)
  deriving DecidableEq, Repr

namespace ExitReason

/-- The reason behind a status; a process that only stopped has none. -/
def ofStatus (s : WaitStatus) : Option ExitReason :=
  match s.exitStatus? with
  | some status => some (.code status)
  | none => s.termSignal?.map .signal

/-- Only a process that exited with status zero succeeded. -/
def success (r : ExitReason) : Bool := r = .code 0

/-- The reason in words. -/
def message : ExitReason → String
  | code status => s!"exited with status {status}"
  | signal s => s!"terminated by {s.render}"

/-- The reason as the development log shows it. -/
def render : ExitReason → String
  | code status => s!"Code({status})"
  | signal s => s!"Signal({s})"

/-- The reasons of all stages as the development log shows them; a stage
that could not be waited for has none. -/
def renderAll (reasons : List (Option ExitReason)) : String :=
  let one : Option ExitReason → String
    | some r => s!"Some({r.render})"
    | none => "None"
  "[" ++ ", ".intercalate (reasons.map one) ++ "]"

end ExitReason

end JobShell
