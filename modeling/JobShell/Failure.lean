import JobShell.OsError
import JobShell.Text.Bytes

/-!
# What can go wrong with a job

The causes for which a job is not started, not completed or not reported,
each with its wording and with the error of the system behind it.
-/

namespace JobShell

/-- Why a job failed. -/
inductive Failure
  /-- No file belongs to the command. -/
  | commandNotFound (path : Bytes)
  | pipe (cause : OsError)
  /-- The file of a redirection could not be opened. -/
  | redirection (path : Bytes) (cause : OsError)
  /-- The process of a stage could not be started. -/
  | spawn (command : Bytes) (cause : OsError)
  | wait (pid : Int) (cause : OsError)
  | emptyPipeline
  | terminal (cause : OsError)
  | io (cause : OsError)
  deriving DecidableEq, Repr

namespace Failure

/-- The wording of a failure. -/
def message : Failure → String
  | commandNotFound path => s!"{path.lossy}: command not found"
  | pipe cause => s!"cannot create pipe: {cause.message}"
  | redirection path cause => s!"{path.lossy}: {cause.message}"
  | spawn command cause => s!"cannot execute '{command.lossy}': {cause.message}"
  | wait pid cause => s!"cannot wait for process {pid}: {cause.message}"
  | emptyPipeline => "empty pipeline"
  | terminal cause => s!"terminal control failed: {cause.message}"
  | io cause => s!"IO error: {cause.message}"

/-- The error of the system behind a failure. -/
def cause? : Failure → Option OsError
  | commandNotFound _ | emptyPipeline => none
  | pipe cause | terminal cause | io cause => some cause
  | redirection _ cause | spawn _ cause | wait _ cause => some cause

end Failure

end JobShell
