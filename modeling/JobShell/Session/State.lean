import JobShell.Supervisor
import JobShell.Variables

/-!
# The state of a session

What a line can change: the variables with the environment they are
published to, the current directory, and the jobs. Jobs are given the first
two and can not change them.
-/

namespace JobShell

open Machine (NodeId)

/-- A session of the shell. -/
structure Session where
  vars : Variables
  directory : NodeId
  supervisor : Supervisor
  /-- The lines that were printed for the user. -/
  told : List String := []

/-- What a line means for the session. -/
inductive Flow
  | continue_
  /-- The session ends with this status. -/
  | exit (status : Int)
  /-- The session ends at once: the environment was to be changed in a way that
  is not possible. -/
  | crash
  deriving DecidableEq, Repr

namespace Session

/-- The machine and the shell's place in it. -/
def host (s : Session) : Host := s.supervisor.host

/-- The session after an action of the shell itself. -/
def onHost (s : Session) (action : Host → Host) : Session :=
  { s with supervisor := { s.supervisor with host := action s.supervisor.host } }

/-- Prints a line for the user. -/
def tell (s : Session) (line : String) : Session :=
  { s.onHost (·.complain line) with told := s.told ++ [line] }

/-- A line of diagnosis for the user. -/
def diagnose (s : Session) (message : String) : Session := s.tell ("jobsh: " ++ message)

/-- The path of the current directory, unless it was removed. The system
hands out paths up to the first byte zero. -/
def currentDirectory (s : Session) : Except OsError Bytes :=
  ((s.host.tree s.directory).pathTo s.directory).map (·.takeWhile (· ≠ 0))

end Session

end JobShell
