import JobShell.Line
import JobShell.Session.Builtin

/-!
# Running lines

A line is read, and then it is assignments for the session, a command the
shell carries out itself, or a pipeline to run as a job. If the first stage
of a pipeline is a command of the shell, nothing else of the pipeline is
looked at.
-/

namespace JobShell.Session

/-- Assigns values to variables, from left to right. -/
def assignAll (s : Session) (pairs : List (String × String)) : Session :=
  { s with vars := pairs.foldl (fun vs (name, value) => vs.assign name value) s.vars }

/-- Carries out a command of the shell. -/
def runBuiltin (s : Session) (b : Builtin) (arguments : List String) : Flow × Session :=
  match b.run s arguments with
  | .ok result => result
  | .error fault => (.continue_, s.diagnose fault.message)

/-- Runs a pipeline as a job. -/
def runJob (s : Session) (p : Pipeline) : Session :=
  let (outcome, supervisor) :=
    s.supervisor.runPipeline s.directory s.vars.environment p
  let s := { s with supervisor }
  match outcome with
  | .failed failure => s.diagnose failure.message
  | .foreground reasons _ =>
    s.onHost (·.log .info s!"foreground job done: {ExitReason.renderAll reasons}")
  | .background e =>
    s.onHost (·.log .info
      (s!"'{e.description}' running in the background as group " ++ toString (e.group?.getD 0)))

/-- Does what a line asks for. -/
def runParsed (s : Session) : Line → Flow × Session
  | .empty => (.continue_, s)
  | .assignments pairs => (.continue_, s.assignAll pairs)
  | .pipeline p =>
    match p.stages with
    | [] => (.continue_, s.runJob p)
    | first :: _ =>
      match Builtin.ofName? first.command with
      | some b => s.runBuiltin b first.argv.tail
      | none => (.continue_, s.runJob p)

/-- Runs a line. -/
def runLine (s : Session) (line : String) : Flow × Session :=
  match Line.parse line with
  | .error fault => (.continue_, s.diagnose fault.message)
  | .ok parsed =>
    let (flow, s) := s.runParsed parsed
    (if s.vars.refused then .crash else flow, s)

/-- Prints all notices that are pending, one on each line. -/
def reportNotices (s : Session) : List String × Session :=
  let (notices, supervisor) := s.supervisor.takeNotices
  let s := { s with supervisor }
  (notices, notices.foldl tell s)

end JobShell.Session
