import JobShell.Rounds
import JobShell.Session
import JobShell.Settings

/-!
# The interactive shell

The shell reads its settings, opens its logs, and then prompts for one line
after the other until one of them ends the session or the input ends. Input
is read in large blocks, so a job that reads the same input goes on behind
the block the shell has read. Neither a line nor the input has to end; what
reads them has no result then.
-/

namespace JobShell

open Machine (NodeId OpenMode)

/-- How the shell ended. -/
inductive Ending
  | status (status : Int)
  | failed (failure : Failure)
  | crashed
  /-- There was not enough memory for this many bytes. -/
  | outOfMemory (bytes : Nat)
  /-- It never ends by itself. -/
  | endless
  deriving DecidableEq, Repr

namespace Ending

/-- What whoever started the shell sees of its end. -/
def reason : Ending → ExitReason
  | status n => .code (n % 256)
  | failed _ => .code 1
  | crashed => .code 101
  | outOfMemory _ => .signal Signal.abort
  | endless => .signal Signal.kill

end Ending

/-- A session with its input. -/
structure Shell where
  session : Session
  prompt : String
  /-- Input that was read and not used yet. -/
  pending : Bytes := []

namespace Shell

/-- How much input is read at a time. -/
def blockSize : Nat := 8192

/-- The byte that ends a line. -/
def newline : UInt8 := '\n'.toUInt8

/-- Looks for the end of a line in the input that was read, and reads a block
if it is not there. `line` is what came before. -/
def readBlock (s : Shell) (line : Bytes) : Round (Shell × Bytes) (Except OsError Bytes × Shell) :=
  match s.pending.span (· ≠ newline) with
  | (front, _ :: rest) => .done (.ok (line ++ front ++ [newline]), { s with pending := rest })
  | (front, []) =>
    match s.session.host.read 0 blockSize with
    | .error cause => .done (.error cause, { s with pending := [] })
    | .ok ([], host) =>
      .done (.ok (line ++ front),
        { s with pending := [], session := s.session.onHost fun _ => host })
    | .ok (block, host) =>
      .again ({ s with pending := block, session := s.session.onHost fun _ => host },
        line ++ front)

/-- Reads the bytes of a line up to its end or the end of input. -/
def readBytes (s : Shell) : Option (Except OsError Bytes × Shell) :=
  untilDone (fun (s, line) => some (s.readBlock line)) (s, [])

/-- What the bytes of a line say: its text, or nothing at the end of input. -/
def decodeLine (line : Bytes) : Except OsError (Option String) :=
  if line = [] then .ok none
  else
    match line.text? with
    | some text => .ok (some text)
    | none => .error .invalidInput

/-- Reads a line; `none` at the end of input. -/
def readLine (s : Shell) : Option (Except OsError (Option String) × Shell) := do
  let (line, s) ← s.readBytes
  return (line >>= decodeLine, s)

/-- Prints the notices that are pending, and the prompt. -/
def promptForLine (s : Shell) : Shell :=
  { s with session := (s.session.reportNotices.2).onHost (·.print s.prompt) }

/-- Runs a line that was read. -/
def serve (s : Shell) (line : String) : Round Shell (Ending × Shell) :=
  let (flow, session) := s.session.runLine (String.ofList (Text.trim line.toList))
  match flow with
  | .continue_ => .again { s with session }
  | .exit status => .done (.status status, { s with session })
  | .crash => .done (.crashed, { s with session })

/-- Prompts for a line and runs it. -/
def serveNext (s : Shell) : Option (Round Shell (Ending × Shell)) := do
  match ← s.promptForLine.readLine with
  | (.error cause, s) => return .done (.failed (.io cause), s)
  | (.ok none, s) => return .done (.status 0, s)
  | (.ok (some line), s) => return s.serve line

/-- Serves lines until the shell ends. -/
def loop (s : Shell) : Option (Ending × Shell) := untilDone serveNext s

/-- Opens the logs: messages for users go to them behind a label, and
messages for developers to a file, if there is one. -/
def openLogs (h : Host) (directory : NodeId) (label : String) (devLog : Option String) : Host :=
  let h := h.addRoute Log.userTarget (.user label)
  match devLog with
  | none => h
  | some path =>
    match h.addLogger directory Log.devTarget (.file (.ofString path)) with
    | .ok h => h
    | .error cause => h.complain (label ++ "cannot open log file " ++ path ++ ": " ++ cause.message)

/-- The label of everything the shell tells its user. -/
def label : String := "jobsh: "

/-- The text an environment has for a name. -/
def lookup (env : Environment) (name : String) : Option String :=
  (env.get? (.ofString name)).bind Bytes.text?

/-- Makes the shell ready in a directory, with an environment, unless it ends
before its first prompt. -/
def start (h : Host) (directory : NodeId) (environment : Environment) :
    Except (Ending × Host) Shell :=
  let settings := Settings.ofLookup (lookup environment)
  let h := openLogs h directory label settings.devLog
  let h := h.log .info "development logs are enabled"
  let h := settings.warnings.foldl
    (fun h warning => h.record { target := Log.userTarget, level := .warn, message := warning }) h
  let h := { h with shell.ignored := Signal.ignoreJobControl h.shell.ignored }
  let room := NoticeQueue.room settings.noticeCapacity
  if NoticeQueue.memoryLimit < room then .error (.outOfMemory room, h)
  else
    match TerminalController.ofStandardInput h with
    | (.error cause, h) => .error (.failed (.terminal cause), h)
    | (.ok terminal, h) =>
      let notices := NoticeQueue.ofCapacity settings.noticeCapacity
      let session : Session :=
        { vars := .inherit environment, directory, supervisor := { host := h, terminal, notices } }
      .ok { session, prompt := settings.prompt }

/-- Runs the shell in a directory, with an environment. -/
def run (h : Host) (directory : NodeId) (environment : Environment) : Option (Ending × Host) :=
  match start h directory environment with
  | .error ended => some ended
  | .ok s => s.loop.map fun (ending, s) => (ending, s.session.host)

/-- What is said when memory runs out. -/
def memoryMessage (bytes : Nat) : String :=
  "memory allocation of " ++ toString bytes ++ " bytes failed\n" ++
  "note: run with \x60RUST_BACKTRACE=1\x60 environment variable to display a backtrace"

/-- Runs the shell and tells the user if it failed. -/
def launch (h : Host) (directory : NodeId) (environment : Environment) : Ending × Host :=
  let (ending, h) := (run h directory environment).getD (.endless, h)
  match ending with
  | .failed failure => (ending, h.complain (label ++ failure.message))
  | .outOfMemory bytes => (ending, h.complain (memoryMessage bytes))
  | _ => (ending, h)

end Shell

end JobShell
