import JobShell.Host

/-!
# Jobs

A job is a pipeline that is ready to be started: every command is found,
neighbouring stages are connected by pipes, and every redirection is open.
Building one goes over all stages three times in that order, so no file is
touched for a pipeline with an unknown command. A build that fails closes
everything it opened.
-/

namespace JobShell

open Machine (NodeId Pid)

/-- A stage on the way to being started. -/
structure PreparedStage where
  /-- The place in the pipeline. The stage at place zero leads the group. -/
  index : Nat
  /-- The file of the command. -/
  path : Bytes
  stage : Stage
  stdin : Descriptor := .inherit
  stdout : Descriptor := .inherit
  table? : Option DescriptorTable := none

namespace PreparedStage

/-- The stage as logs name it. -/
def text (s : PreparedStage) : String := s.stage.render

def isLeader (s : PreparedStage) : Bool := s.index = 0

/-- The shell's descriptors that are kept open for the stage. -/
def fds (s : PreparedStage) : List Fd :=
  [s.stdin, s.stdout].filterMap Descriptor.fd? ++
    match s.table? with
    | some t => t.fds
    | none => []

/-- What the stage is called with: its own words, or the path of the file if
it has none. -/
def arguments (s : PreparedStage) : List Bytes :=
  match s.stage.argv with
  | [] => [s.path]
  | argv => argv.map .ofString

end PreparedStage

/-- A pipeline that is ready to be started. -/
structure Job where
  stages : List PreparedStage
  foreground : Bool
  /-- The places of the writing and the reading stage of every pipe. -/
  pipes : List (Nat × Nat)
  description : String

/-- Where a job is in its life, as the development log tells. -/
inductive Lifecycle
  | created
  | started
  | waitingForeground
  | doneForeground
  | runningBackground
  | doneBackground
  deriving DecidableEq, Repr

/-- The state in words. -/
def Lifecycle.render : Lifecycle → String
  | created => "created"
  | started => "started"
  | waitingForeground => "waiting in the foreground"
  | doneForeground => "done in the foreground"
  | runningBackground => "running in the background"
  | doneBackground => "done in the background"

namespace Host

/-! ## Building -/

/-- Finds the file of a stage's command. -/
def prepareStage (h : Host) (directory : NodeId) (searchPath : Bytes) (index : Nat)
    (stage : Stage) : Except Failure (PreparedStage × Host) := do
  let path ← (h.fileView directory).resolve searchPath (.ofString stage.command)
  let h := h.log .info s!"stage {index}: {stage.command} resolved to {path.lossy}"
  return ({ index, path, stage }, h)

/-- Finds the files of all commands, up to the first one that has none. -/
def prepareStages (h : Host) (directory : NodeId) (searchPath : Bytes) (index : Nat) :
    List Stage → Except Failure (List PreparedStage) × Host
  | [] => (.ok [], h)
  | stage :: rest =>
    match h.prepareStage directory searchPath index stage with
    | .error failure => (.error failure, h)
    | .ok (prepared, h) =>
      match prepareStages h directory searchPath (index + 1) rest with
      | (.ok others, h) => (.ok (prepared :: others), h)
      | (.error failure, h) => (.error failure, h)

/-- Connects the output of `left` with the input of the first of the stages
that follow it, and so on. -/
def connectFrom (h : Host) (left : PreparedStage) :
    List PreparedStage → Option Failure × List PreparedStage × Host
  | [] => (none, [left], h)
  | right :: rest =>
    match h.makePipe with
    | .error cause => (some (.pipe cause), left :: right :: rest, h)
    | .ok ((reader, writer), h) =>
      let (failed, others, h) := connectFrom h { right with stdin := .pipe reader } rest
      (failed, { left with stdout := .pipe writer } :: others, h)

/-- Connects neighbouring stages. -/
def connectStages (h : Host) : List PreparedStage → Option Failure × List PreparedStage × Host
  | [] => (none, [], h)
  | first :: rest => h.connectFrom first rest

/-- Fixes the descriptors of a stage. -/
def buildStage (h : Host) (directory : NodeId) (s : PreparedStage) :
    Option Failure × PreparedStage × Host :=
  match h.buildTable directory s.stdin s.stdout s.stage.redirections with
  | (.ok t, h) => (none, { s with stdin := .inherit, stdout := .inherit, table? := some t }, h)
  | (.error failure, h) =>
    (some failure, { s with stdin := .inherit, stdout := .inherit }, h)

/-- Fixes the descriptors of all stages, up to the first one that fails. -/
def buildStages (h : Host) (directory : NodeId) :
    List PreparedStage → Option Failure × List PreparedStage × Host
  | [] => (none, [], h)
  | s :: rest =>
    match h.buildStage directory s with
    | (some failure, s, h) => (some failure, s :: rest, h)
    | (none, s, h) =>
      let (failed, others, h) := buildStages h directory rest
      (failed, s :: others, h)

/-- Closes everything that is open for some stages. -/
def discard (h : Host) (stages : List PreparedStage) : Host :=
  h.closeAll (stages.flatMap PreparedStage.fds)

/-- Makes a job of a pipeline; commands are looked up in `searchPath`. -/
def buildJob (h : Host) (directory : NodeId) (searchPath : Bytes) (p : Pipeline) :
    Except Failure Job × Host :=
  if p.stages.isEmpty then (.error .emptyPipeline, h)
  else
    match h.prepareStages directory searchPath 0 p.stages with
    | (.error failure, h) => (.error failure, h)
    | (.ok stages, h) =>
      match h.connectStages stages with
      | (some failure, stages, h) => (.error failure, h.discard stages)
      | (none, stages, h) =>
        match h.buildStages directory stages with
        | (some failure, stages, h) => (.error failure, h.discard stages)
        | (none, stages, h) =>
          let job : Job :=
            { stages, foreground := p.foreground, description := p.describe
              pipes := (List.range (p.stages.length - 1)).map fun left => (left, left + 1) }
          (.ok job, h.log .debug s!"job '{job.description}' {Lifecycle.created.render}")

end Host

/-- The search path that an environment gives. -/
def Environment.searchPath (env : Environment) : Bytes :=
  (env.get? (.ofString "PATH")).getD defaultSearchPath

end JobShell
