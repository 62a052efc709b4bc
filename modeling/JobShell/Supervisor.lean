import JobShell.Host.Start
import JobShell.Job.Execution
import JobShell.NoticeQueue
import JobShell.Terminal

/-!
# Running jobs

The part of the shell that runs jobs: it starts their stages, waits for
them, and keeps those in the background until their notices are taken. What
happens to a job is decided by `Execution.step` alone; the supervisor finds
out which event comes next and carries out its effects.
-/

namespace JobShell

open Machine (World NodeId Pid)

/-- The machine, the terminal, the notices and the jobs in the background. -/
structure Supervisor where
  host : Host
  terminal : TerminalController := .detached
  notices : NoticeQueue
  /-- The jobs in the background that are not done yet. -/
  background : List Execution := []

/-- How long the stages of a job get to end after they were asked to, in
microseconds. -/
def gracePeriod : Nat := 2000000

namespace Supervisor

/-! ## Effects and events -/

/-- Carries out an effect. -/
def perform (s : Supervisor) : Effect → Supervisor
  | .log level message => { s with host := s.host.log level message }
  | .close fds => { s with host := s.host.closeAll fds }
  | .signalGroup group signal =>
    match s.host.world.signalGroup s.host.shell group signal with
    | .ok world => { s with host := { s.host with world } }
    | .error cause =>
      let verb := if signal = Signal.kill then "kill" else "terminate"
      { s with host :=
          s.host.log .warn s!"cannot {verb} process group {group}: {cause.message}" }
  | .giveTerminal group => { s with host := s.terminal.handTo s.host group }
  | .post notice => { s with notices := (s.notices.post notice).2 }

/-- Lets an event happen to a job. An event that is not possible does not. -/
def apply (s : Supervisor) (e : Execution) (event : Event) : Execution × Supervisor :=
  match e.step event with
  | some (e, effects) => (e, effects.foldl perform s)
  | none => (e, s)

/-- Lets several events happen, one after the other. -/
def applyAll (s : Supervisor) (e : Execution) (events : List Event) : Execution × Supervisor :=
  events.foldl (fun (e, s) event => s.apply e event) (e, s)

/-! ## Waiting -/

/-- Takes the status of a child of the shell that ended. A child that is not
there any more can not be waited for. -/
def wait? (s : Supervisor) (pid : Pid) : Option (Except OsError WaitStatus × Supervisor) :=
  match s.host.world.process? pid with
  | none => some (.error .noChild, s)
  | some _ =>
    match s.host.world.ending? pid with
    | none => none
    | some status =>
      some (.ok status, { s with host.world := s.host.world.removeProcess pid })

/-- Lets the thread of one stage go as far as it can. -/
def collectStage (s : Supervisor) (e : Execution) (index : Nat) : Execution × Supervisor :=
  match e.stages[index]? with
  | none => (e, s)
  | some run =>
    match run.progress with
    | .running pid =>
      match s.wait? pid with
      | some (result, s) =>
        s.applyAll e [.waited index result, .released index, .arrived index]
      | none => (e, s)
    | _ => (e, s)

/-- Lets the threads of all stages go as far as they can. -/
def collectStages (s : Supervisor) (e : Execution) : Execution × Supervisor :=
  (List.range e.stages.length).foldl (fun (e, s) index => s.collectStage e index) (e, s)

/-- Lets whoever waits for a job in the background go on behind the barrier:
its notice may have to wait for room. -/
def leaveNotice (s : Supervisor) (e : Execution) : Execution × Supervisor :=
  match e.phase with
  | .runningBackground =>
    let blocked := s.notices.blocked.length
    let (e, s) := s.apply e .passedBarrier
    if blocked < s.notices.blocked.length then (e, s) else s.apply e .noticeTaken
  | _ => (e, s)

/-- Lets the threads of a job in the background go as far as they can. -/
def collectJob (s : Supervisor) (e : Execution) : Execution × Supervisor :=
  let (e, s) := s.collectStages e
  s.leaveNotice e

/-- Whether a job has nothing left to do. -/
def isDone (e : Execution) : Bool :=
  match e.phase with
  | .doneForeground | .doneBackground | .failed _ => true
  | _ => false

/-- Lets the threads of all jobs in the background go as far as they can. -/
def collect (s : Supervisor) : Supervisor :=
  let (jobs, s) := s.background.foldl
    (fun (jobs, s) e => let (e, s) := collectJob s e; (jobs ++ [e], s)) ([], s)
  { s with background := jobs.filter (!isDone ·) }

/-- The processes of a job that nobody has waited for. -/
def pidsOf (e : Execution) : List Pid :=
  e.stages.filterMap fun s =>
    match s.progress with
    | .running pid => some pid
    | _ => none

/-- All processes that are waited for. -/
def watched (s : Supervisor) : List Pid := s.background.flatMap pidsOf

/-- Advances the world until one of the processes has ended or the time
`deadline` has come. If neither ever happens, the first process is killed:
no process is waited for forever. -/
def runUntilEnd (s : Supervisor) (pids : List Pid) (deadline : Option Nat) : Supervisor :=
  let ended (w : World) : Bool := pids.any fun pid => !w.isAlive pid
  let late (w : World) : Bool := match deadline with
    | some time => time ≤ w.clock
    | none => false
  match World.runUntil s.host.shell (fun w => ended w || late w) World.patience s.host.world with
  | (true, world) => { s with host.world := world }
  | (false, world) =>
    match deadline, pids with
    | some time, _ => { s with host.world := { world with clock := time } }
    | none, pid :: _ =>
      { s with host.world := world.finish s.host.shell pid (.ofSignal Signal.kill) }
    | none, [] => { s with host.world := world }

/-- Waits until all stages of a job arrived. Every round waits for at least
one more process of this job or of one in the background; `rounds` is their
number. -/
def awaitBarrier (s : Supervisor) (e : Execution) (deadline : Option Nat) :
    (rounds : Nat) → Execution × Supervisor
  | 0 => (e, s)
  | rounds + 1 =>
    let (e, s) := s.collectStages e
    let s := s.collect
    if e.barrier.isOpen then (e, s)
    else if deadline.any (· ≤ s.host.world.clock) then (e, s)
    else awaitBarrier (s.runUntilEnd (pidsOf e ++ s.watched) deadline) e deadline rounds

/-- Waits until all stages of a job arrived, or until `deadline`. -/
def await (s : Supervisor) (e : Execution) (deadline : Option Nat) : Execution × Supervisor :=
  s.awaitBarrier e deadline ((pidsOf e ++ s.watched).length + 2)

/-! ## Starting -/

/-- What to ask of the machine to start a stage of a job. -/
def request (e : Execution) (environment : Environment) (s : PreparedStage) : StartRequest where
  path := s.path
  arguments := s.arguments
  environment := (environment.forStage s.stage.vars).forProcess
  table := s.table?.getD (.standard .inherit .inherit)
  group := e.group?
  takesTerminal := e.nextTakesTerminal

/-- Starts the stages of a job one after the other, up to the first one that
fails. -/
def startStages (s : Supervisor) (directory : NodeId) (environment : Environment)
    (e : Execution) : (count : Nat) → Execution × Supervisor
  | 0 => (e, s)
  | count + 1 =>
    match e.next? with
    | none => (e, s)
    | some next =>
      let wanted := request e environment next.prepared
      let wanted := { wanted with takesTerminal := wanted.takesTerminal && s.terminal.isAttached }
      match s.host.start directory wanted with
      | (.ok pid, host) =>
        let (e, s) := { s with host }.apply e (.started pid)
        startStages s directory environment e count
      | (.error cause, host) =>
        { s with host }.apply e (.failedToStart (.spawn next.prepared.path cause))

/-- What became of a job. -/
inductive Outcome
  | foreground (reasons : List (Option ExitReason)) (group : Pid)
  | background (e : Execution)
  | failed (failure : Failure)

/-- Runs a job: in the foreground until all of its stages have ended, in the
background until all of them are started. If a stage can not be started, the
others are asked to end, killed if they take too long, and waited for. -/
def execute (s : Supervisor) (directory : NodeId) (environment : Environment)
    (callerGroup : Pid) (job : Job) : Outcome × Supervisor :=
  let e := Execution.ofJob job callerGroup
  let s := s.perform (e.transition .created .started)
  let (e, s) := s.startStages directory environment e job.stages.length
  let group := e.group?.getD callerGroup
  match e.phase with
  | .waitingForeground =>
    let (e, s) := s.await e none
    let (e, s) := s.apply e .passedBarrier
    (.foreground e.reasons group, s)
  | .terminating failure =>
    let (e, s) := s.await e (some (s.host.world.clock + gracePeriod))
    let (e, s) := s.apply e .graceExpired
    let (e, s) := s.await e none
    let (_, s) := s.apply e .passedBarrier
    (.failed failure, s)
  | .failed failure => (.failed failure, s)
  | _ => (.background e, { s with background := s.background ++ [e] })

/-- Waits until the job that went into the background last is done; its
reasons. -/
def finishLast (s : Supervisor) : List (Option ExitReason) × Supervisor :=
  match s.background.getLast? with
  | none => ([], s)
  | some e =>
    let (e, s) := { s with background := s.background.dropLast }.await e none
    let (e, s) := s.leaveNotice e
    (e.reasons, s)

/-- Builds and runs the job of a pipeline, if the terminal says who has to get
it back. -/
def runPipeline (s : Supervisor) (directory : NodeId) (environment : Environment)
    (p : Pipeline) : Outcome × Supervisor :=
  match s.terminal.fault? s.host with
  | some cause => (.failed (.terminal cause), s)
  | none =>
    let (callerGroup, terminal) := s.terminal.foregroundGroup s.host
    let s := { s with terminal }
    match s.host.buildJob directory environment.searchPath p with
    | (.error failure, host) => (.failed failure, { s with host })
    | (.ok job, host) => { s with host }.execute directory environment callerGroup job

/-! ## Notices -/

/-- Whether a job waits for room for this notice. -/
def isPosting (notice : String) (e : Execution) : Bool :=
  e.phase = .posting ∧ e.notice = notice

/-- There was room for a notice: the job it is from goes on. -/
def resume (s : Supervisor) (notice : String) : Supervisor :=
  match s.background.find? (isPosting notice) with
  | some e =>
    let background := s.background.eraseP (isPosting notice)
    { (s.apply e .noticeTaken).2 with background }
  | none => s

/-- Takes all notices that are pending. Jobs whose notices had to wait for
room go on as far as there is room now. -/
def takeNotices (s : Supervisor) : List String × Supervisor :=
  let (taken, notices) := s.notices.drain
  let admitted := s.notices.blocked.length - notices.blocked.length
  (taken, (s.notices.blocked.take admitted).foldl resume { s with notices })

/-- Waits until one of the processes in the background has ended. -/
def awaitBackground (s : Supervisor) : Supervisor :=
  (s.runUntilEnd s.watched none).collect

end Supervisor

end JobShell
