import JobShell.Barrier
import JobShell.Job
import JobShell.Status

/-!
# How a job runs

A job in execution, and what can happen to it. Several threads take part:
the one that starts the stages and then waits for all of them, one for every
started stage that waits for its process, and for a job in the background
one that waits for all stages and leaves a notice. `Execution.step` says
which of their steps are possible in which state, and what they do to the
rest of the shell; any order of possible steps is a run of the job.

A stage goes through `Progress` in the order of its constructors. Nobody
waits for a process before the last stage is started: a leader that ended
early stays there, and its group can still be joined.
-/

namespace JobShell

open Machine (Pid)

/-- How far a stage got. -/
inductive Progress
  | waiting
  | running (pid : Pid)
  /-- The wait for the process returned; it failed where there is no
  reason. -/
  | reaped (pid : Pid) (reason : Option ExitReason)
  /-- The descriptors kept for the stage were closed. -/
  | released (pid : Pid) (reason : Option ExitReason)
  /-- The stage arrived at the barrier. -/
  | arrived (pid : Pid) (reason : Option ExitReason)
  /-- The stage will not be started; its descriptors were closed. -/
  | dropped
  deriving DecidableEq, Repr

namespace Progress

/-- The process of a stage that was started. -/
def pid? : Progress → Option Pid
  | waiting | dropped => none
  | running pid | reaped pid _ | released pid _ | arrived pid _ => some pid

/-- Why the process of a stage ended, once it was waited for. -/
def reason? : Progress → Option ExitReason
  | waiting | running _ | dropped => none
  | reaped _ reason | released _ reason | arrived _ reason => reason

end Progress

/-- A stage of a job in execution. -/
structure StageRun where
  prepared : PreparedStage
  progress : Progress := .waiting

/-- The stage, given up if it was not started. -/
def StageRun.drop (s : StageRun) : StageRun :=
  if s.progress = .waiting then { s with progress := .dropped } else s

/-- What the job as a whole is doing. -/
inductive Phase
  | starting
  | waitingForeground
  | runningBackground
  /-- The job is done in the background; its notice is on the way. -/
  | posting
  /-- A stage could not be started. The others were asked to end. -/
  | terminating (failure : Failure)
  /-- They did not do so in time and were killed. -/
  | killing (failure : Failure)
  | doneForeground
  | doneBackground
  | failed (failure : Failure)
  deriving DecidableEq, Repr

/-- A job in execution. -/
structure Execution where
  description : String
  foreground : Bool
  /-- The group that gets the terminal back. -/
  callerGroup : Pid
  stages : List StageRun
  barrier : Barrier
  phase : Phase := .starting

/-- What can happen to a job in execution. -/
inductive Event
  /-- The next stage was started. -/
  | started (pid : Pid)
  /-- The next stage could not be started. -/
  | failedToStart (failure : Failure)
  /-- The wait for the process of a stage returned. -/
  | waited (index : Nat) (result : Except OsError WaitStatus)
  /-- The descriptors of a stage are closed. -/
  | released (index : Nat)
  /-- A stage arrives at the barrier. -/
  | arrived (index : Nat)
  /-- The time the stages have to end after they were asked to is over. -/
  | graceExpired
  /-- Whoever waits for all stages goes on. -/
  | passedBarrier
  /-- The notice was taken. -/
  | noticeTaken

/-- What an event does to the rest of the shell. -/
inductive Effect
  | log (level : Log.Level) (message : String)
  | close (fds : List Fd)
  | signalGroup (group : Pid) (signal : Signal)
  | giveTerminal (group : Pid)
  | post (notice : String)
  deriving DecidableEq, Repr

namespace Execution

/-- A job that is about to be started. -/
def ofJob (job : Job) (callerGroup : Pid) : Execution where
  description := job.description
  foreground := job.foreground
  callerGroup
  stages := job.stages.map fun prepared => { prepared }
  barrier := ⟨job.stages.length⟩

/-- The stage that is started next. -/
def next? (e : Execution) : Option StageRun := e.stages.find? (·.progress = .waiting)

/-- The process group of the job: the process of its first stage. -/
def group? (e : Execution) : Option Pid := e.stages.head?.bind (·.progress.pid?)

/-- Whether the stage that is started next takes the terminal. -/
def nextTakesTerminal (e : Execution) : Bool := e.group?.isNone && e.foreground

/-- Why each stage ended. -/
def reasons (e : Execution) : List (Option ExitReason) := e.stages.map (·.progress.reason?)

/-- The notice of a job in the background. -/
def notice (e : Execution) : String := "Done. " ++ e.description

/-- The job with another progress of one stage. -/
def setProgress (e : Execution) (index : Nat) (progress : Progress) : Execution :=
  { e with stages := e.stages.modify index fun s => { s with progress } }

/-- The log entry of a change of the whole job. -/
def transition (e : Execution) (before after : Lifecycle) : Effect :=
  .log .debug s!"job '{e.description}': {before.render} -> {after.render}"

/-- The log entries of the threads that begin to wait for the processes. -/
def watchEntries (e : Execution) : List Effect :=
  e.stages.filterMap fun s =>
    s.progress.pid?.map fun _ =>
      .log .debug s!"stage {s.prepared.index} ({s.prepared.text}) running"

/-- The next stage was started as `pid`. With the last one the waiting
begins. -/
def start (e : Execution) (s : StageRun) (pid : Pid) : Execution × List Effect :=
  let index := s.prepared.index
  let spawned : Effect := .log .info
    s!"stage {index} ({s.prepared.path.lossy}) spawned with pid {pid} in group {e.group?.getD pid}"
  let e := e.setProgress index (.running pid)
  match e.next? with
  | some _ => (e, [spawned])
  | none =>
    let (phase, state) : Phase × Lifecycle :=
      if e.foreground then (.waitingForeground, .waitingForeground)
      else (.runningBackground, .runningBackground)
    ({ e with phase }, spawned :: e.watchEntries ++ [e.transition .started state])

/-- The next stage could not be started: it and all behind it are dropped,
and those in front of it are asked to end. -/
def giveUp (e : Execution) (failure : Failure) : Execution × List Effect :=
  let dropped := e.stages.filter (·.progress = .waiting)
  let closed := dropped.map fun s => Effect.close s.prepared.fds
  let e : Execution :=
    { e with stages := e.stages.map StageRun.drop, barrier := e.barrier.forfeit dropped.length }
  match e.group? with
  | some group =>
    ({ e with phase := .terminating failure },
     closed ++ e.watchEntries ++
       [.log .info (s!"terminating process group {group} of '{e.description}', " ++
          s!"{e.barrier.remaining} stages left"),
        .signalGroup group Signal.terminate])
  | none =>
    ({ e with phase := .failed failure },
     closed ++ if e.foreground then [.giveTerminal e.callerGroup] else [])

/-- The wait for a process returned. -/
def reap (e : Execution) (s : StageRun) (pid : Pid) (result : Except OsError WaitStatus) :
    Execution × List Effect :=
  let index := s.prepared.index
  match result with
  | .ok status =>
    (e.setProgress index (.reaped pid (ExitReason.ofStatus status)),
     [.log .info s!"{pid} ({s.prepared.text}) {status.render}"])
  | .error cause =>
    (e.setProgress index (.reaped pid none), [.log .error (Failure.wait pid cause).message])

/-- Whoever waits for all stages goes on. -/
def pass (e : Execution) : Option (Execution × List Effect) :=
  match e.phase with
  | .waitingForeground =>
    some ({ e with phase := .doneForeground },
      [e.transition .waitingForeground .doneForeground, .giveTerminal e.callerGroup])
  | .runningBackground => some ({ e with phase := .posting }, [.post e.notice])
  | .terminating failure | .killing failure =>
    some ({ e with phase := .failed failure },
      if e.foreground then [.giveTerminal e.callerGroup] else [])
  | _ => none

/-- The job after an event, and what the event does to the rest of the
shell; `none` if the event is not possible. -/
def step (e : Execution) (event : Event) : Option (Execution × List Effect) :=
  match event with
  | .started pid =>
    match e.phase, e.next? with
    | .starting, some s => some (e.start s pid)
    | _, _ => none
  | .failedToStart failure =>
    match e.phase, e.next? with
    | .starting, some _ => some (e.giveUp failure)
    | _, _ => none
  | .waited index result =>
    match e.phase, e.stages[index]? with
    | .starting, _ | _, none => none
    | _, some s =>
      match s.progress with
      | .running pid => some (e.reap s pid result)
      | _ => none
  | .released index =>
    match e.stages[index]? with
    | some s =>
      match s.progress with
      | .reaped pid reason =>
        some (e.setProgress index (.released pid reason),
          [.close s.prepared.fds,
           .log .debug s!"stage {s.prepared.index} ({s.prepared.text}) exited"])
      | _ => none
    | none => none
  | .arrived index =>
    match e.stages[index]? with
    | some s =>
      match s.progress with
      | .released pid reason =>
        some ({ e.setProgress index (.arrived pid reason) with barrier := e.barrier.arrive }, [])
      | _ => none
    | none => none
  | .graceExpired =>
    match e.phase, e.group? with
    | .terminating failure, some group =>
      if e.barrier.isOpen then none
      else some ({ e with phase := .killing failure }, [.signalGroup group Signal.kill])
    | _, _ => none
  | .passedBarrier => if e.barrier.isOpen then e.pass else none
  | .noticeTaken =>
    match e.phase with
    | .posting =>
      some ({ e with phase := .doneBackground },
        [e.transition .runningBackground .doneBackground])
    | _ => none

end Execution

end JobShell
