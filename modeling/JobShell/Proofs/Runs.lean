import JobShell.Job.Execution
import JobShell.Proofs.Building

/-!
# Runs of a job

A run is any sequence of events each of which is possible when it happens
(`Execution.Run`); what holds at the start and is kept by every step holds
after every run (`Run.induction`).

`Execution.step` is taken apart once: `fires_of_step` lists which event is
possible in which state and its result, guards included, and `move_of_step`
what becomes of the state. The first thing that holds after every run is about
the order of the stages: they begin one after the other, and the processes of
those that have begun are the ones that were started, in that order
(`Run.arranged`).
-/

namespace JobShell

open Machine (Pid)

/-! ## Phases -/

namespace Phase

/-- The phase behind the barrier; none if nobody waits there. -/
def afterBarrier? : Phase → Option Phase
  | waitingForeground => some doneForeground
  | runningBackground => some posting
  | terminating failure | killing failure => some (failed failure)
  | starting | posting | doneForeground | doneBackground | failed _ => none

/-- Whether a job is in the foreground, where its phase tells. -/
def side? : Phase → Option Bool
  | waitingForeground | doneForeground => some true
  | runningBackground | posting | doneBackground => some false
  | starting | terminating _ | killing _ | failed _ => none

/-- The progress of the stages that have not begun. -/
def idle : Phase → Progress
  | starting => .waiting
  | _ => .dropped

/-- How many of all stages have begun. -/
def Allows (begun total : Nat) : Phase → Prop
  | starting | failed _ => begun < total
  | terminating _ | killing _ => 0 < begun ∧ begun < total
  | waitingForeground | runningBackground | posting | doneForeground | doneBackground =>
    begun = total

theorem allows_of_afterBarrier? {phase after : Phase} (h : phase.afterBarrier? = some after) :
    after.idle = phase.idle
      ∧ ∀ count total, phase.Allows count total → after.Allows count total := by
  cases phase with
  | starting | posting | doneForeground | doneBackground | failed _ => cases h
  | waitingForeground | runningBackground =>
      obtain rfl := Option.some.inj h
      exact ⟨rfl, fun _ _ hallows => hallows⟩
  | terminating failure | killing failure =>
      obtain rfl := Option.some.inj h
      exact ⟨rfl, fun _ _ hallows => hallows.2⟩

theorem idle_of_ne_starting {phase : Phase} (h : phase ≠ .starting) : phase.idle = .dropped := by
  cases phase with
  | starting => exact (h rfl).elim
  | _ => rfl

theorem pid?_idle (phase : Phase) : phase.idle.pid? = none := by
  cases phase <;> rfl

end Phase

namespace StageRun

theorem prepared_drop (s : StageRun) : s.drop.prepared = s.prepared := by
  unfold drop
  split <;> rfl

theorem progress_drop_of_waiting {s : StageRun} (h : s.progress = .waiting) :
    s.drop.progress = .dropped := by
  rw [drop, if_pos h]

theorem pid?_drop (s : StageRun) : s.drop.progress.pid? = s.progress.pid? := by
  unfold drop
  split
  · rename_i h
    rw [h]
    rfl
  · rfl

end StageRun

namespace Event

/-- The process that an event starts. -/
def start? : Event → Option Pid
  | started pid => some pid
  | _ => none

end Event

/-- The processes that were started, in their order. -/
def starts (events : List Event) : List Pid := events.filterMap Event.start?

theorem starts_concat (events : List Event) (event : Event) :
    starts (events ++ [event]) = starts events ++ event.start?.toList := by
  rw [starts, List.filterMap_append, starts]
  cases event <;> rfl

/-- What is kept of the result of a wait. -/
def reasonOf : Except OsError WaitStatus → Option ExitReason
  | .ok status => ExitReason.ofStatus status
  | .error _ => none

namespace Execution

/-! ## Steps -/

/-- The job without the stages that have not begun. -/
def dropIdle (e : Execution) : Execution :=
  { e with
    stages := e.stages.map StageRun.drop
    barrier := e.barrier.forfeit (e.stages.countP (·.progress = .waiting)) }

/-- The states an event leads to. -/
inductive Move (e : Execution) : Event → Execution → Prop
  | started {s next : StageRun} {pid : Pid} (hphase : e.phase = .starting)
      (hs : e.next? = some s)
      (hmore : (e.setProgress s.prepared.index (.running pid)).next? = some next) :
      Move e (.started pid) (e.setProgress s.prepared.index (.running pid))
  | startedLast {s : StageRun} {pid : Pid} (hphase : e.phase = .starting)
      (hs : e.next? = some s)
      (hlast : (e.setProgress s.prepared.index (.running pid)).next? = none) :
      Move e (.started pid)
        { e.setProgress s.prepared.index (.running pid) with
          phase := if e.foreground then .waitingForeground else .runningBackground }
  | gaveUp {s : StageRun} {failure : Failure} (hphase : e.phase = .starting)
      (hs : e.next? = some s) :
      Move e (.failedToStart failure)
        { e.dropIdle with
          phase := if e.dropIdle.group?.isSome then .terminating failure else .failed failure }
  | waited {index : Nat} {s : StageRun} {pid : Pid} {result : Except OsError WaitStatus}
      (hphase : e.phase ≠ .starting) (hs : e.stages[index]? = some s)
      (hprogress : s.progress = .running pid) :
      Move e (.waited index result)
        (e.setProgress s.prepared.index (.reaped pid (reasonOf result)))
  | released {index : Nat} {s : StageRun} {pid : Pid} {reason : Option ExitReason}
      (hs : e.stages[index]? = some s) (hprogress : s.progress = .reaped pid reason) :
      Move e (.released index) (e.setProgress index (.released pid reason))
  | arrived {index : Nat} {s : StageRun} {pid : Pid} {reason : Option ExitReason}
      (hs : e.stages[index]? = some s) (hprogress : s.progress = .released pid reason) :
      Move e (.arrived index)
        { e.setProgress index (.arrived pid reason) with barrier := e.barrier.arrive }
  | killed {failure : Failure} (hphase : e.phase = .terminating failure)
      (hclosed : e.barrier.isOpen = false) :
      Move e .graceExpired { e with phase := .killing failure }
  | passed {after : Phase} (hopen : e.barrier.isOpen = true)
      (hafter : e.phase.afterBarrier? = some after) :
      Move e .passedBarrier { e with phase := after }
  | noticed (hphase : e.phase = .posting) :
      Move e .noticeTaken { e with phase := .doneBackground }

theorem move_of_start {e : Execution} {s : StageRun} {pid : Pid} (hphase : e.phase = .starting)
    (hs : e.next? = some s) : Move e (.started pid) (e.start s pid).1 := by
  cases hnext : (e.setProgress s.prepared.index (.running pid)).next? with
  | some next =>
      have : (e.start s pid).1 = e.setProgress s.prepared.index (.running pid) := by
        simp only [start, hnext]
      rw [this]
      exact .started hphase hs hnext
  | none =>
      have : (e.start s pid).1 = { e.setProgress s.prepared.index (.running pid) with
          phase := if e.foreground then .waitingForeground else .runningBackground } := by
        simp only [start, hnext]
        cases hforeground : e.foreground <;> simp [setProgress, hforeground]
      rw [this]
      exact .startedLast hphase hs hnext

theorem move_of_giveUp {e : Execution} {s : StageRun} {failure : Failure}
    (hphase : e.phase = .starting) (hs : e.next? = some s) :
    Move e (.failedToStart failure) (e.giveUp failure).1 := by
  have : (e.giveUp failure).1 = { e.dropIdle with
      phase := if e.dropIdle.group?.isSome then .terminating failure else .failed failure } := by
    simp only [giveUp, dropIdle, List.countP_eq_length_filter]
    split <;> rename_i hgroup <;> simp [hgroup]
  rw [this]
  exact .gaveUp hphase hs

theorem fst_reap (e : Execution) (s : StageRun) (pid : Pid) (result : Except OsError WaitStatus) :
    (e.reap s pid result).1 = e.setProgress s.prepared.index (.reaped pid (reasonOf result)) := by
  cases result <;> rfl

theorem afterBarrier_of_pass {e e' : Execution} {effects : List Effect}
    (h : e.pass = some (e', effects)) :
    ∃ after, e.phase.afterBarrier? = some after ∧ e' = { e with phase := after } := by
  unfold pass at h
  split at h
  case h_5 => cases h
  all_goals
    rename_i hphase
    obtain ⟨rfl, -⟩ := Prod.mk.inj (Option.some.inj h)
    rw [hphase]
    exact ⟨_, rfl, rfl⟩

/-- When an event is possible, and its result. -/
inductive Fires (e : Execution) : Event → Execution → List Effect → Prop
  | started {s : StageRun} {pid : Pid} (hphase : e.phase = .starting) (hs : e.next? = some s) :
      Fires e (.started pid) (e.start s pid).1 (e.start s pid).2
  | failedToStart {s : StageRun} {failure : Failure} (hphase : e.phase = .starting)
      (hs : e.next? = some s) :
      Fires e (.failedToStart failure) (e.giveUp failure).1 (e.giveUp failure).2
  | waited {index : Nat} {s : StageRun} {pid : Pid} {result : Except OsError WaitStatus}
      (hphase : e.phase ≠ .starting) (hs : e.stages[index]? = some s)
      (hprogress : s.progress = .running pid) :
      Fires e (.waited index result) (e.reap s pid result).1 (e.reap s pid result).2
  | released {index : Nat} {s : StageRun} {pid : Pid} {reason : Option ExitReason}
      (hs : e.stages[index]? = some s) (hprogress : s.progress = .reaped pid reason) :
      Fires e (.released index) (e.setProgress index (.released pid reason))
        [.close s.prepared.fds,
          .log .debug s!"stage {s.prepared.index} ({s.prepared.text}) exited"]
  | arrived {index : Nat} {s : StageRun} {pid : Pid} {reason : Option ExitReason}
      (hs : e.stages[index]? = some s) (hprogress : s.progress = .released pid reason) :
      Fires e (.arrived index)
        { e.setProgress index (.arrived pid reason) with barrier := e.barrier.arrive } []
  | graceExpired {failure : Failure} {group : Pid} (hphase : e.phase = .terminating failure)
      (hgroup : e.group? = some group) (hclosed : e.barrier.isOpen = false) :
      Fires e .graceExpired { e with phase := .killing failure }
        [.signalGroup group Signal.kill]
  | passedBarrier {e' : Execution} {effects : List Effect} (hopen : e.barrier.isOpen = true)
      (hpass : e.pass = some (e', effects)) : Fires e .passedBarrier e' effects
  | noticeTaken (hphase : e.phase = .posting) :
      Fires e .noticeTaken { e with phase := .doneBackground }
        [e.transition .runningBackground .doneBackground]

theorem fires_of_step {e e' : Execution} {event : Event} {effects : List Effect}
    (h : e.step event = some (e', effects)) : Fires e event e' effects := by
  cases event with
  | started pid =>
      simp only [step] at h
      split at h
      · rename_i s hphase hs
        obtain ⟨rfl, rfl⟩ := Prod.ext_iff.mp (Option.some.inj h)
        exact .started hphase hs
      · cases h
  | failedToStart failure =>
      simp only [step] at h
      split at h
      · rename_i s hphase hs
        obtain ⟨rfl, rfl⟩ := Prod.ext_iff.mp (Option.some.inj h)
        exact .failedToStart hphase hs
      · cases h
  | waited index result =>
      simp only [step] at h
      split at h
      · cases h
      · cases h
      · rename_i s hs hphase
        split at h
        · rename_i pid hprogress
          obtain ⟨rfl, rfl⟩ := Prod.ext_iff.mp (Option.some.inj h)
          exact .waited hphase hs hprogress
        · cases h
  | released index =>
      simp only [step] at h
      split at h
      · rename_i s hs
        split at h
        · rename_i pid reason hprogress
          obtain ⟨rfl, rfl⟩ := Prod.mk.inj (Option.some.inj h)
          exact .released hs hprogress
        · cases h
      · cases h
  | arrived index =>
      simp only [step] at h
      split at h
      · rename_i s hs
        split at h
        · rename_i pid reason hprogress
          obtain ⟨rfl, rfl⟩ := Prod.mk.inj (Option.some.inj h)
          exact .arrived hs hprogress
        · cases h
      · cases h
  | graceExpired =>
      simp only [step] at h
      split at h
      · rename_i failure group hphase hgroup
        split at h
        · cases h
        · rename_i hclosed
          obtain ⟨rfl, rfl⟩ := Prod.mk.inj (Option.some.inj h)
          exact .graceExpired hphase hgroup (Bool.not_eq_true _ ▸ hclosed)
      · cases h
  | passedBarrier =>
      simp only [step] at h
      split at h
      · rename_i hopen
        exact .passedBarrier hopen h
      · cases h
  | noticeTaken =>
      simp only [step] at h
      split at h
      · rename_i hphase
        obtain ⟨rfl, rfl⟩ := Prod.mk.inj (Option.some.inj h)
        exact .noticeTaken hphase
      · cases h

theorem move_of_step {e e' : Execution} {event : Event} {effects : List Effect}
    (h : e.step event = some (e', effects)) : Move e event e' := by
  cases fires_of_step h with
  | started hphase hs => exact move_of_start hphase hs
  | failedToStart hphase hs => exact move_of_giveUp hphase hs
  | waited hphase hs hprogress =>
      rw [fst_reap]
      exact .waited hphase hs hprogress
  | released hs hprogress => exact .released hs hprogress
  | arrived hs hprogress => exact .arrived hs hprogress
  | graceExpired hphase _ hclosed => exact .killed hphase hclosed
  | passedBarrier hopen hpass =>
      obtain ⟨after, hafter, rfl⟩ := afterBarrier_of_pass hpass
      exact .passed hopen hafter
  | noticeTaken hphase => exact .noticed hphase

/-! ## Runs -/

/-- `e` is reached from `start` by the events, which had these effects. -/
inductive Run (start : Execution) : List Event → List Effect → Execution → Prop
  | start : Run start [] [] start
  | step {events : List Event} {effects more : List Effect} {e e' : Execution} {event : Event}
      (hrun : Run start events effects e) (hstep : e.step event = some (e', more)) :
      Run start (events ++ [event]) (effects ++ more) e'

/-- The job after some events, and their effects; none if one of them is not
possible. -/
def run? (e : Execution) : List Event → Option (Execution × List Effect)
  | [] => some (e, [])
  | event :: rest =>
    match e.step event with
    | some (e, effects) => (run? e rest).map fun (e, more) => (e, effects ++ more)
    | none => none

theorem run?_cons_eq_some_iff {e e'' : Execution} {event : Event} {rest : List Event}
    {effects : List Effect} :
    e.run? (event :: rest) = some (e'', effects) ↔
      ∃ e' first more, e.step event = some (e', first) ∧ e'.run? rest = some (e'', more)
        ∧ effects = first ++ more := by
  rw [run?]
  constructor
  · intro h
    split at h
    · rename_i e' first hstep
      obtain ⟨⟨last, more⟩, hrest, heq⟩ := Option.map_eq_some_iff.mp h
      obtain ⟨rfl, rfl⟩ := Prod.mk.inj heq
      exact ⟨e', first, more, hstep, hrest, rfl⟩
    · cases h
  · rintro ⟨e', first, more, hstep, hrest, rfl⟩
    rw [hstep]
    exact Option.map_eq_some_iff.mpr ⟨_, hrest, rfl⟩

theorem Run.run? {start e e' : Execution} {events more : List Event}
    {effects effects' : List Effect} (h : Run start events effects e)
    (hrun : e.run? more = some (e', effects')) :
    Run start (events ++ more) (effects ++ effects') e' := by
  induction more generalizing events effects e effects' with
  | nil =>
      obtain ⟨rfl, rfl⟩ := Prod.mk.inj (Option.some.inj hrun)
      rwa [List.append_nil, List.append_nil]
  | cons event rest ih =>
      obtain ⟨next, first, later, hstep, hrest, rfl⟩ := run?_cons_eq_some_iff.mp hrun
      rw [← List.append_assoc, ← List.singleton_append, ← List.append_assoc]
      exact ih (.step h hstep) hrest

/-- What holds at first and is kept by every step holds after every run. -/
theorem Run.induction {P : List Event → Execution → Prop} {start e : Execution}
    {events : List Event} {effects : List Effect} (h : Run start events effects e)
    (hstart : P [] start)
    (hstep : ∀ events e event e', P events e → Move e event e' → P (events ++ [event]) e') :
    P events e := by
  induction h with
  | start => exact hstart
  | step _ hs ih => exact hstep _ _ _ _ ih (move_of_step hs)

/-! ## What stays of the job -/

/-- What a job keeps from its start on. -/
structure Constant (e e' : Execution) : Prop where
  description : e'.description = e.description
  foreground : e'.foreground = e.foreground
  callerGroup : e'.callerGroup = e.callerGroup

theorem Move.constant {e e' : Execution} {event : Event} (h : Move e event e') :
    e.Constant e' := by
  cases h <;> exact ⟨rfl, rfl, rfl⟩

theorem Run.constant {start e : Execution} {events : List Event} {effects : List Effect}
    (h : Run start events effects e) : start.Constant e :=
  h.induction (P := fun _ => start.Constant) ⟨rfl, rfl, rfl⟩
    fun _ _ _ _ hbefore hmove =>
      ⟨hmove.constant.description.trans hbefore.description,
        hmove.constant.foreground.trans hbefore.foreground,
        hmove.constant.callerGroup.trans hbefore.callerGroup⟩

/-- The job is on the side its phase tells. -/
def Sided (e : Execution) : Prop := ∀ side, e.phase.side? = some side → e.foreground = side

theorem Move.sided {e e' : Execution} {event : Event} (h : Move e event e')
    (hbefore : e.Sided) : e'.Sided := by
  intro side hside
  cases h with
  | started _ _ _ | waited _ _ _ | released _ _ | arrived _ _ => exact hbefore side hside
  | startedLast _ _ _ =>
      dsimp only at hside ⊢
      split at hside <;> rename_i hforeground
      · exact hforeground.trans (Option.some.inj hside)
      · exact (Bool.not_eq_true _ ▸ hforeground).trans (Option.some.inj hside)
  | gaveUp _ _ =>
      dsimp only at hside
      split at hside <;> cases hside
  | killed _ _ => cases hside
  | passed _ hafter =>
      apply hbefore
      cases hphase : e.phase <;> rw [hphase] at hafter <;> cases hafter <;> exact hside
  | noticed hphase =>
      apply hbefore
      rw [hphase]
      exact hside

theorem Run.sided {start e : Execution} {events : List Event} {effects : List Effect}
    (h : Run start events effects e) (hphase : start.phase = .starting) : e.Sided := by
  refine h.induction (P := fun _ => Sided) (fun side hside => ?_)
    fun _ _ _ _ hbefore hmove => hmove.sided hbefore
  rw [hphase] at hside
  cases hside

/-! ## The order of the stages -/

@[simp] theorem length_setProgress (e : Execution) (index : Nat) (progress : Progress) :
    (e.setProgress index progress).stages.length = e.stages.length :=
  List.length_modify ..

theorem getElem?_setProgress_self {e : Execution} {index : Nat} {s : StageRun}
    (progress : Progress) (hs : e.stages[index]? = some s) :
    (e.setProgress index progress).stages[index]? = some { s with progress } := by
  rw [setProgress, List.getElem?_modify_eq, hs]
  rfl

theorem getElem?_setProgress_ne (e : Execution) {index other : Nat} (progress : Progress)
    (h : index ≠ other) :
    (e.setProgress index progress).stages[other]? = e.stages[other]? :=
  List.getElem?_modify_ne _ _ h

/-- A stage after a change of progress is the changed one or it was there
before. -/
theorem stage_setProgress {e : Execution} {index other : Nat} {progress : Progress}
    {s t : StageRun} (hs : e.stages[index]? = some s)
    (ht : (e.setProgress index progress).stages[other]? = some t) :
    (other = index ∧ t = { s with progress }) ∨ (other ≠ index ∧ e.stages[other]? = some t) := by
  by_cases h : other = index
  · subst h
    rw [getElem?_setProgress_self progress hs] at ht
    exact Or.inl ⟨rfl, (Option.some.inj ht).symm⟩
  · rw [getElem?_setProgress_ne _ _ (Ne.symm h)] at ht
    exact Or.inr ⟨h, ht⟩

/-- The stages stay what they were built as. -/
theorem Move.prepared {e e' : Execution} {event : Event} (h : Move e event e') :
    e'.stages.map StageRun.prepared = e.stages.map StageRun.prepared := by
  have hset : ∀ (index : Nat) (progress : Progress),
      (e.setProgress index progress).stages.map StageRun.prepared
        = e.stages.map StageRun.prepared := by
    intro index progress
    refine List.ext_getElem? fun i => ?_
    rw [setProgress, List.getElem?_map, List.getElem?_modify, List.getElem?_map]
    cases e.stages[i]? with
    | none => rfl
    | some s => simp only [Option.map_some]; split <;> rfl
  cases h with
  | started _ _ _ | startedLast _ _ _ | waited _ _ _ | released _ _ | arrived _ _ => exact hset ..
  | gaveUp _ _ =>
      dsimp only [dropIdle]
      rw [List.map_map]
      exact List.map_congr_left fun s _ => s.prepared_drop
  | killed _ _ | passed _ _ | noticed _ => rfl

theorem Run.prepared {job : Job} {callerGroup : Pid} {events : List Event}
    {effects : List Effect} {e : Execution} (h : Run (ofJob job callerGroup) events effects e) :
    e.stages.map StageRun.prepared = job.stages :=
  h.induction (P := fun _ e => e.stages.map StageRun.prepared = job.stages)
    (by rw [ofJob, List.map_map]; exact List.map_id _)
    fun _ _ _ _ hbefore hmove => hmove.prepared.trans hbefore

/-- The first stages have begun, with these processes, and no others. Stages
know their places. -/
structure Arranged (total : Nat) (pids : List Pid) (e : Execution) : Prop where
  length : e.stages.length = total
  places : ∀ (i : Nat) (s : StageRun), e.stages[i]? = some s → s.prepared.index = i
  pid : ∀ (i : Nat) (s : StageRun), e.stages[i]? = some s → s.progress.pid? = pids[i]?
  idle : ∀ (i : Nat) (s : StageRun), e.stages[i]? = some s → pids.length ≤ i →
    s.progress = e.phase.idle
  phase : e.phase.Allows pids.length total

theorem arranged_ofJob {job : Job} (hjob : job.Numbered) (hne : job.stages ≠ [])
    (callerGroup : Pid) : (ofJob job callerGroup).Arranged job.stages.length [] where
  length := List.length_map ..
  places i s hs := by
    rw [ofJob, List.getElem?_map, Option.map_eq_some_iff] at hs
    obtain ⟨prepared, hprepared, rfl⟩ := hs
    exact hjob i prepared hprepared
  pid i s hs := by
    rw [ofJob, List.getElem?_map, Option.map_eq_some_iff] at hs
    obtain ⟨prepared, -, rfl⟩ := hs
    rfl
  idle i s hs _ := by
    rw [ofJob, List.getElem?_map, Option.map_eq_some_iff] at hs
    obtain ⟨prepared, -, rfl⟩ := hs
    rfl
  phase := List.length_pos_iff.mpr hne

namespace Arranged

variable {total : Nat} {pids : List Pid} {e : Execution}

/-- A stage has begun exactly if it has a process. -/
theorem lt_length_iff {i : Nat} {s : StageRun} (h : e.Arranged total pids)
    (hs : e.stages[i]? = some s) : i < pids.length ↔ s.progress.pid?.isSome := by
  rw [h.pid i s hs]
  simp

theorem not_lt_of_waiting {i : Nat} {s : StageRun} (h : e.Arranged total pids)
    (hs : e.stages[i]? = some s) (hwaiting : s.progress = .waiting) : ¬i < pids.length := by
  rw [h.lt_length_iff hs, hwaiting]
  simp [Progress.pid?]

/-- While the stages are started, the next one is the first that has not
begun. -/
theorem next {s : StageRun} (h : e.Arranged total pids) (hphase : e.phase = .starting)
    (hs : e.next? = some s) :
    e.stages[pids.length]? = some s ∧ s.prepared.index = pids.length
      ∧ s.progress = .waiting := by
  obtain ⟨hwaiting, i, hi, hget, hbefore⟩ := List.find?_eq_some_iff_getElem.mp hs
  rw [decide_eq_true_eq] at hwaiting
  have hsome : e.stages[i]? = some s := List.getElem?_eq_some_iff.mpr ⟨hi, hget⟩
  have hle := h.not_lt_of_waiting hsome hwaiting
  have hge : ¬pids.length < i := by
    intro hlt
    have hcount : pids.length < e.stages.length := by omega
    have := hbefore pids.length hlt
    rw [h.idle pids.length _ (List.getElem?_eq_getElem hcount) (Nat.le_refl _), hphase] at this
    simp [Phase.idle] at this
  obtain rfl : i = pids.length := by omega
  exact ⟨hsome, h.places _ s hsome, hwaiting⟩

/-- Whether another stage is started after the next one. -/
theorem isSome_next_iff {s : StageRun} (h : e.Arranged total pids) (pid : Pid)
    (hphase : e.phase = .starting) (hs : e.next? = some s) :
    (e.setProgress s.prepared.index (.running pid)).next?.isSome ↔ pids.length + 1 < total := by
  obtain ⟨hget, hindex, -⟩ := h.next hphase hs
  rw [hindex, next?, List.find?_isSome]
  constructor
  · rintro ⟨t, hmem, hwaiting⟩
    rw [decide_eq_true_eq] at hwaiting
    obtain ⟨i, ht⟩ := List.getElem?_of_mem hmem
    rcases stage_setProgress hget ht with ⟨rfl, rfl⟩ | ⟨hne, ht⟩
    · cases hwaiting
    · have hlt : i < e.stages.length := (List.getElem?_eq_some_iff.mp ht).1
      have hbegun := h.not_lt_of_waiting ht hwaiting
      have := h.length
      omega
  · intro hlt
    have hlt' : pids.length + 1 < e.stages.length := h.length.symm ▸ hlt
    have ht := List.getElem?_eq_getElem hlt'
    have hidle := h.idle _ _ ht (Nat.le_succ _)
    rw [hphase] at hidle
    rw [← getElem?_setProgress_ne e (.running pid) (Nat.ne_of_lt (Nat.lt_succ_self _))] at ht
    exact ⟨_, List.mem_of_getElem? ht, decide_eq_true hidle⟩

theorem congr {e' : Execution} (h : e.Arranged total pids) (hstages : e'.stages = e.stages)
    (hphase : e'.phase = e.phase) : e'.Arranged total pids where
  length := hstages ▸ h.length
  places := hstages ▸ h.places
  pid := hstages ▸ h.pid
  idle := hstages ▸ hphase ▸ h.idle
  phase := hphase ▸ h.phase

theorem changePhase {phase : Phase} (h : e.Arranged total pids)
    (hidle : phase.idle = e.phase.idle) (hafter : phase.Allows pids.length total) :
    { e with phase }.Arranged total pids where
  length := h.length
  places := h.places
  pid := h.pid
  idle i t ht hle := (h.idle i t ht hle).trans hidle.symm
  phase := hafter

/-- A stage that has begun goes on. -/
theorem setProgress {index : Nat} {s : StageRun} {pid : Pid} {progress : Progress}
    (h : e.Arranged total pids) (hs : e.stages[index]? = some s)
    (hbefore : s.progress.pid? = some pid) (hafter : progress.pid? = some pid) :
    (e.setProgress index progress).Arranged total pids where
  length := (length_setProgress ..).trans h.length
  places i t ht := by
    rcases stage_setProgress hs ht with ⟨rfl, rfl⟩ | ⟨-, ht⟩
    · exact h.places i s hs
    · exact h.places i t ht
  pid i t ht := by
    rcases stage_setProgress hs ht with ⟨rfl, rfl⟩ | ⟨-, ht⟩
    · rw [← h.pid i s hs, hbefore]
      exact hafter
    · exact h.pid i t ht
  idle i t ht hle := by
    rcases stage_setProgress hs ht with ⟨rfl, rfl⟩ | ⟨-, ht⟩
    · rw [h.idle i s hs hle, Phase.pid?_idle] at hbefore
      cases hbefore
    · exact h.idle i t ht hle
  phase := h.phase

/-- The next stage begins. -/
theorem begin_ {s : StageRun} (h : e.Arranged total pids) (pid : Pid) (phase : Phase)
    (hphase : e.phase = .starting) (hs : e.next? = some s)
    (hafter : phase.Allows (pids.length + 1) total)
    (hidle : pids.length + 1 < total → phase = .starting) :
    { e.setProgress s.prepared.index (.running pid) with phase }.Arranged total
      (pids ++ [pid]) := by
  obtain ⟨hget, hindex, -⟩ := h.next hphase hs
  rw [hindex]
  exact
    { length := (length_setProgress ..).trans h.length
      places := fun i t ht => by
        rcases stage_setProgress hget ht with ⟨rfl, rfl⟩ | ⟨-, ht⟩
        · exact hindex
        · exact h.places i t ht
      pid := fun i t ht => by
        rcases stage_setProgress hget ht with ⟨rfl, rfl⟩ | ⟨hne, ht⟩
        · rw [List.getElem?_concat_length]
          rfl
        · rw [h.pid i t ht]
          by_cases hlt : i < pids.length
          · rw [List.getElem?_append_left hlt]
          · rw [List.getElem?_eq_none (by omega), List.getElem?_eq_none]
            rw [List.length_append, List.length_singleton]
            omega
      idle := fun i t ht hle => by
        rw [List.length_append, List.length_singleton] at hle
        rcases stage_setProgress hget ht with ⟨rfl, rfl⟩ | ⟨hne, ht⟩
        · omega
        · have hlt : i < e.stages.length := (List.getElem?_eq_some_iff.mp ht).1
          rw [h.idle i t ht (by omega), hphase]
          dsimp only
          rw [hidle (by rw [← h.length]; omega)]
      phase := by rwa [List.length_append, List.length_singleton] }

/-- The stages that have not begun are dropped. -/
theorem dropIdle (h : e.Arranged total pids) (phase : Phase) (hphase : e.phase = .starting)
    (hafter : phase.Allows pids.length total) (hidle : phase.idle = .dropped) :
    { e.dropIdle with phase }.Arranged total pids := by
  have hget : ∀ (i : Nat) (t : StageRun), e.dropIdle.stages[i]? = some t →
      ∃ s, e.stages[i]? = some s ∧ t = s.drop := by
    intro i t ht
    rw [Execution.dropIdle, List.getElem?_map, Option.map_eq_some_iff] at ht
    obtain ⟨s, hs, rfl⟩ := ht
    exact ⟨s, hs, rfl⟩
  exact
    { length := (List.length_map ..).trans h.length
      places := fun i t ht => by
        obtain ⟨s, hs, rfl⟩ := hget i t ht
        rw [StageRun.prepared_drop, h.places i s hs]
      pid := fun i t ht => by
        obtain ⟨s, hs, rfl⟩ := hget i t ht
        rw [StageRun.pid?_drop, h.pid i s hs]
      idle := fun i t ht hle => by
        obtain ⟨s, hs, rfl⟩ := hget i t ht
        rw [StageRun.progress_drop_of_waiting (by rw [h.idle i s hs hle, hphase]; rfl)]
        exact hidle.symm
      phase := hafter }

theorem length_le (h : e.Arranged total pids) : pids.length ≤ total := by
  have := h.phase
  unfold Phase.Allows at this
  split at this <;> omega

/-- The first process that was started leads the group. -/
theorem group?_eq (h : e.Arranged total pids) : e.group? = pids.head? := by
  rw [group?, List.head?_eq_getElem?, List.head?_eq_getElem?]
  cases hs : e.stages[0]? with
  | some s => exact h.pid 0 s hs
  | none =>
      have := List.getElem?_eq_none_iff.mp hs
      rw [h.length] at this
      exact (List.getElem?_eq_none_iff.mpr (Nat.le_trans h.length_le this)).symm

theorem unchanged (h : e.Arranged total pids) : e.Arranged total (pids ++ []) := by
  rwa [List.append_nil]

/-- One more process for an event that starts one, else the same. -/
theorem move {event : Event} {e' : Execution} (h : e.Arranged total pids)
    (hmove : Move e event e') : e'.Arranged total (pids ++ event.start?.toList) := by
  have hphase' := h.phase
  cases hmove with
  | @started s next pid hphase hs hmore =>
      have hlt := (h.isSome_next_iff pid hphase hs).mp (by rw [hmore]; rfl)
      exact (h.begin_ pid .starting hphase hs hlt fun _ => rfl).congr rfl hphase
  | @startedLast s pid hphase hs hlast =>
      have hle : ¬pids.length + 1 < total := by
        rw [← h.isSome_next_iff pid hphase hs, hlast]
        simp
      rw [hphase] at hphase'
      have heq : pids.length + 1 = total := Nat.le_antisymm hphase' (Nat.not_lt.mp hle)
      refine h.begin_ pid _ hphase hs ?_ fun hlt => (hle hlt).elim
      split <;> exact heq
  | @gaveUp s failure hphase hs =>
      rw [hphase] at hphase'
      refine unchanged ?_
      refine h.dropIdle _ hphase ?_ ?_
      · cases hgroup : e.dropIdle.group? with
        | none => exact hphase'
        | some group =>
            have hhead := (h.dropIdle (.failed failure) hphase hphase' rfl).group?_eq
            exact ⟨List.length_pos_of_mem (List.mem_of_head? (hhead.symm.trans hgroup)), hphase'⟩
      · split <;> rfl
  | waited hphase hs hprogress =>
      rw [h.places _ _ hs]
      refine unchanged ?_
      exact h.setProgress hs (by rw [hprogress]; rfl) rfl
  | released hs hprogress =>
      refine unchanged ?_
      exact h.setProgress hs (by rw [hprogress]; rfl) rfl
  | arrived hs hprogress =>
      refine unchanged ?_
      exact (h.setProgress hs (by rw [hprogress]; rfl) rfl).congr rfl rfl
  | killed hphase hclosed =>
      rw [hphase] at hphase'
      refine unchanged ?_
      exact h.changePhase (by rw [hphase]; rfl) hphase'
  | passed hopen hafter =>
      obtain ⟨hidle, hallows⟩ := Phase.allows_of_afterBarrier? hafter
      refine unchanged ?_
      exact h.changePhase hidle (hallows _ _ hphase')
  | noticed hphase =>
      rw [hphase] at hphase'
      refine unchanged ?_
      exact h.changePhase (by rw [hphase]; rfl) hphase'

end Arranged

theorem Run.arranged {job : Job} {callerGroup : Pid} {events : List Event}
    {effects : List Effect} {e : Execution} (h : Run (ofJob job callerGroup) events effects e)
    (hjob : job.Numbered) (hne : job.stages ≠ []) :
    e.Arranged job.stages.length (starts events) :=
  h.induction (P := fun events e => e.Arranged job.stages.length (starts events))
    (arranged_ofJob hjob hne callerGroup) fun events e event e' harranged hmove => by
      rw [starts_concat]
      exact harranged.move hmove

end Execution

end JobShell
