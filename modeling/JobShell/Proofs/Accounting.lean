import JobShell.Proofs.Runs

/-!
# The barrier of a job keeps count

Every stage of a job is taken off its barrier once: when it arrives, or when
it is forfeited because it was never started. `accounted_of_run` says what
follows for every run of every job, whichever stage fails to start and in
whatever order the others end: the count is exact and never stops at zero too
early, whoever waits goes on only after the wait for every started process
has returned, and nobody waits in vain.

The count is tied to the stages step by step: `Move.pending` for the stages
that are still counted, `Move.hasArrived_iff` for those that have arrived,
and `Recorded` for what the events say about both.
-/

namespace JobShell

open Machine (Pid)

/-! ## What is counted -/

namespace Progress

/-- Whether the stage is still counted by the barrier. -/
def isPending : Progress → Bool
  | waiting | running _ | reaped _ _ | released _ _ => true
  | arrived _ _ | dropped => false

/-- Whether the stage has arrived at the barrier. -/
def isArrived : Progress → Bool
  | arrived _ _ => true
  | waiting | running _ | reaped _ _ | released _ _ | dropped => false

/-- What is kept of the wait for the process, once it has returned. -/
def outcome? : Progress → Option (Option ExitReason)
  | reaped _ reason | released _ reason | arrived _ reason => some reason
  | waiting | running _ | dropped => none

end Progress

/-- The stage that arrives with an event. -/
def Event.arrival? : Event → Option Nat
  | arrived index => some index
  | _ => none

/-- The stages that have arrived, in their order. -/
def arrivals (events : List Event) : List Nat := events.filterMap Event.arrival?

theorem arrivals_concat (events : List Event) (event : Event) :
    arrivals (events ++ [event]) = arrivals events ++ event.arrival?.toList := by
  rw [arrivals, List.filterMap_append, arrivals]
  cases event <;> rfl

/-- The failure to start a stage that a phase goes back to. -/
def Phase.failure? : Phase → Option Failure
  | terminating failure | killing failure | failed failure => some failure
  | starting | waitingForeground | runningBackground | posting | doneForeground
  | doneBackground => none

theorem Phase.failure?_of_afterBarrier? {phase after : Phase}
    (h : phase.afterBarrier? = some after) : after.failure? = phase.failure? := by
  cases phase with
  | starting | posting | doneForeground | doneBackground | failed _ => cases h
  | waitingForeground | runningBackground | terminating _ | killing _ =>
      obtain rfl := Option.some.inj h
      rfl

/-- Whether a phase lies behind the barrier. -/
def Phase.isBehindBarrier : Phase → Bool
  | posting | doneForeground | doneBackground | failed _ => true
  | starting | waitingForeground | runningBackground | terminating _ | killing _ => false

namespace Execution

/-- The number of stages with such a progress. -/
def tally (e : Execution) (p : Progress → Bool) : Nat := e.stages.countP fun s => p s.progress

/-- How many stages are counted by the barrier. -/
def pending (e : Execution) : Nat := e.tally Progress.isPending

/-- How many stages were given up. -/
def forfeited (e : Execution) : Nat := e.tally (· = .dropped)

/-- How many stages an event gives up. -/
def forfeits (e : Execution) : Event → Nat
  | .failedToStart _ => e.tally (· = .waiting)
  | _ => 0

/-- How many stages an event takes off the barrier. -/
def counted (e : Execution) (event : Event) : Nat :=
  event.arrival?.toList.length + e.forfeits event

/-- The stage at this place has arrived. -/
def HasArrived (e : Execution) (index : Nat) : Prop :=
  ∃ s, e.stages[index]? = some s ∧ s.progress.isArrived = true

/-! ## Steps and the count -/

/-- If those from place `k` on count, their number is known. -/
theorem countP_eq_sub {α : Type} {p : α → Bool} {l : List α} {k : Nat}
    (h : ∀ (i : Nat) (a : α), l[i]? = some a → (p a = true ↔ k ≤ i)) :
    l.countP p = l.length - k := by
  induction l generalizing k with
  | nil => simp
  | cons a l ih =>
      cases k with
      | zero =>
          rw [Nat.sub_zero, List.countP_eq_length]
          intro b hb
          obtain ⟨i, hi⟩ := List.getElem?_of_mem hb
          exact (h i b hi).mpr (Nat.zero_le i)
      | succ k =>
          have hfirst : ¬p a = true := by
            rw [h 0 a rfl]
            simp
          rw [List.countP_cons_of_neg hfirst, ih, List.length_cons, Nat.add_sub_add_right]
          intro i b hb
          rw [h (i + 1) b hb, Nat.add_le_add_iff_right]

theorem tally_setProgress {e : Execution} {index : Nat} {s : StageRun} (p : Progress → Bool)
    (progress : Progress) (hs : e.stages[index]? = some s) :
    (e.setProgress index progress).tally p + (if p s.progress then 1 else 0)
      = e.tally p + if p progress then 1 else 0 := by
  obtain ⟨hlt, hget⟩ := List.getElem?_eq_some_iff.mp hs
  obtain ⟨front, t, back, hstages, hlength, hmodify⟩ :=
    List.exists_of_modify (fun s => { s with progress }) hlt
  obtain rfl : t = s := by
    subst hlength
    simp only [hstages] at hget
    simpa using hget
  rw [tally, setProgress, hmodify, tally, hstages, List.countP_append, List.countP_cons,
    List.countP_append, List.countP_cons]
  dsimp only
  omega

theorem tally_dropIdle (e : Execution) (p : Progress → Bool) :
    e.dropIdle.tally p + (if p .waiting then e.tally (· = .waiting) else 0)
      = e.tally p + if p .dropped then e.tally (· = .waiting) else 0 := by
  rw [tally, tally, tally, dropIdle]
  dsimp only
  induction e.stages with
  | nil => simp
  | cons s rest ih =>
      rw [List.map_cons, List.countP_cons, List.countP_cons, List.countP_cons]
      by_cases h : s.progress = .waiting
      · rw [StageRun.progress_drop_of_waiting h, h, decide_eq_true rfl, if_pos rfl]
        cases hwaiting : p .waiting <;> cases hdropped : p .dropped <;>
          simp only [hwaiting, hdropped, Bool.false_eq_true, if_true, if_false] at ih ⊢ <;> omega
      · have hdrop : s.drop = s := if_neg h
        rw [hdrop, decide_eq_false h, if_neg Bool.false_ne_true, Nat.add_zero]
        omega

/-- A stage that is still counted goes on. -/
theorem tally_advance {e : Execution} {index : Nat} {s : StageRun} (progress : Progress)
    (hs : e.stages[index]? = some s) (hbefore : s.progress.isPending = true)
    (hafter : progress ≠ .dropped) :
    (e.setProgress index progress).pending + 1
        = e.pending + (if progress.isPending then 1 else 0)
      ∧ (e.setProgress index progress).forfeited = e.forfeited := by
  have hpending := tally_setProgress Progress.isPending progress hs
  have hforfeited := tally_setProgress (fun p => decide (p = .dropped)) progress hs
  have hne : s.progress ≠ .dropped := by
    intro h
    rw [h] at hbefore
    cases hbefore
  rw [if_pos hbefore] at hpending
  rw [decide_eq_false hafter, decide_eq_false hne] at hforfeited
  exact ⟨hpending, hforfeited⟩

/-- What a step does to the count of the barrier. -/
theorem Move.remaining {e e' : Execution} {event : Event} (h : Move e event e') :
    e'.barrier.remaining = e.barrier.remaining - e.counted event := by
  cases h with
  | gaveUp hphase hs =>
      rw [counted, Event.arrival?, Option.toList_none, List.length_nil, Nat.zero_add]
      · rfl
      · simp
  | _ => rfl

/-- What a step does to the stages that are counted. -/
theorem Move.pending {total : Nat} {pids : List Pid} {e e' : Execution} {event : Event}
    (harranged : e.Arranged total pids) (h : Move e event e') :
    e'.pending + e.counted event = e.pending
      ∧ e'.forfeited = e.forfeited + e.forfeits event := by
  cases h with
  | @started s _ pid hphase hs _ | @startedLast s pid hphase hs _ =>
      obtain ⟨hget, hindex, hwaiting⟩ := harranged.next hphase hs
      rw [hindex]
      obtain ⟨hpending, hforfeited⟩ :=
        tally_advance (.running pid) hget (by rw [hwaiting]; rfl) (by simp)
      exact ⟨Nat.add_right_cancel hpending, hforfeited⟩
  | @gaveUp s failure hphase hs =>
      have hpending := tally_dropIdle e Progress.isPending
      have hforfeited := tally_dropIdle e fun p => decide (p = .dropped)
      refine ⟨?_, hforfeited⟩
      rw [counted, Event.arrival?, Option.toList_none, List.length_nil, Nat.zero_add]
      · exact hpending
      · simp
  | @waited index s pid result hphase hs hprogress =>
      rw [harranged.places _ _ hs]
      obtain ⟨hpending, hforfeited⟩ :=
        tally_advance (.reaped pid (reasonOf result)) hs (by rw [hprogress]; rfl) (by simp)
      exact ⟨Nat.add_right_cancel hpending, hforfeited⟩
  | @released index s pid reason hs hprogress =>
      obtain ⟨hpending, hforfeited⟩ :=
        tally_advance (.released pid reason) hs (by rw [hprogress]; rfl) (by simp)
      exact ⟨Nat.add_right_cancel hpending, hforfeited⟩
  | @arrived index s pid reason hs hprogress =>
      exact tally_advance (.arrived pid reason) hs (by rw [hprogress]; rfl) (by simp)
  | killed _ _ | passed _ _ | noticed _ => exact ⟨rfl, rfl⟩

/-! ## Steps and what was seen -/

theorem hasArrived_setProgress {e : Execution} {index : Nat} {s : StageRun} {progress : Progress}
    (hs : e.stages[index]? = some s) (hbefore : s.progress.isArrived = false) (i : Nat) :
    (e.setProgress index progress).HasArrived i
      ↔ e.HasArrived i ∨ (progress.isArrived = true ∧ index = i) := by
  constructor
  · rintro ⟨t, ht, harrived⟩
    rcases stage_setProgress hs ht with ⟨rfl, rfl⟩ | ⟨-, ht⟩
    · exact Or.inr ⟨harrived, rfl⟩
    · exact Or.inl ⟨t, ht, harrived⟩
  · rintro (⟨t, ht, harrived⟩ | ⟨harrived, rfl⟩)
    · have hne : index ≠ i := by
        rintro rfl
        rw [hs] at ht
        obtain rfl := Option.some.inj ht
        rw [hbefore] at harrived
        cases harrived
      exact ⟨t, (getElem?_setProgress_ne e progress hne).trans ht, harrived⟩
    · exact ⟨_, getElem?_setProgress_self progress hs, harrived⟩

theorem hasArrived_dropIdle (e : Execution) (i : Nat) :
    e.dropIdle.HasArrived i ↔ e.HasArrived i := by
  simp only [HasArrived, dropIdle, List.getElem?_map, Option.map_eq_some_iff]
  constructor
  · rintro ⟨_, ⟨s, hs, rfl⟩, harrived⟩
    refine ⟨s, hs, ?_⟩
    unfold StageRun.drop at harrived
    split at harrived
    · cases harrived
    · exact harrived
  · rintro ⟨s, hs, harrived⟩
    refine ⟨_, ⟨s, hs, rfl⟩, ?_⟩
    rw [StageRun.drop, if_neg]
    · exact harrived
    · intro h
      rw [h] at harrived
      cases harrived

/-- A step makes no other stage arrive than that of its event. -/
theorem Move.hasArrived_iff {total : Nat} {pids : List Pid} {e e' : Execution} {event : Event}
    (harranged : e.Arranged total pids) (h : Move e event e') (i : Nat) :
    e'.HasArrived i ↔ e.HasArrived i ∨ event.arrival? = some i := by
  cases h with
  | started hphase hs _ | startedLast hphase hs _ =>
      obtain ⟨hget, hindex, hwaiting⟩ := harranged.next hphase hs
      rw [hindex]
      refine (hasArrived_setProgress hget (by rw [hwaiting]; rfl) i).trans ?_
      simp [Progress.isArrived, Event.arrival?]
  | gaveUp hphase hs =>
      refine (hasArrived_dropIdle e i).trans ?_
      simp [Event.arrival?]
  | waited hphase hs hprogress =>
      rw [harranged.places _ _ hs]
      refine (hasArrived_setProgress hs (by rw [hprogress]; rfl) i).trans ?_
      simp [Progress.isArrived, Event.arrival?]
  | released hs hprogress =>
      refine (hasArrived_setProgress hs (by rw [hprogress]; rfl) i).trans ?_
      simp [Progress.isArrived, Event.arrival?]
  | arrived hs hprogress =>
      refine (hasArrived_setProgress hs (by rw [hprogress]; rfl) i).trans ?_
      simp [Progress.isArrived, Event.arrival?]
  | killed _ _ | passed _ _ | noticed _ => simp [HasArrived, Event.arrival?]

/-- A stage that arrives has not done so before. -/
theorem Move.not_hasArrived {e e' : Execution} {event : Event} {i : Nat} (h : Move e event e')
    (harrival : event.arrival? = some i) : ¬e.HasArrived i := by
  cases h with
  | arrived hs hprogress =>
      obtain rfl := Option.some.inj harrival
      rintro ⟨t, ht, harrived⟩
      rw [hs] at ht
      obtain rfl := Option.some.inj ht
      rw [hprogress] at harrived
      cases harrived
  | _ => cases harrival

/-- What is kept of a wait was kept before, or it is the result the event
brings. -/
theorem Move.outcome {total : Nat} {pids : List Pid} {e e' : Execution} {event : Event}
    {i : Nat} {t : StageRun} {reason : Option ExitReason} (harranged : e.Arranged total pids)
    (h : Move e event e') (ht : e'.stages[i]? = some t)
    (hreason : t.progress.outcome? = some reason) :
    (∃ s, e.stages[i]? = some s ∧ s.progress.outcome? = some reason)
      ∨ ∃ result, event = .waited i result ∧ reason = reasonOf result := by
  cases h with
  | started hphase hs _ | startedLast hphase hs _ =>
      obtain ⟨hget, hindex, -⟩ := harranged.next hphase hs
      rw [hindex] at ht
      rcases stage_setProgress hget ht with ⟨rfl, rfl⟩ | ⟨-, ht⟩
      · cases hreason
      · exact Or.inl ⟨t, ht, hreason⟩
  | gaveUp hphase hs =>
      simp only [dropIdle, List.getElem?_map, Option.map_eq_some_iff] at ht
      obtain ⟨s, hs, rfl⟩ := ht
      refine Or.inl ⟨s, hs, ?_⟩
      unfold StageRun.drop at hreason
      split at hreason
      · cases hreason
      · exact hreason
  | waited hphase hs hprogress =>
      rw [harranged.places _ _ hs] at ht
      rcases stage_setProgress hs ht with ⟨rfl, rfl⟩ | ⟨-, ht⟩
      · exact Or.inr ⟨_, rfl, (Option.some.inj hreason).symm⟩
      · exact Or.inl ⟨t, ht, hreason⟩
  | released hs hprogress | arrived hs hprogress =>
      rcases stage_setProgress hs ht with ⟨rfl, rfl⟩ | ⟨-, ht⟩
      · exact Or.inl ⟨_, hs, by rw [hprogress]; exact hreason⟩
      · exact Or.inl ⟨t, ht, hreason⟩
  | killed _ _ | passed _ _ | noticed _ => exact Or.inl ⟨t, ht, hreason⟩

theorem Move.failure {e e' : Execution} {event : Event} {failure : Failure}
    (h : Move e event e') (hfailure : e'.phase.failure? = some failure) :
    e.phase.failure? = some failure ∨ event = .failedToStart failure := by
  cases h with
  | started hphase hs _ | waited hphase hs _ | released hs _ | arrived hs _ =>
      exact Or.inl hfailure
  | startedLast hphase hs _ =>
      dsimp only at hfailure
      split at hfailure <;> cases hfailure
  | gaveUp hphase hs =>
      dsimp only at hfailure
      refine Or.inr ?_
      split at hfailure <;>
      · obtain rfl := Option.some.inj hfailure
        rfl
  | killed hphase hclosed =>
      rw [hphase]
      exact Or.inl hfailure
  | passed hopen hafter =>
      exact Or.inl ((Phase.failure?_of_afterBarrier? hafter).symm.trans hfailure)
  | noticed hphase => cases hfailure

/-! ## What a run has recorded -/

/-- What the events of a run say about the state they lead to. -/
structure Recorded (total : Nat) (events : List Event) (e : Execution) : Prop where
  remaining : e.barrier.remaining = e.pending
  sum : e.pending + (arrivals events).length + e.forfeited = total
  nodup : (arrivals events).Nodup
  arrived : ∀ i, i ∈ arrivals events ↔ e.HasArrived i
  outcome : ∀ (i : Nat) (s : StageRun) (reason : Option ExitReason), e.stages[i]? = some s →
    s.progress.outcome? = some reason →
    ∃ result, .waited i result ∈ events ∧ reason = reasonOf result
  failure : ∀ failure, e.phase.failure? = some failure → .failedToStart failure ∈ events
  settled : e.phase.isBehindBarrier = true → e.barrier.remaining = 0

theorem recorded_ofJob (job : Job) (callerGroup : Pid) :
    (ofJob job callerGroup).Recorded job.stages.length [] := by
  have hwaiting : ∀ (i : Nat) (s : StageRun), (ofJob job callerGroup).stages[i]? = some s →
      s.progress = .waiting := by
    intro i s hs
    rw [ofJob, List.getElem?_map, Option.map_eq_some_iff] at hs
    obtain ⟨prepared, -, rfl⟩ := hs
    rfl
  have hpending : (ofJob job callerGroup).pending = job.stages.length := by
    rw [pending, tally, ofJob]
    dsimp only
    rw [List.countP_map, List.countP_eq_length]
    exact fun _ _ => rfl
  have hforfeited : (ofJob job callerGroup).forfeited = 0 := by
    rw [forfeited, tally, ofJob]
    dsimp only
    rw [List.countP_map, List.countP_eq_zero]
    exact fun _ _ h => by cases h
  exact
    { remaining := hpending.symm
      sum := by rw [hpending, hforfeited]; rfl
      nodup := List.nodup_nil
      arrived := fun i => by
        refine ⟨fun h => (List.not_mem_nil h).elim, ?_⟩
        rintro ⟨s, hs, harrived⟩
        rw [hwaiting i s hs] at harrived
        cases harrived
      outcome := fun i s reason hs hreason => by
        rw [hwaiting i s hs] at hreason
        cases hreason
      failure := fun failure h => by cases h
      settled := fun h => by cases h }

/-- Behind the barrier nothing is counted any more. -/
theorem Recorded.settled_move {total : Nat} {pids : List Pid} {events : List Event}
    {e e' : Execution} {event : Event} (hrecorded : e.Recorded total events)
    (harranged : e.Arranged total pids) (h : Move e event e')
    (hbehind : e'.phase.isBehindBarrier = true) : e'.barrier.remaining = 0 := by
  have hcount := h.remaining
  cases h with
  | started hphase hs _ =>
      rw [show (e.setProgress _ _).phase = e.phase from rfl, hphase] at hbehind
      cases hbehind
  | startedLast hphase hs _ =>
      dsimp only at hbehind
      split at hbehind <;> cases hbehind
  | @gaveUp s failure hphase hs =>
      cases hgroup : e.dropIdle.group? with
      | some group =>
          rw [hgroup] at hbehind
          cases hbehind
      | none =>
          -- Without a process nothing has begun, so all stages are dropped.
          have hphase' := harranged.phase
          rw [hphase] at hphase'
          have hdropped := harranged.dropIdle (.failed failure) hphase hphase' rfl
          have hnil : pids = [] := List.head?_eq_none_iff.mp (hdropped.group?_eq.symm.trans hgroup)
          have hzero : e.dropIdle.pending = 0 := by
            rw [pending, tally, List.countP_eq_zero]
            intro t ht
            obtain ⟨i, hi⟩ := List.getElem?_of_mem ht
            rw [hdropped.idle i t hi (by rw [hnil]; exact Nat.zero_le i)]
            exact Bool.false_ne_true
          have hsum : e.dropIdle.pending + _ = e.pending := tally_dropIdle e Progress.isPending
          rw [hzero, Nat.zero_add] at hsum
          show e.barrier.remaining - e.tally (· = .waiting) = 0
          rw [hrecorded.remaining, ← hsum]
          exact Nat.sub_self _
  | waited _ hs _ | released hs _ | arrived hs _ =>
      rw [hcount, hrecorded.settled hbehind, Nat.zero_sub]
  | killed hphase hclosed => cases hbehind
  | passed hopen hafter => exact of_decide_eq_true hopen
  | noticed hphase => exact hrecorded.settled (by rw [hphase]; rfl)

theorem Recorded.move {total : Nat} {pids : List Pid} {events : List Event} {e e' : Execution}
    {event : Event} (hrecorded : e.Recorded total events) (harranged : e.Arranged total pids)
    (h : Move e event e') : e'.Recorded total (events ++ [event]) where
  remaining := by
    rw [h.remaining, hrecorded.remaining, ← (h.pending harranged).1, Nat.add_sub_cancel]
  sum := by
    obtain ⟨hpending, hforfeited⟩ := h.pending harranged
    have hsum := hrecorded.sum
    rw [counted] at hpending
    rw [arrivals_concat, List.length_append]
    omega
  nodup := by
    rw [arrivals_concat]
    cases harrival : event.arrival? with
    | none => simpa using hrecorded.nodup
    | some i =>
        refine List.nodup_append.mpr ⟨hrecorded.nodup, by simp, ?_⟩
        rintro j hj _ hi rfl
        obtain rfl := List.mem_singleton.mp hi
        exact h.not_hasArrived harrival ((hrecorded.arrived _).mp hj)
  arrived i := by
    rw [arrivals_concat, List.mem_append, hrecorded.arrived i, h.hasArrived_iff harranged i,
      Option.mem_toList]
  outcome i s reason hs hreason := by
    rcases h.outcome harranged hs hreason with ⟨t, ht, hbefore⟩ | ⟨result, rfl, hresult⟩
    · obtain ⟨result, hmem, hresult⟩ := hrecorded.outcome i t reason ht hbefore
      exact ⟨result, List.mem_append_left _ hmem, hresult⟩
    · exact ⟨result, List.mem_append_right _ (List.mem_singleton_self _), hresult⟩
  failure failure hfailure := by
    rcases h.failure hfailure with hbefore | rfl
    · exact List.mem_append_left _ (hrecorded.failure failure hbefore)
    · exact List.mem_append_right _ (List.mem_singleton_self _)
  settled := hrecorded.settled_move harranged h

theorem Run.recorded {job : Job} {callerGroup : Pid} {events : List Event}
    {effects : List Effect} {e : Execution} (h : Run (ofJob job callerGroup) events effects e)
    (hjob : job.Numbered) (hne : job.stages ≠ []) :
    e.Arranged job.stages.length (starts events) ∧ e.Recorded job.stages.length events :=
  h.induction (P := fun events e => e.Arranged job.stages.length (starts events)
      ∧ e.Recorded job.stages.length events)
    ⟨arranged_ofJob hjob hne callerGroup, recorded_ofJob job callerGroup⟩
    fun events _ event _ ⟨harranged, hrecorded⟩ hmove =>
      ⟨starts_concat events event ▸ harranged.move hmove, hrecorded.move harranged hmove⟩

/-! ## The account -/

/-- The wait for the process of a stage has returned, and then the stage
arrived. -/
def Awaited (events : List Event) (e : Execution) (index : Nat) : Prop :=
  ∃ s pid result, e.stages[index]? = some s ∧ (starts events)[index]? = some pid
    ∧ .waited index result ∈ events ∧ s.progress = .arrived pid (reasonOf result)

/-- What the barrier of a job with `total` stages guarantees after some
events. -/
structure Accounted (total : Nat) (events : List Event) (e : Execution) : Prop where
  /-- Neither the arrivals nor the forfeited stages are still counted. -/
  count : e.barrier.remaining + (arrivals events).length + e.forfeited = total
  /-- The stages that were not started are forfeited, once one of them
  failed. -/
  forfeit : e.forfeited
    = if e.phase.failure?.isSome then total - (starts events).length else 0
  /-- A step takes off exactly what it counts: it is never cut off at zero. -/
  exact : ∀ event e' effects, e.step event = some (e', effects) →
    e'.barrier.remaining + e.counted event = e.barrier.remaining
  /-- A stage that was started arrives once, the others do not. -/
  once : (arrivals events).Nodup ∧ ∀ i ∈ arrivals events, i < (starts events).length
  /-- Once all who wait for a process are done, every stage is accounted
  for. -/
  ended : e.phase ≠ .starting → (∀ i < (starts events).length, i ∈ arrivals events) →
    (arrivals events).length + e.forfeited = total
  /-- Nobody passes the barrier before all started stages were waited for. -/
  passed : ∀ e' effects, e.step .passedBarrier = some (e', effects) →
    ∀ i < (starts events).length, Awaited events e i
  /-- A job that is done was started as a whole and waited for as a whole. -/
  succeeded : e.phase = .doneForeground ∨ e.phase = .posting ∨ e.phase = .doneBackground →
    (starts events).length = total ∧ ∀ i < total, Awaited events e i
  /-- A job that failed reports why a stage could not be started. The stages
  in front of it were waited for, and no other stage is left. -/
  failed : ∀ failure, e.phase = .failed failure →
    .failedToStart failure ∈ events ∧ (starts events).length < total
      ∧ (∀ i < (starts events).length, Awaited events e i)
      ∧ ∀ i s, (starts events).length ≤ i → e.stages[i]? = some s → s.progress = .dropped
  /-- Who waits at the barrier waits for a stage that has yet to arrive. -/
  live : e.phase.afterBarrier?.isSome = true → 0 < e.barrier.remaining →
    ∃ i < (starts events).length, i ∉ arrivals events

namespace Recorded

variable {total : Nat} {events : List Event} {e : Execution}

theorem awaited (h : e.Recorded total events) (harranged : e.Arranged total (starts events))
    (hzero : e.barrier.remaining = 0) : ∀ i < (starts events).length, Awaited events e i := by
  intro i hi
  have hlt : i < e.stages.length := by
    rw [harranged.length]
    exact Nat.lt_of_lt_of_le hi harranged.length_le
  have hs := List.getElem?_eq_getElem hlt
  generalize e.stages[i] = s at hs
  have hpid := harranged.pid i s hs
  rw [List.getElem?_eq_getElem hi] at hpid
  have hpending : ¬s.progress.isPending = true := by
    rw [h.remaining, pending, tally, List.countP_eq_zero] at hzero
    exact hzero s (List.mem_of_getElem? hs)
  cases hprogress : s.progress with
  | waiting | running _ | reaped _ _ | released _ _ =>
      rw [hprogress] at hpending
      exact (hpending rfl).elim
  | arrived pid reason =>
      rw [hprogress] at hpid
      obtain ⟨result, hmem, rfl⟩ := h.outcome i s reason hs (by rw [hprogress]; rfl)
      refine ⟨s, pid, result, hs, ?_, hmem, hprogress⟩
      rw [List.getElem?_eq_getElem hi]
      exact hpid.symm
  | dropped =>
      rw [hprogress] at hpid
      cases hpid

theorem forfeited_eq {pids : List Pid} (harranged : e.Arranged total pids) :
    e.forfeited = if e.phase.failure?.isSome then total - pids.length else 0 := by
  have hbegun : ∀ (i : Nat) (s : StageRun), e.stages[i]? = some s → s.progress = .dropped →
      pids.length ≤ i := by
    intro i s hs hprogress
    rw [← Nat.not_lt, harranged.lt_length_iff hs, hprogress]
    simp [Progress.pid?]
  have hphase := harranged.phase
  by_cases hstarting : e.phase = .starting
  · rw [hstarting, forfeited, tally, List.countP_eq_zero.mpr]
    · rfl
    · intro s hmem hp
      obtain ⟨i, hs⟩ := List.getElem?_of_mem hmem
      have hdropped := of_decide_eq_true hp
      rw [harranged.idle i s hs (hbegun i s hs hdropped), hstarting] at hdropped
      cases hdropped
  · have hcount : e.forfeited = total - pids.length := by
      rw [← harranged.length]
      refine countP_eq_sub fun i s hs => ?_
      rw [decide_eq_true_eq]
      exact ⟨hbegun i s hs, fun hle =>
        (harranged.idle i s hs hle).trans (Phase.idle_of_ne_starting hstarting)⟩
    rw [hcount]
    cases h : e.phase with
    | starting => exact (hstarting h).elim
    | waitingForeground | runningBackground | posting | doneForeground | doneBackground =>
        rw [h] at hphase
        exact Nat.sub_eq_zero_of_le (Nat.le_of_eq (Eq.symm hphase))
    | terminating _ | killing _ | failed _ => rfl

/-- A stage that is still counted has begun, unless stages are still being
started. -/
theorem exists_pending (h : e.Recorded total events)
    (harranged : e.Arranged total (starts events)) (hphase : e.phase ≠ .starting)
    (hpos : 0 < e.pending) : ∃ i < (starts events).length, i ∉ arrivals events := by
  rw [pending, tally, List.countP_pos_iff] at hpos
  obtain ⟨s, hmem, hpending⟩ := hpos
  obtain ⟨i, hs⟩ := List.getElem?_of_mem hmem
  refine ⟨i, ?_, ?_⟩
  · apply Nat.lt_of_not_le
    intro hle
    rw [harranged.idle i s hs hle, Phase.idle_of_ne_starting hphase] at hpending
    cases hpending
  · intro hmem
    obtain ⟨t, ht, harrived⟩ := (h.arrived i).mp hmem
    rw [hs] at ht
    obtain rfl := Option.some.inj ht
    cases hprogress : s.progress with
    | waiting | running _ | reaped _ _ | released _ _ | dropped =>
        rw [hprogress] at harrived
        cases harrived
    | arrived _ _ =>
        rw [hprogress] at hpending
        cases hpending

end Recorded

theorem accounted_of_recorded {total : Nat} {events : List Event} {e : Execution}
    (harranged : e.Arranged total (starts events)) (hrecorded : e.Recorded total events) :
    e.Accounted total events where
  count := by rw [hrecorded.remaining, hrecorded.sum]
  forfeit := Recorded.forfeited_eq harranged
  exact event e' effects hstep := by
    have hmove := move_of_step hstep
    rw [hmove.remaining, hrecorded.remaining]
    have := (hmove.pending harranged).1
    omega
  once := by
    refine ⟨hrecorded.nodup, fun i hi => ?_⟩
    obtain ⟨s, hs, harrived⟩ := (hrecorded.arrived i).mp hi
    rw [harranged.lt_length_iff hs]
    cases hprogress : s.progress with
    | waiting | running _ | reaped _ _ | released _ _ | dropped =>
        rw [hprogress] at harrived
        cases harrived
    | arrived _ _ => rfl
  ended hphase hall := by
    have hsum := hrecorded.sum
    have hzero : e.pending = 0 := by
      apply Nat.eq_zero_of_not_pos
      intro hpos
      obtain ⟨i, hi, hnot⟩ := hrecorded.exists_pending harranged hphase hpos
      exact hnot (hall i hi)
    omega
  passed e' effects hstep := by
    cases move_of_step hstep with
    | passed hopen hafter => exact hrecorded.awaited harranged (of_decide_eq_true hopen)
  succeeded hdone := by
    have hphase := harranged.phase
    have hlength : (starts events).length = total := by
      rcases hdone with h | h | h <;> rwa [h] at hphase
    have hzero : e.barrier.remaining = 0 := by
      apply hrecorded.settled
      rcases hdone with h | h | h <;> rw [h] <;> rfl
    exact ⟨hlength, hlength ▸ hrecorded.awaited harranged hzero⟩
  failed failure hfailed := by
    have hphase := harranged.phase
    rw [hfailed] at hphase
    refine ⟨hrecorded.failure failure (by rw [hfailed]; rfl), hphase, ?_, fun i s hle hs => ?_⟩
    · exact hrecorded.awaited harranged (hrecorded.settled (by rw [hfailed]; rfl))
    · rw [harranged.idle i s hs hle, hfailed]
      rfl
  live hwaiting hpos := by
    rw [hrecorded.remaining] at hpos
    refine hrecorded.exists_pending harranged (fun h => ?_) hpos
    rw [h] at hwaiting
    cases hwaiting

/-- **Every stage is counted once.** Whatever happens to a job, and in
whatever order, the count of its barrier is right: it never stops early, and
nobody who waits is let through early or forgotten. -/
theorem accounted_of_run {job : Job} {callerGroup : Pid} {events : List Event}
    {effects : List Effect} {e : Execution} (hjob : job.Numbered) (hne : job.stages ≠ [])
    (h : Run (ofJob job callerGroup) events effects e) :
    e.Accounted job.stages.length events := by
  obtain ⟨harranged, hrecorded⟩ := h.recorded hjob hne
  exact accounted_of_recorded harranged hrecorded

/-- The second of two stages can not be started. The wait for the first one
fails, and only then the job does. -/
theorem accounted_second_stage_fails :
    ∃ events effects e,
      Run (ofJob (.uniform [] ⟨[⟨"cat", ["cat"], [], ∅⟩, ⟨"wc", ["wc"], [], ∅⟩], true⟩) 1)
        events effects e
      ∧ e.phase = .failed .emptyPipeline ∧ e.Accounted 2 events := by
  have hjob : Job.BuiltFrom ⟨[⟨"cat", ["cat"], [], ∅⟩, ⟨"wc", ["wc"], [], ∅⟩], true⟩ _ :=
    Job.builtFrom_uniform [] (by simp)
  have hrun : (ofJob (.uniform [] ⟨[⟨"cat", ["cat"], [], ∅⟩, ⟨"wc", ["wc"], [], ∅⟩], true⟩) 1).run?
      [.started 7, .failedToStart .emptyPipeline, .waited 0 (.error .noChild), .released 0,
        .arrived 0, .passedBarrier] = some (_, _) := rfl
  have h := Run.run? .start hrun
  exact ⟨_, _, _, h, rfl, accounted_of_run hjob.numbered hjob.nonempty h⟩

end Execution

end JobShell
