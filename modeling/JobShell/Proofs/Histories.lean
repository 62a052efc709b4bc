import JobShell.Proofs.Effects
import JobShell.Proofs.Ledger

/-!
# Histories of a job

A `History` is a run of a job in which every event is followed by its effects,
so that it says what came before what.

The shell keeps the descriptors of a stage until the stage is done or is given
up. A step closes what it takes from the stages and nothing else, before it
does anything else (`closings_of_step`, `Move.held`, `Move.shed`).
-/

namespace JobShell

open Machine (Pid)

/-! ## Histories -/

namespace Act

/-- The event, if the act is one. -/
def event? : Act → Option Event
  | .event happened => some happened
  | .opened _ | .effect _ => none

/-- The effect, if the act is one. -/
def effect? : Act → Option Effect
  | .effect done => some done
  | .opened _ | .event _ => none

end Act

/-- The events among some acts. -/
def eventsOf (acts : List Act) : List Event := acts.filterMap Act.event?

/-- The effects among some acts. -/
def effectsOf (acts : List Act) : List Effect := acts.filterMap Act.effect?

/-- How many stages were started. -/
def begun (acts : List Act) : Nat := (starts (eventsOf acts)).length

/-- An event and its effects. -/
def Event.acts (event : Event) (effects : List Effect) : List Act :=
  .event event :: effects.map .effect

@[simp] theorem eventsOf_append (acts more : List Act) :
    eventsOf (acts ++ more) = eventsOf acts ++ eventsOf more :=
  List.filterMap_append ..

@[simp] theorem effectsOf_append (acts more : List Act) :
    effectsOf (acts ++ more) = effectsOf acts ++ effectsOf more :=
  List.filterMap_append ..

@[simp] theorem eventsOf_cons_event (event : Event) (acts : List Act) :
    eventsOf (.event event :: acts) = event :: eventsOf acts :=
  rfl

/-- There is no event among effects. -/
theorem eventsOf_eq_nil {acts : List Act} (h : ∀ act ∈ acts, ∃ effect, act = .effect effect) :
    eventsOf acts = [] := by
  refine List.filterMap_eq_nil_iff.mpr fun act hact => ?_
  obtain ⟨effect, rfl⟩ := h act hact
  rfl

@[simp] theorem eventsOf_effects (effects : List Effect) : eventsOf (effects.map .effect) = [] :=
  eventsOf_eq_nil (List.forall_mem_map.mpr fun effect _ => ⟨effect, rfl⟩)

@[simp] theorem eventsOf_closings (closed : List (List Fd)) :
    eventsOf (closed.map .closing) = [] :=
  eventsOf_eq_nil (List.forall_mem_map.mpr fun fds _ => ⟨.close fds, rfl⟩)

@[simp] theorem eventsOf_acts (event : Event) (effects : List Effect) :
    eventsOf (event.acts effects) = [event] := by
  rw [Event.acts, eventsOf_cons_event, eventsOf_effects]

@[simp] theorem effectsOf_acts (event : Event) (effects : List Effect) :
    effectsOf (event.acts effects) = effects := by
  rw [Event.acts, effectsOf, List.filterMap_cons_none rfl, List.filterMap_map]
  exact List.filterMap_some

@[simp] theorem mem_eventsOf_iff {event : Event} {acts : List Act} :
    event ∈ eventsOf acts ↔ .event event ∈ acts := by
  rw [eventsOf, List.mem_filterMap]
  constructor
  · rintro ⟨act, hmem, hevent⟩
    cases act with
    | event other =>
        obtain rfl := Option.some.inj hevent
        exact hmem
    | opened _ | effect _ => cases hevent
  · exact fun hmem => ⟨_, hmem, rfl⟩

/-- What comes before an act in one of two lists, one behind the other. -/
theorem before_of_append {acts more front back : List Act} {act : Act}
    (h : acts ++ more = front ++ act :: back) :
    (∃ rest, acts = front ++ act :: rest)
      ∨ ∃ part, front = acts ++ part ∧ more = part ++ act :: back := by
  rcases List.append_eq_append_iff.mp h with ⟨part, hfront, hmore⟩ | ⟨rest, hacts, hback⟩
  · exact Or.inr ⟨part, hfront, hmore⟩
  · cases rest with
    | nil => exact Or.inr ⟨[], by rw [hacts, List.append_nil, List.append_nil], hback.symm⟩
    | cons other rest =>
        obtain ⟨rfl, -⟩ := List.cons.inj hback
        exact Or.inl ⟨rest, hacts⟩

/-- The three kinds of moments in an event whose effects begin with closing
some descriptors. -/
theorem cut_of_acts {event : Event} {closed : List (List Fd)} {others : List Effect}
    {front back : List Act} {act : Act}
    (hcut : event.acts (closed.map .close ++ others) = front ++ act :: back) :
    (front = [] ∧ act = .event event)
      ∨ (∃ before fds, front = .event event :: before ∧ eventsOf before = []
        ∧ act = .closing fds ∧ fds ∈ closed)
      ∨ ∃ part other, front = .event event :: (closed.map .closing ++ part)
        ∧ act = .effect other ∧ other ∈ others
        ∧ ∀ before ∈ part, ∃ effect, before = .effect effect ∧ effect ∈ others := by
  cases front with
  | nil =>
      obtain ⟨rfl, -⟩ := List.cons.inj hcut
      exact Or.inl ⟨rfl, rfl⟩
  | cons first before =>
      obtain ⟨rfl, hrest⟩ := List.cons.inj hcut
      rw [List.map_append, List.map_map] at hrest
      rcases before_of_append hrest with ⟨rest, hclosed⟩ | ⟨part, rfl, hothers⟩
      · have hmem : act ∈ closed.map .closing :=
          hclosed ▸ List.mem_append_right _ (List.mem_cons_self ..)
        obtain ⟨fds, hfds, rfl⟩ := List.mem_map.mp hmem
        have hnone : eventsOf before ++ eventsOf (Act.closing fds :: rest) = [] := by
          rw [← eventsOf_append]
          exact (congrArg eventsOf hclosed).symm.trans (eventsOf_closings closed)
        exact Or.inr (Or.inl
          ⟨before, fds, rfl, (List.append_eq_nil_iff.mp hnone).1, rfl, hfds⟩)
      · have hall : ∀ other ∈ part ++ act :: back, ∃ effect, other = .effect effect
            ∧ effect ∈ others := by
          intro other hother
          obtain ⟨effect, hmem, rfl⟩ := List.mem_map.mp (hothers ▸ hother)
          exact ⟨effect, rfl, hmem⟩
        obtain ⟨hpart, hback⟩ := List.forall_mem_append.mp hall
        obtain ⟨other, rfl, hmem⟩ := hback act (List.mem_cons_self ..)
        exact Or.inr (Or.inr ⟨part, other, rfl, rfl, hmem, hpart⟩)

namespace Progress

/-- Whether the shell keeps the descriptors of the stage. -/
def isHolding : Progress → Bool
  | waiting | running _ | reaped _ _ => true
  | released _ _ | arrived _ _ | dropped => false

end Progress

namespace Execution

variable {e e' : Execution} {event : Event} {effects : List Effect} {job : Job}

/-- What happens to a job, one act after the other. -/
inductive History (start : Execution) : List Act → Execution → Prop
  | start : History start [] start
  | step {acts : List Act} {e e' : Execution} {event : Event} {effects : List Effect}
      (hhistory : History start acts e) (hstep : e.step event = some (e', effects)) :
      History start (acts ++ event.acts effects) e'

theorem History.run {start : Execution} {acts : List Act} (h : History start acts e) :
    Run start (eventsOf acts) (effectsOf acts) e := by
  induction h with
  | start => exact .start
  | step _ hstep ih =>
      rw [eventsOf_append, eventsOf_acts, effectsOf_append, effectsOf_acts]
      exact ih.step hstep

/-- A history goes on with the events that are possible. -/
theorem History.run? {start : Execution} {acts : List Act} {events : List Event}
    (h : History start acts e) (hrun : e.run? events = some (e', effects)) :
    ∃ more, History start (acts ++ more) e' ∧ eventsOf more = events := by
  induction events generalizing acts e effects with
  | nil =>
      obtain ⟨rfl, -⟩ := Prod.mk.inj (Option.some.inj hrun)
      exact ⟨[], (List.append_nil acts).symm ▸ h, rfl⟩
  | cons event rest ih =>
      obtain ⟨next, first, later, hstep, hrest, rfl⟩ := run?_cons_eq_some_iff.mp hrun
      obtain ⟨more, hmore, hevents⟩ := ih (h.step hstep) hrest
      refine ⟨event.acts first ++ more, List.append_assoc .. ▸ hmore, ?_⟩
      rw [eventsOf_append, eventsOf_acts, hevents]
      rfl

/-! ## What the stages hold -/

/-- The descriptors of the stages with such a progress. -/
def fdsWhere (e : Execution) (p : Progress → Bool) : List Fd :=
  e.stages.flatMap fun s => if p s.progress then s.prepared.fds else []

/-- The descriptors that the shell keeps. -/
def held (e : Execution) : List Fd := e.fdsWhere Progress.isHolding

/-- The descriptors that the shell kept. -/
def shed (e : Execution) : List Fd := e.fdsWhere (!·.isHolding)

theorem mem_fdsWhere {p : Progress → Bool} {s : StageRun} {i : Nat} {fd : Fd}
    (hs : e.stages[i]? = some s) (hp : p s.progress = true) (hfd : fd ∈ s.prepared.fds) :
    fd ∈ e.fdsWhere p := by
  refine List.mem_flatMap.mpr ⟨s, List.mem_of_getElem? hs, ?_⟩
  rwa [if_pos hp]

theorem fdsWhere_setProgress {index : Nat} {s : StageRun} (p : Progress → Bool)
    (progress : Progress) (hs : e.stages[index]? = some s) :
    ((e.setProgress index progress).fdsWhere p
        ++ if p s.progress then s.prepared.fds else []).Perm
      (e.fdsWhere p ++ if p progress then s.prepared.fds else []) := by
  obtain ⟨hlt, hget⟩ := List.getElem?_eq_some_iff.mp hs
  obtain ⟨front, t, back, hstages, hlength, hmodify⟩ :=
    List.exists_of_modify (fun s => { s with progress }) hlt
  obtain rfl : t = s := by
    subst hlength
    simp only [hstages] at hget
    simpa using hget
  rw [fdsWhere, setProgress, hmodify, fdsWhere, hstages]
  refine List.perm_iff_count.mpr fun fd => ?_
  simp only [List.flatMap_append, List.flatMap_cons, List.count_append]
  omega

theorem fdsWhere_dropIdle (e : Execution) (p : Progress → Bool) :
    (e.dropIdle.fdsWhere p ++ if p .waiting then e.fdsWhere (· = .waiting) else []).Perm
      (e.fdsWhere p ++ if p .dropped then e.fdsWhere (· = .waiting) else []) := by
  refine List.perm_iff_count.mpr fun fd => ?_
  rw [fdsWhere, fdsWhere, fdsWhere, dropIdle]
  dsimp only
  induction e.stages with
  | nil => cases p .waiting <;> cases p .dropped <;> rfl
  | cons s rest ih =>
      by_cases h : s.progress = .waiting
      · have hdrop := StageRun.progress_drop_of_waiting h
        cases hwaiting : p .waiting <;> cases hdropped : p .dropped <;>
          simp [hwaiting, hdropped, hdrop, h, StageRun.prepared_drop] at ih ⊢ <;> omega
      · have hdrop : s.drop = s := if_neg h
        cases hwaiting : p .waiting <;> cases hdropped : p .dropped <;>
          simp [hwaiting, hdropped, hdrop, h] at ih ⊢ <;> omega

/-- A stage goes on and keeps what it has. -/
theorem fdsWhere_advance {index : Nat} {s : StageRun} {p : Progress → Bool} {progress : Progress}
    (hs : e.stages[index]? = some s) (hsame : p progress = p s.progress) :
    ((e.setProgress index progress).fdsWhere p).Perm (e.fdsWhere p) := by
  have hboth := fdsWhere_setProgress p progress hs
  rw [hsame] at hboth
  exact (List.perm_append_right_iff _).mp hboth

theorem fdsWhere_left {index : Nat} {s : StageRun} {p : Progress → Bool} {progress : Progress}
    (hs : e.stages[index]? = some s) (hbefore : p s.progress = true)
    (hafter : p progress = false) :
    (e.fdsWhere p).Perm (s.prepared.fds ++ (e.setProgress index progress).fdsWhere p) := by
  have hboth := fdsWhere_setProgress p progress hs
  rw [hbefore, hafter, if_pos rfl, if_neg Bool.false_ne_true, List.append_nil] at hboth
  exact hboth.symm.trans List.perm_append_comm

theorem fdsWhere_joined {index : Nat} {s : StageRun} {p : Progress → Bool} {progress : Progress}
    (hs : e.stages[index]? = some s) (hbefore : p s.progress = false)
    (hafter : p progress = true) :
    ((e.setProgress index progress).fdsWhere p).Perm (e.fdsWhere p ++ s.prepared.fds) := by
  have hboth := fdsWhere_setProgress p progress hs
  rwa [hbefore, hafter, if_pos rfl, if_neg Bool.false_ne_true, List.append_nil] at hboth

/-- What an event takes from the stages. -/
def closedWith (e : Execution) : Event → List (List Fd)
  | .released index => (e.stages[index]?).toList.map (·.prepared.fds)
  | .failedToStart _ => (e.stages.filter (·.progress = .waiting)).map (·.prepared.fds)
  | _ => []

theorem flatten_closedWith_failedToStart (e : Execution) (failure : Failure) :
    (e.closedWith (.failedToStart failure)).flatten = e.fdsWhere (· = .waiting) := by
  rw [closedWith, fdsWhere, ← List.flatMap_def]
  induction e.stages with
  | nil => rfl
  | cons s rest ih =>
      rw [List.filter_cons, List.flatMap_cons, ← ih]
      by_cases h : s.progress = .waiting <;> simp [h]

/-- An event takes from the stages what is not held any more. -/
theorem Move.held {total : Nat} {pids : List Pid} (harranged : e.Arranged total pids)
    (h : Move e event e') : e.held.Perm ((e.closedWith event).flatten ++ e'.held) := by
  cases h with
  | started hphase hs _ | startedLast hphase hs _ =>
      obtain ⟨hget, hindex, hwaiting⟩ := harranged.next hphase hs
      rw [hindex]
      exact (fdsWhere_advance hget (by rw [hwaiting]; rfl)).symm
  | gaveUp hphase hs =>
      rw [flatten_closedWith_failedToStart]
      have hboth : (e.dropIdle.held ++ e.fdsWhere (· = .waiting)).Perm (e.held ++ []) :=
        fdsWhere_dropIdle e Progress.isHolding
      rw [List.append_nil] at hboth
      exact hboth.symm.trans List.perm_append_comm
  | waited hphase hs hprogress =>
      rw [harranged.places _ _ hs]
      exact (fdsWhere_advance hs (by rw [hprogress]; rfl)).symm
  | released hs hprogress =>
      rw [closedWith, hs, Option.toList_some, List.map_singleton, List.flatten_singleton]
      exact fdsWhere_left hs (by rw [hprogress]; rfl) rfl
  | arrived hs hprogress => exact (fdsWhere_advance hs (by rw [hprogress]; rfl)).symm
  | killed _ _ | passed _ _ | noticed _ => exact .refl _

theorem Move.shed {total : Nat} {pids : List Pid} (harranged : e.Arranged total pids)
    (h : Move e event e') : e'.shed.Perm (e.shed ++ (e.closedWith event).flatten) := by
  have hnone : ∀ fds : List Fd, fds.Perm (fds ++ []) := fun fds => by rw [List.append_nil]
  cases h with
  | @started s _ pid hphase hs _ | @startedLast s pid hphase hs _ =>
      obtain ⟨hget, hindex, hwaiting⟩ := harranged.next hphase hs
      have hsame : (!(Progress.running pid).isHolding) = !s.progress.isHolding := by
        rw [hwaiting]
        rfl
      rw [hindex]
      exact (fdsWhere_advance (p := (!·.isHolding)) hget hsame).trans (hnone _)
  | gaveUp hphase hs =>
      rw [flatten_closedWith_failedToStart]
      have hboth : (e.dropIdle.shed ++ []).Perm (e.shed ++ e.fdsWhere (· = Progress.waiting)) :=
        fdsWhere_dropIdle e (!·.isHolding)
      rwa [List.append_nil] at hboth
  | @waited index s pid result hphase hs hprogress =>
      have hsame : (!(Progress.reaped pid (reasonOf result)).isHolding)
          = !s.progress.isHolding := by
        rw [hprogress]
        rfl
      rw [harranged.places _ _ hs]
      exact (fdsWhere_advance (p := (!·.isHolding)) hs hsame).trans (hnone _)
  | released hs hprogress =>
      rw [closedWith, hs, Option.toList_some, List.map_singleton, List.flatten_singleton]
      exact fdsWhere_joined hs (by rw [hprogress]; rfl) rfl
  | @arrived index s pid reason hs hprogress =>
      have hsame : (!(Progress.arrived pid reason).isHolding) = !s.progress.isHolding := by
        rw [hprogress]
        rfl
      exact (fdsWhere_advance (p := (!·.isHolding)) hs hsame).trans (hnone _)
  | killed _ _ | passed _ _ | noticed _ => exact hnone _

theorem close_not_mem_watchEntries (e : Execution) (fds : List Fd) :
    Effect.close fds ∉ e.watchEntries := by
  intro hmem
  obtain ⟨s, -, hs⟩ := List.mem_filterMap.mp hmem
  obtain ⟨pid, -, hentry⟩ := Option.map_eq_some_iff.mp hs
  cases hentry

theorem close_not_mem_start (e : Execution) (s : StageRun) (pid : Pid) (fds : List Fd) :
    Effect.close fds ∉ (e.start s pid).2 := by
  simp only [start]
  split <;> simp [close_not_mem_watchEntries, transition]

theorem closings_of_giveUp (e : Execution) (failure : Failure) :
    ∃ others, (e.giveUp failure).2
        = (e.closedWith (.failedToStart failure)).map .close ++ others
      ∧ ∀ fds, .close fds ∉ others := by
  simp only [giveUp, closedWith, List.map_map]
  split
  · refine ⟨_, List.append_assoc .., fun fds => ?_⟩
    simp [close_not_mem_watchEntries]
  · refine ⟨_, rfl, fun fds => ?_⟩
    split <;> simp

theorem close_not_mem_pass (h : e.pass = some (e', effects)) (fds : List Fd) :
    .close fds ∉ effects := by
  unfold pass at h
  cases hphase : e.phase <;> simp only [hphase] at h <;> try cases h
  case waitingForeground | runningBackground => simp [transition]
  case terminating failure | killing failure => cases e.foreground <;> simp

/-- What is taken from the stages is closed, before there is any other
effect. -/
theorem closings_of_step (h : e.step event = some (e', effects)) :
    ∃ others, effects = (e.closedWith event).map .close ++ others
      ∧ ∀ fds, .close fds ∉ others := by
  cases fires_of_step h with
  | started _ _ => exact ⟨_, rfl, fun fds => close_not_mem_start _ _ _ fds⟩
  | failedToStart _ _ => exact closings_of_giveUp ..
  | @waited index s pid result _ _ _ =>
      refine ⟨_, rfl, fun fds => ?_⟩
      cases result <;> simp [reap]
  | released hs _ => exact ⟨_, by rw [closedWith, hs]; rfl, fun fds => by simp⟩
  | arrived _ _ => exact ⟨[], rfl, fun _ => List.not_mem_nil⟩
  | graceExpired _ _ _ => exact ⟨_, rfl, fun fds => by simp⟩
  | passedBarrier _ hpass => exact ⟨effects, rfl, close_not_mem_pass hpass⟩
  | noticeTaken _ => exact ⟨_, rfl, fun fds => by simp [transition]⟩

/-- Whose descriptors an event closes: those of the stage that is done, or of
one that was never started. -/
theorem owner_of_closedWith {total : Nat} {pids : List Pid} {fds : List Fd}
    (harranged : e.Arranged total pids) (h : Move e event e') (hfds : fds ∈ e.closedWith event) :
    ∃ i s, e.stages[i]? = some s ∧ fds = s.prepared.fds
      ∧ ((event = .released i ∧ i < pids.length ∧ ∃ pid reason, s.progress = .reaped pid reason)
        ∨ (∃ failure, event = .failedToStart failure) ∧ pids.length ≤ i) := by
  cases h with
  | @released index s pid reason hs hprogress =>
      rw [closedWith, hs] at hfds
      obtain rfl := List.mem_singleton.mp hfds
      refine ⟨index, s, hs, rfl, Or.inl ⟨rfl, ?_, pid, reason, hprogress⟩⟩
      rw [harranged.lt_length_iff hs, hprogress]
      rfl
  | @gaveUp next failure hphase hnext =>
      obtain ⟨s, hs, rfl⟩ := List.mem_map.mp hfds
      obtain ⟨hmem, hwaiting⟩ := List.mem_filter.mp hs
      obtain ⟨i, hget⟩ := List.getElem?_of_mem hmem
      exact ⟨i, s, hget, rfl, Or.inr ⟨⟨failure, rfl⟩,
        Nat.not_lt.mp (harranged.not_lt_of_waiting hget (of_decide_eq_true hwaiting))⟩⟩
  | _ => cases hfds

end Execution

end JobShell
