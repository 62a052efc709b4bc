import JobShell.Proofs.Accounting
import JobShell.Proofs.Histories
import JobShell.Proofs.Wiring
import JobShell.Supervisor

/-!
# When the descriptors of a job are closed

Closing a descriptor late would keep another stage waiting for the end of its
input, and closing it early would take it from a stage that was not started
yet. `tidy_of_buildJob` goes along every history of every job, next to the
ledger that the build left: whichever stage can not be started and in whatever
order the others end, each descriptor is closed once and at the right moment,
and none is left when the job is over.

What is closed with an event is known (`closings_of_step`); that the moment is
the right one follows from what the events so far say about the stages
(`Execution.Recorded`), and both are kept together in `Execution.Balanced`.
-/

namespace JobShell

open Machine (NodeId Pid Slots Tree)

namespace Execution

variable {e e' : Execution} {event : Event} {effects : List Effect} {job : Job}

/-! ## Moments -/

/-- What holds right before an act of a job. So far `front` has happened, and
`built` is the ledger that the build left. -/
structure Moment (job : Job) (built : Ledger) (front : List Act) (act : Act) : Prop where
  /-- The descriptors of a stage that was started are closed when the wait for
  its process has returned and the stage has not arrived. Those of the others
  are closed when a stage could not be started. -/
  closing : ∀ fds i s fd, act = .closing fds → job.stages[i]? = some s → fd ∈ s.fds → fd ∈ fds →
    if i < begun front then
      (∃ result, .event (.waited i result) ∈ front) ∧ .event (.arrived i) ∉ front
    else ∃ failure, .event (.failedToStart failure) ∈ front
  /-- A stage arrives when its descriptors are closed. -/
  arriving : ∀ i s, act = .event (.arrived i) → job.stages[i]? = some s →
    ∃ l, built.recordAll front = some l ∧ ∀ fd ∈ s.fds, fd ∈ l.closed
  /-- The notice is posted when everything is closed. -/
  posting : ∀ notice, act = .effect (.post notice) →
    ∃ l, built.recordAll front = some l ∧ l.held = []
  /-- The group is signalled only because a stage could not be started. -/
  signalling : ∀ group signal, act = .effect (.signalGroup group signal) →
    ∃ failure, .event (.failedToStart failure) ∈ front
  /-- When a stage could not be started, nothing at all - no signal, no wait -
  comes before the descriptors of the stages that were never started are
  closed. -/
  aborting : ∀ failure, .event (.failedToStart failure) ∈ front →
    (∀ fds, act ≠ .closing fds) →
    ∃ l, built.recordAll front = some l
      ∧ ∀ i s, begun front ≤ i → job.stages[i]? = some s → ∀ fd ∈ s.fds, fd ∈ l.closed

/-- What the acts so far say about a job in execution and its ledger. -/
structure Balanced (job : Job) (built : Ledger) (acts : List Act) (e : Execution) : Prop where
  prepared : e.stages.map StageRun.prepared = job.stages
  arranged : e.Arranged job.stages.length (starts (eventsOf acts))
  recorded : e.Recorded job.stages.length (eventsOf acts)
  failed : ∀ failure, .event (.failedToStart failure) ∈ acts → e.phase ≠ .starting
  lists : ∃ l, built.recordAll acts = some l ∧ l.Lists e.held e.shed

theorem Move.phase_ne_starting (h : Move e event e') (hbefore : e.phase ≠ .starting) :
    e'.phase ≠ .starting := by
  cases h with
  | started hphase _ _ | startedLast hphase _ _ | gaveUp hphase _ => exact (hbefore hphase).elim
  | waited _ _ _ | released _ _ | arrived _ _ => exact hbefore
  | killed _ _ | noticed _ => nofun
  | passed _ hafter =>
      intro hstarting
      cases hphase : e.phase <;> rw [hphase] at hafter <;> cases hafter <;> cases hstarting

theorem Move.phase_ne_starting_of_failed {failure : Failure}
    (h : Move e (.failedToStart failure) e') : e'.phase ≠ .starting := by
  cases h with
  | gaveUp _ _ =>
      dsimp only
      split <;> nofun

end Execution

/-- Two stages do not share a descriptor. -/
theorem PreparedStage.eq_of_mem_fds {stages : List PreparedStage} {i j : Nat}
    {s t : PreparedStage} {fd : Fd} (hnodup : (stages.flatMap fds).Nodup)
    (hi : stages[i]? = some s) (hj : stages[j]? = some t) (hs : fd ∈ s.fds) (ht : fd ∈ t.fds) :
    i = j := by
  obtain ⟨hlti, rfl⟩ := List.getElem?_eq_some_iff.mp hi
  obtain ⟨hltj, rfl⟩ := List.getElem?_eq_some_iff.mp hj
  have happart := (List.nodup_flatMap.mp hnodup).2
  rcases Nat.lt_trichotomy i j with hlt | heq | hlt
  · exact (List.pairwise_iff_getElem.mp happart i j hlti hltj hlt hs ht).elim
  · exact heq
  · exact (List.pairwise_iff_getElem.mp happart j i hltj hlti hlt ht hs).elim

namespace Execution

variable {e e' : Execution} {event : Event} {effects : List Effect} {job : Job} {built : Ledger}
  {acts : List Act}

namespace Balanced

theorem stage {i : Nat} {s : PreparedStage} (h : e.Balanced job built acts)
    (hs : job.stages[i]? = some s) : ∃ t, e.stages[i]? = some t ∧ t.prepared = s := by
  rw [← h.prepared, List.getElem?_map] at hs
  exact Option.map_eq_some_iff.mp hs

theorem prepared_stage {i : Nat} {t : StageRun} (h : e.Balanced job built acts)
    (ht : e.stages[i]? = some t) : job.stages[i]? = some t.prepared := by
  rw [← h.prepared, List.getElem?_map, ht]
  rfl

/-- The descriptors of a stage that holds none are closed. -/
theorem closed {l : Ledger} {i : Nat} {t : StageRun} (hl : l.Lists e.held e.shed)
    (ht : e.stages[i]? = some t) (hnot : t.progress.isHolding = false) :
    ∀ fd ∈ t.prepared.fds, fd ∈ l.closed := by
  intro fd hfd
  refine hl.closed.mem_iff.mpr (mem_fdsWhere ht ?_ hfd)
  rw [hnot]
  rfl

/-- Once a stage could not be started, the descriptors of those that were
never started are closed. -/
theorem closed_of_failed {l : Ledger} {failure : Failure} (h : e.Balanced job built acts)
    (hl : l.Lists e.held e.shed) (hfailed : .event (.failedToStart failure) ∈ acts) :
    ∀ i s, begun acts ≤ i → job.stages[i]? = some s → ∀ fd ∈ s.fds, fd ∈ l.closed := by
  intro i s hle hs
  obtain ⟨t, ht, rfl⟩ := h.stage hs
  refine closed hl ht ?_
  rw [h.arranged.idle i t ht hle, Phase.idle_of_ne_starting (h.failed failure hfailed)]
  rfl

/-- When the barrier is open no descriptor is held. -/
theorem held_eq_nil (h : e.Balanced job built acts) (hzero : e.barrier.remaining = 0) :
    e.held = [] := by
  rw [h.recorded.remaining, pending, tally, List.countP_eq_zero] at hzero
  refine List.flatMap_eq_nil_iff.mpr fun s hs => if_neg fun hholding => hzero s hs ?_
  cases hprogress : s.progress <;> rw [hprogress] at hholding <;> first | rfl | cases hholding

/-- What an event and its closings do to the ledger. -/
theorem exists_recordAll (h : e.Balanced job built acts) (hmove : Move e event e') :
    ∃ l, built.recordAll (acts ++ .event event :: (e.closedWith event).map .closing) = some l
      ∧ l.Lists e'.held e'.shed := by
  obtain ⟨l, hrecord, hl⟩ := h.lists
  obtain ⟨l', hcloses, hl'⟩ := (hl.perm (hmove.held h.arranged) (.refl _)).closeEach
  refine ⟨l', ?_, hl'.perm (.refl _) (hmove.shed h.arranged).symm⟩
  rw [Ledger.recordAll_trans hrecord]
  exact hcloses

theorem step (h : e.Balanced job built acts) (hstep : e.step event = some (e', effects)) :
    e'.Balanced job built (acts ++ event.acts effects) := by
  have hmove := move_of_step hstep
  obtain ⟨others, rfl, hothers⟩ := closings_of_step hstep
  obtain ⟨l, hrecord, hl⟩ := h.exists_recordAll hmove
  have hevents : eventsOf (acts ++ event.acts ((e.closedWith event).map .close ++ others))
      = eventsOf acts ++ [event] := by
    rw [eventsOf_append, eventsOf_acts]
  exact
    { prepared := hmove.prepared.trans h.prepared
      arranged := by
        rw [hevents, starts_concat]
        exact h.arranged.move hmove
      recorded := by
        rw [hevents]
        exact h.recorded.move h.arranged hmove
      failed := fun failure hmem => by
        rw [← mem_eventsOf_iff, hevents, List.mem_append, mem_eventsOf_iff,
          List.mem_singleton] at hmem
        rcases hmem with hmem | rfl
        · exact hmove.phase_ne_starting (h.failed failure hmem)
        · exact hmove.phase_ne_starting_of_failed
      lists := by
        refine ⟨l, ?_, hl⟩
        have hacts : event.acts ((e.closedWith event).map .close ++ others)
            = .event event :: (e.closedWith event).map .closing ++ others.map .effect := by
          rw [Event.acts, List.map_append, List.map_map]
          rfl
        rw [hacts, ← List.append_assoc, Ledger.recordAll_trans hrecord]
        refine Ledger.recordAll_of_quiet fun act hact => ?_
        obtain ⟨effect, hmem, rfl⟩ := List.mem_map.mp hact
        exact ⟨effect, rfl, fun fds hclose => hothers fds (hclose ▸ hmem)⟩ }

/-- The descriptors that an event closes are those of a stage whose process was
waited for and that has not arrived, or of one that was never started. -/
theorem closing_of_step {before : List Act} {fds : List Fd} {i : Nat} {s : PreparedStage} {fd : Fd}
    (h : e.Balanced job built acts) (hnodup : (job.stages.flatMap PreparedStage.fds).Nodup)
    (hmove : Move e event e') (hbefore : eventsOf before = []) (hfds : fds ∈ e.closedWith event)
    (hs : job.stages[i]? = some s) (hfd : fd ∈ s.fds) (hmem : fd ∈ fds) :
    if i < begun (acts ++ .event event :: before) then
      (∃ result, .event (.waited i result) ∈ acts ++ .event event :: before)
        ∧ .event (.arrived i) ∉ acts ++ .event event :: before
    else ∃ failure, .event (.failedToStart failure) ∈ acts ++ .event event :: before := by
  have hevents : eventsOf (acts ++ .event event :: before) = eventsOf acts ++ [event] := by
    rw [eventsOf_append, eventsOf_cons_event, hbefore]
  simp only [← mem_eventsOf_iff, begun, hevents, starts_concat]
  obtain ⟨j, t, ht, rfl, hcase⟩ := owner_of_closedWith h.arranged hmove hfds
  obtain rfl : i = j := PreparedStage.eq_of_mem_fds hnodup hs (h.prepared_stage ht) hfd hmem
  rcases hcase with ⟨rfl, hlt, pid, reason, hprogress⟩ | ⟨⟨failure, rfl⟩, hle⟩
  · rw [if_pos (by rw [List.length_append]; omega)]
    constructor
    · obtain ⟨result, hwaited, -⟩ := h.recorded.outcome i t reason ht (by rw [hprogress]; rfl)
      exact ⟨result, List.mem_append_left _ hwaited⟩
    · intro harrived
      rcases List.mem_append.mp harrived with harrived | harrived
      · have hbarrier : i ∈ arrivals (eventsOf acts) :=
          List.mem_filterMap.mpr ⟨_, harrived, rfl⟩
        obtain ⟨t', ht', hisArrived⟩ := (h.recorded.arrived i).mp hbarrier
        obtain rfl := Option.some.inj (ht.symm.trans ht')
        rw [hprogress] at hisArrived
        cases hisArrived
      · cases List.mem_singleton.mp harrived
  · rw [if_neg]
    · exact ⟨failure, List.mem_append_right _ (List.mem_singleton_self _)⟩
    · simpa [Event.start?] using hle

/-- A notice is posted when no descriptor is held any more. -/
theorem held_eq_nil_of_post {notice : String} (h : e.Balanced job built acts)
    (hstep : e.step event = some (e', effects)) (hmem : .post notice ∈ effects) :
    e'.held = [] := by
  have hout : Effect.post notice ∈ e.outwardWith event :=
    outward_of_step hstep ▸ List.mem_filter.mpr ⟨hmem, rfl⟩
  have hafter := h.step hstep
  cases move_of_step hstep with
  | passed hopen _ => exact hafter.held_eq_nil (of_decide_eq_true hopen)
  | gaveUp _ _ =>
      simp only [outwardWith] at hout
      split at hout
      · simp at hout
      · split at hout <;> simp at hout
  | killed _ _ => simp [outwardWith] at hout
  | started _ _ _ | startedLast _ _ _ | waited _ _ _ | released _ _ | arrived _ _ | noticed _ =>
      exact (List.not_mem_nil hout).elim

/-- The group is signalled because a stage could not be started. -/
theorem failed_of_signal {group : Pid} {signal : Signal} (h : e.Balanced job built acts)
    (hstep : e.step event = some (e', effects)) (hmem : .signalGroup group signal ∈ effects) :
    ∃ failure, .failedToStart failure ∈ eventsOf acts ++ [event] := by
  have hout : Effect.signalGroup group signal ∈ e.outwardWith event :=
    outward_of_step hstep ▸ List.mem_filter.mpr ⟨hmem, rfl⟩
  cases move_of_step hstep with
  | @gaveUp s failure _ _ => exact ⟨failure, by simp⟩
  | @killed failure hphase _ =>
      have hfailed := h.recorded.failure failure (by rw [hphase]; rfl)
      exact ⟨failure, List.mem_append_left _ hfailed⟩
  | passed _ _ =>
      simp only [outwardWith] at hout
      split at hout
      · simp at hout
      · simp at hout
      · split at hout <;> simp at hout
      · split at hout <;> simp at hout
      · simp at hout
  | started _ _ _ | startedLast _ _ _ | waited _ _ _ | released _ _ | arrived _ _ | noticed _ =>
      exact (List.not_mem_nil hout).elim

/-- Right before an event. -/
theorem moment_of_event (h : e.Balanced job built acts)
    (hmove : Move e event e') : Moment job built acts (.event event) := by
  obtain ⟨l, hrecord, hl⟩ := h.lists
  exact
    { closing := nofun
      arriving := fun i s harrived hs => by
        obtain rfl := Act.event.inj harrived
        obtain ⟨t, ht, rfl⟩ := h.stage hs
        refine ⟨l, hrecord, closed hl ht ?_⟩
        cases hmove with
        | arrived ht' hprogress =>
            obtain rfl := Option.some.inj (ht.symm.trans ht')
            rw [hprogress]
            rfl
      posting := nofun
      signalling := nofun
      aborting := fun failure hfailed _ => ⟨l, hrecord, h.closed_of_failed hl hfailed⟩ }

/-- Right before one of the closings of an event. -/
theorem moment_of_closing {before : List Act} {fds : List Fd} (h : e.Balanced job built acts)
    (hnodup : (job.stages.flatMap PreparedStage.fds).Nodup) (hmove : Move e event e')
    (hbefore : eventsOf before = []) (hfds : fds ∈ e.closedWith event) :
    Moment job built (acts ++ .event event :: before) (.closing fds) where
  closing fds' i s fd hclosing hs hfd hmem := by
    obtain rfl := Effect.close.inj (Act.effect.inj hclosing)
    exact h.closing_of_step hnodup hmove hbefore hfds hs hfd hmem
  arriving := nofun
  posting := nofun
  signalling := nofun
  aborting _ _ hnot := (hnot fds rfl).elim

/-- Right before one of the effects behind the closings of an event. -/
theorem moment_of_other {others : List Effect} {part : List Act} {other : Effect}
    (h : e.Balanced job built acts)
    (hstep : e.step event = some (e', (e.closedWith event).map .close ++ others))
    (hothers : ∀ fds, .close fds ∉ others) (hother : other ∈ others)
    (hpart : ∀ before ∈ part, ∃ effect, before = .effect effect ∧ effect ∈ others) :
    Moment job built (acts ++ .event event :: ((e.closedWith event).map .closing ++ part))
      (.effect other) := by
  obtain ⟨l, hcloses, hl⟩ := h.exists_recordAll (move_of_step hstep)
  have hafter := h.step hstep
  have hmem : other ∈ (e.closedWith event).map .close ++ others := List.mem_append_right _ hother
  have hnone : eventsOf part = [] := eventsOf_eq_nil fun act hact =>
    (hpart act hact).imp fun _ heffect => heffect.1
  -- Nothing happens to the job any more, and nothing is closed.
  have hevents : eventsOf (acts ++ .event event :: ((e.closedWith event).map .closing ++ part))
      = eventsOf (acts ++ event.acts ((e.closedWith event).map .close ++ others)) := by
    rw [eventsOf_append, eventsOf_append, eventsOf_acts, eventsOf_cons_event, eventsOf_append,
      eventsOf_closings, hnone, List.nil_append]
  have hrecord : built.recordAll
      (acts ++ .event event :: ((e.closedWith event).map .closing ++ part)) = some l := by
    rw [← List.cons_append, ← List.append_assoc, Ledger.recordAll_trans hcloses]
    refine Ledger.recordAll_of_quiet fun act hact => ?_
    obtain ⟨effect, rfl, heffect⟩ := hpart act hact
    exact ⟨effect, rfl, fun fds hclose => hothers fds (hclose ▸ heffect)⟩
  exact
    { closing := fun fds i s fd hclosing _ _ _ => by
        obtain rfl := Act.effect.inj hclosing
        exact (hothers fds hother).elim
      arriving := nofun
      posting := fun notice hpost => by
        obtain rfl := Act.effect.inj hpost
        have hempty := h.held_eq_nil_of_post hstep hmem
        exact ⟨l, hrecord, (hempty ▸ hl.held).eq_nil⟩
      signalling := fun group signal hsignal => by
        obtain rfl := Act.effect.inj hsignal
        simp only [← mem_eventsOf_iff, hevents, eventsOf_append, eventsOf_acts]
        exact h.failed_of_signal hstep hmem
      aborting := fun failure hfailed _ => by
        rw [← mem_eventsOf_iff, hevents, mem_eventsOf_iff] at hfailed
        rw [begun, hevents]
        exact ⟨l, hrecord, hafter.closed_of_failed hl hfailed⟩ }

/-- An event and its effects are acts at their moments. -/
theorem moment_of_step {front back : List Act} {act : Act} (h : e.Balanced job built acts)
    (hnodup : (job.stages.flatMap PreparedStage.fds).Nodup)
    (hstep : e.step event = some (e', effects))
    (hcut : event.acts effects = front ++ act :: back) :
    Moment job built (acts ++ front) act := by
  have hmove := move_of_step hstep
  obtain ⟨others, rfl, hothers⟩ := closings_of_step hstep
  rcases cut_of_acts hcut with ⟨rfl, rfl⟩ | ⟨before, fds, rfl, hbefore, rfl, hfds⟩
    | ⟨part, other, rfl, rfl, hother, hpart⟩
  · rw [List.append_nil]
    exact h.moment_of_event hmove
  · exact h.moment_of_closing hnodup hmove hbefore hfds
  · exact h.moment_of_other hstep hothers hother hpart

theorem ofJob (hjob : job.Numbered) (hne : job.stages ≠ []) (callerGroup : Pid)
    (hbuilt : built.Lists (job.stages.flatMap PreparedStage.fds) []) :
    (ofJob job callerGroup).Balanced job built [] where
  prepared := by
    rw [Execution.ofJob, List.map_map]
    exact List.map_id _
  arranged := arranged_ofJob hjob hne callerGroup
  recorded := recorded_ofJob job callerGroup
  failed _ hmem := (List.not_mem_nil hmem).elim
  lists := by
    have hheld : (Execution.ofJob job callerGroup).held = job.stages.flatMap PreparedStage.fds := by
      rw [Execution.held, fdsWhere, Execution.ofJob, List.flatMap_map]
      rfl
    have hshed : (Execution.ofJob job callerGroup).shed = [] := by
      rw [Execution.shed, fdsWhere, Execution.ofJob, List.flatMap_map]
      exact List.flatMap_eq_nil_iff.mpr fun _ _ => rfl
    exact ⟨built, rfl, hheld ▸ hshed ▸ hbuilt⟩

end Balanced

theorem History.balanced {callerGroup : Pid} (h : History (ofJob job callerGroup) acts e)
    (hjob : job.Numbered) (hne : job.stages ≠ [])
    (hbuilt : built.Lists (job.stages.flatMap PreparedStage.fds) []) :
    e.Balanced job built acts := by
  induction h with
  | start => exact .ofJob hjob hne callerGroup hbuilt
  | step _ hstep ih => exact ih.step hstep

theorem History.moment {callerGroup : Pid} {front back : List Act} {act : Act}
    (h : History (ofJob job callerGroup) acts e) (hjob : job.Numbered) (hne : job.stages ≠ [])
    (hbuilt : built.Lists (job.stages.flatMap PreparedStage.fds) [])
    (hcut : acts = front ++ act :: back) : Moment job built front act := by
  induction h generalizing front back with
  | start => exact (List.append_ne_nil_of_right_ne_nil _ (List.cons_ne_nil _ _) hcut.symm).elim
  | step hhistory hstep ih =>
      rcases before_of_append hcut with ⟨rest, hbefore⟩ | ⟨part, rfl, hpart⟩
      · exact ih hbefore
      · have hbalanced := hhistory.balanced hjob hne hbuilt
        have hnodup := hbuilt.nodup
        rw [List.append_nil] at hnodup
        exact hbalanced.moment_of_step hnodup hstep hpart

/-! ## The descriptors of the shell -/

/-- What is not held any more was held, and nothing else is known of. -/
theorem held_append_shed (e : Execution) :
    (e.held ++ e.shed).Perm ((e.stages.map StageRun.prepared).flatMap PreparedStage.fds) := by
  refine List.perm_iff_count.mpr fun fd => ?_
  rw [held, shed, fdsWhere, fdsWhere]
  induction e.stages with
  | nil => rfl
  | cons s rest ih =>
      cases h : s.progress.isHolding <;> simp [h] at ih ⊢ <;> omega

end Execution

namespace Supervisor

/-- An effect does to the descriptors of the shell what the ledger says. -/
theorem tells_perform {before : Slots} {l l' : Ledger} {s : Supervisor} {effect : Effect}
    (htells : l.Tells before s.host.shell.slots) (hrecord : l.record (.effect effect) = some l') :
    l'.Tells before (s.perform effect).host.shell.slots := by
  cases effect with
  | close fds => exact htells.closed hrecord (Host.getElem?_closeAll s.host fds)
  | log level message =>
      obtain rfl := Option.some.inj hrecord
      simpa only [perform, (Host.writes_log s.host level message).shell] using htells
  | signalGroup group signal =>
      obtain rfl := Option.some.inj hrecord
      simp only [perform]
      split
      · exact htells
      · simpa only [(Host.writes_log s.host _ _).shell] using htells
  | giveTerminal group =>
      obtain rfl := Option.some.inj hrecord
      simp only [perform, TerminalController.handTo]
      split
      · simpa only [(Host.writes_log s.host _ _).shell] using htells
      · exact htells
  | post notice =>
      obtain rfl := Option.some.inj hrecord
      exact htells

theorem tells_foldl_perform {before : Slots} {l l' : Ledger} {s : Supervisor} {acts : List Act}
    (hacts : ∀ fd, .opened fd ∉ acts) (htells : l.Tells before s.host.shell.slots)
    (hrecord : l.recordAll acts = some l') :
    l'.Tells before ((effectsOf acts).foldl perform s).host.shell.slots := by
  induction acts generalizing l s with
  | nil =>
      obtain rfl := Option.some.inj hrecord
      exact htells
  | cons act rest ih =>
      obtain ⟨l₁, hfirst, hrest⟩ := Option.bind_eq_some_iff.mp hrecord
      have hothers : ∀ fd, .opened fd ∉ rest := fun fd hmem =>
        hacts fd (List.mem_cons_of_mem _ hmem)
      cases act with
      | opened fd => exact (hacts fd (List.mem_cons_self ..)).elim
      | event event =>
          obtain rfl := Option.some.inj hfirst
          exact ih hothers htells hrest
      | effect effect => exact ih hothers (tells_perform htells hfirst) hrest

end Supervisor

namespace Execution

theorem History.not_opened {start e : Execution} {acts : List Act} (h : History start acts e)
    (fd : Fd) : .opened fd ∉ acts := by
  induction h with
  | start => exact List.not_mem_nil
  | step _ _ ih =>
      rw [List.mem_append, not_or]
      refine ⟨ih, ?_⟩
      simp [Event.acts]

/-- What happened to a job so far, by its ledger `l` and the ledger `built`
that its build left. -/
structure Tidy (job : Job) (built : Ledger) (acts : List Act) (e : Execution) (l : Ledger) :
    Prop where
  /-- Nothing was closed that was not open. -/
  recorded : built.recordAll acts = some l
  /-- Every descriptor is open or was closed once. -/
  once : (l.held ++ l.closed).Perm built.held ∧ built.held.Nodup
  /-- The open ones are kept for stages that are not done. -/
  held : l.held.Perm e.held
  /-- Nothing is open when the job is over, or only its notice is left. -/
  ended : e.phase.isBehindBarrier = true → l.held = []
  /-- The descriptors of the shell are what the ledger says, if they were when
  the job began and nobody else changed them. -/
  told : ∀ (before : Slots) (s : Supervisor), built.Tells before s.host.shell.slots →
    l.Tells before ((effectsOf acts).foldl Supervisor.perform s).host.shell.slots
  /-- Each descriptor is closed at its moment. -/
  moment : ∀ front act back, acts = front ++ act :: back → Moment job built front act

theorem History.tidy {job : Job} {callerGroup : Pid} {acts : List Act} {e : Execution}
    {built : Ledger} (h : History (ofJob job callerGroup) acts e) (hjob : job.Numbered)
    (hne : job.stages ≠ []) (hbuilt : built.Lists (job.stages.flatMap PreparedStage.fds) []) :
    ∃ l, Tidy job built acts e l := by
  have hbalanced := h.balanced hjob hne hbuilt
  obtain ⟨l, hrecord, hl⟩ := hbalanced.lists
  have hall := e.held_append_shed
  rw [hbalanced.prepared] at hall
  have hnodup := hbuilt.nodup
  rw [List.append_nil] at hnodup
  exact ⟨l,
    { recorded := hrecord
      once := ⟨((hl.held.append hl.closed).trans hall).trans hbuilt.held.symm,
        hbuilt.held.nodup_iff.mpr hnodup⟩
      held := hl.held
      ended := fun hbehind => by
        have hnone := hbalanced.held_eq_nil (hbalanced.recorded.settled hbehind)
        exact (hnone ▸ hl.held).eq_nil
      told := fun _ _ htells => Supervisor.tells_foldl_perform h.not_opened htells hrecord
      moment := fun _ _ _ hcut => h.moment hjob hne hbuilt hcut }⟩

end Execution

/-- **No descriptor is lost, and none is closed too early.** What starting a
stage opens besides, it closes itself. -/
theorem Host.tidy_of_buildJob (h : Host) (directory : NodeId) (searchPath : Bytes)
    (p : Pipeline) :
    (∃ opening built, h.Handles directory opening (h.buildJob directory searchPath p).2
      ∧ Ledger.recordAll {} opening = some built
      ∧ built.Tells h.shell.slots (h.buildJob directory searchPath p).2.shell.slots
      ∧ match (h.buildJob directory searchPath p).1 with
        | .error _ => built.held = []
        | .ok job => built.held.Perm (job.stages.flatMap PreparedStage.fds) ∧ built.closed = []
          ∧ ∀ callerGroup acts e, Execution.History (.ofJob job callerGroup) acts e →
            ∃ l, Execution.Tidy job built acts e l)
      ∧ ∀ (g : Host) (r : StartRequest) (fd : Fd),
        (g.start directory r).2.shell.slots[fd]? = g.shell.slots[fd]? := by
  refine ⟨?_, fun g r fd => getElem?_start g directory r fd⟩
  obtain ⟨opening, built, hhandles, hrecord, hbooked⟩ :=
    h.books_of_buildJob directory searchPath p
  refine ⟨opening, built, hhandles, hrecord, hhandles.tells (.start _) hrecord, ?_⟩
  split
  · rename_i failure hresult
    rwa [hresult] at hbooked
  · rename_i job hresult
    have hjob := builtFrom_of_buildJob hresult
    rw [hresult] at hbooked
    exact ⟨hbooked.held, hbooked.closed.eq_nil,
      fun _ _ _ hhistory => hhistory.tidy hjob.numbered hjob.nonempty hbooked⟩

/-- The second of two stages can not be started: the first one was to write
its output to a file, so it also had an end of the pipe. -/
theorem Host.tidy_diverted : ∃ job built acts e l,
    (small.buildJob Tree.root [] .diverted).1 = .ok job
      ∧ Execution.History (.ofJob job 1) acts e ∧ e.phase = .failed .emptyPipeline
      ∧ Execution.Tidy job built acts e l ∧ l.held = [] ∧ l.closed.Perm [5, 4, 3] := by
  have hfds : (small.buildJob Tree.root [] .diverted).1.toOption.map
      (fun job => job.stages.map PreparedStage.fds) = some [[5, 4], [3]] := by cbv
  obtain ⟨job, hjob, hstages⟩ := Option.map_eq_some_iff.mp hfds
  have hresult := Except.eq_ok_of_toOption hjob
  have hbuilt := builtFrom_of_buildJob hresult
  obtain ⟨first, rest, hcons, hfirst, hrest⟩ := List.map_eq_cons_iff.mp hstages
  obtain ⟨second, _, rfl, hsecond, hnil⟩ := List.map_eq_cons_iff.mp hrest
  obtain rfl := List.map_eq_nil_iff.mp hnil
  have hindex : first.index = 0 := hbuilt.numbered 0 first (by rw [hcons]; rfl)
  have hrun : ∃ e effects, (Execution.ofJob job 1).run? [.started 7,
        .failedToStart .emptyPipeline, .waited 0 (.error .noChild), .released 0, .arrived 0,
        .passedBarrier] = some (e, effects) ∧ e.phase = .failed .emptyPipeline := by
    obtain ⟨stages, foreground, pipes, description⟩ := job
    obtain ⟨index, path, stage, stdin, stdout, table⟩ := first
    subst hindex hcons
    exact ⟨_, _, rfl, rfl⟩
  obtain ⟨e, effects, hrun, hphase⟩ := hrun
  obtain ⟨acts, hhistory, -⟩ := Execution.History.start.run? hrun
  obtain ⟨opening, built, -, -, -, htidy⟩ :=
    (tidy_of_buildJob small Tree.root [] .diverted).1
  rw [hresult] at htidy
  obtain ⟨hheld, -, hall⟩ := htidy
  obtain ⟨l, hl⟩ := hall 1 _ _ hhistory
  have hended := hl.ended (by rw [hphase]; rfl)
  refine ⟨job, built, _, e, l, hresult, hhistory, hphase, hl, hended, ?_⟩
  have honce := hl.once.1
  rw [hended, List.nil_append] at honce
  rw [List.flatMap_def, hstages] at hheld
  exact honce.trans hheld

end JobShell
