import JobShell.NoticeQueue
import JobShell.Proofs.Accounting
import JobShell.Proofs.Effects
import Mathlib.Data.List.Nodup

/-!
# Notices of jobs in the background

A session launches jobs, their threads run side by side, and those in the
background leave a notice that may have to wait for room. `Traffic` is all of
it at one moment, `Traffic.Step` one step of any of the threads, and a
reachable state is one that any order of such steps leads to.

`orderly_of_reached` is what the session can rely on: a notice comes from a
job in the background all of whose stages were waited for, a job leaves one
notice at most and has left it when it is done, and as long as the session
listens every notice that was posted is in one place, printed, pending or
with its poster.

The jobs enter with `Execution.Run`, so what holds after every run of a job
holds here; which step posts is said once (`posts_of_step`). That sessions
keep to these steps is shown in `Supervision`.
-/

namespace JobShell

open Machine (Pid NodeId)

/-! ## What a job posts -/

/-- The notice that an effect posts. -/
def Effect.post? : Effect → Option String
  | post notice => some notice
  | _ => none

/-- The notices that are posted. -/
def posts (effects : List Effect) : List String := effects.filterMap Effect.post?

@[simp] theorem posts_nil : posts [] = [] := rfl

@[simp] theorem posts_cons (effect : Effect) (rest : List Effect) :
    posts (effect :: rest) = effect.post?.toList ++ posts rest := by
  cases effect <;> rfl

/-- Only effects outside of the job post. -/
theorem posts_outward (effects : List Effect) : posts (outward effects) = posts effects := by
  rw [posts, outward, List.filterMap_filter]
  refine List.filterMap_congr fun effect _ => ?_
  cases effect <;> rfl

namespace Phase

/-- Whether the job went into the background. -/
def isBackground : Phase → Bool
  | runningBackground | posting | doneBackground => true
  | starting | waitingForeground | terminating _ | killing _ | doneForeground | failed _ => false

theorem side?_of_isBackground {phase : Phase} (h : phase.isBackground = true) :
    phase.side? = some false := by
  cases phase <;> first | rfl | cases h

/-- Whether the notice of the job was posted. -/
def hasPosted : Phase → Bool
  | posting | doneBackground => true
  | starting | waitingForeground | runningBackground | terminating _ | killing _
  | doneForeground | failed _ => false

end Phase

namespace Execution

/-- What a job posts with an event. -/
def postsWith (e : Execution) : Event → List String
  | .passedBarrier => if e.phase = .runningBackground then [e.notice] else []
  | _ => []

theorem posts_of_step {e e' : Execution} {event : Event} {effects : List Effect}
    (h : e.step event = some (e', effects)) : posts effects = e.postsWith event := by
  rw [← posts_outward, outward_of_step h]
  cases event with
  | failedToStart failure =>
      rw [outwardWith]
      cases e.group? with
      | some group => rfl
      | none => cases e.foreground <;> rfl
  | graceExpired =>
      rw [outwardWith]
      cases e.group? <;> rfl
  | passedBarrier =>
      rw [outwardWith, postsWith]
      cases e.phase with
      | terminating failure | killing failure => cases e.foreground <;> rfl
      | _ => rfl
  | _ => rfl

theorem mem_postsWith_iff {e : Execution} {event : Event} {notice : String} :
    notice ∈ e.postsWith event
      ↔ event = .passedBarrier ∧ e.phase = .runningBackground ∧ notice = e.notice := by
  cases event <;> simp [postsWith]

/-- A job has posted after a step if it had before or posts with it. -/
theorem Move.hasPosted_iff {e e' : Execution} {event : Event} (h : Move e event e') :
    e'.phase.hasPosted = true ↔ e.phase.hasPosted = true ∨ e.postsWith event ≠ [] := by
  cases h with
  | started _ _ _ | waited _ _ _ | released _ _ | arrived _ _ => simp [postsWith, setProgress]
  | startedLast hphase _ _ =>
      rw [hphase]
      dsimp only
      split <;> simp [postsWith, Phase.hasPosted]
  | gaveUp hphase _ =>
      rw [hphase]
      dsimp only
      split <;> simp [postsWith, Phase.hasPosted]
  | killed hphase _ | noticed hphase => simp [hphase, postsWith, Phase.hasPosted]
  | passed _ hafter =>
      cases hphase : e.phase <;> rw [hphase] at hafter <;> cases hafter <;>
        simp [hphase, postsWith, Phase.hasPosted]

theorem phase_of_postsWith {e : Execution} {event : Event} (h : e.postsWith event ≠ []) :
    e.phase = .runningBackground := by
  obtain ⟨notice, hmem⟩ := List.exists_mem_of_ne_nil _ h
  exact (mem_postsWith_iff.mp hmem).2.1

theorem Move.posting {e e' : Execution} {event : Event} (h : Move e event e')
    (hphase : e.phase = .posting) : e'.phase = .posting ∨ event = .noticeTaken := by
  cases h with
  | started hstarting _ _ | startedLast hstarting _ _ | gaveUp hstarting _ =>
      rw [hphase] at hstarting
      cases hstarting
  | waited _ _ _ | released _ _ | arrived _ _ => exact Or.inl hphase
  | killed hterminating _ =>
      rw [hphase] at hterminating
      cases hterminating
  | passed _ hafter =>
      rw [hphase] at hafter
      cases hafter
  | noticed _ => exact Or.inr rfl

theorem Move.posting_of_postsWith {e e' : Execution} {event : Event} (h : Move e event e')
    (hposts : e.postsWith event ≠ []) : e'.phase = .posting := by
  have hphase := phase_of_postsWith hposts
  cases h with
  | passed _ hafter =>
      rw [hphase] at hafter
      exact (Option.some.inj hafter).symm
  | _ => exact (hposts rfl).elim

theorem Move.notice {e e' : Execution} {event : Event} (h : Move e event e') :
    e'.notice = e.notice :=
  congrArg ("Done. " ++ ·) h.constant.description

end Execution

/-! ## Sessions with many jobs -/

/-- A job that a session has launched, and what has happened to it. -/
structure Launch where
  pipeline : Pipeline
  execution : Execution
  events : List Event := []

/-- The launch has gone through a run of the job that was built. -/
def Launch.Genuine (l : Launch) : Prop :=
  ∃ job callerGroup effects, Job.BuiltFrom l.pipeline job
    ∧ Execution.Run (.ofJob job callerGroup) l.events effects l.execution

/-- A notice and the number of the job that posted it. -/
structure Message where
  owner : Nat
  text : String
  deriving DecidableEq

/-- The jobs of a session and the notices they have posted. -/
structure Traffic where
  capacity : Nat
  /-- Whether the session still takes notices. -/
  listening : Bool := true
  launches : List Launch := []
  /-- All notices, in the order in which they were posted. -/
  posted : List Message := []
  /-- The notices whose posters wait for room. -/
  held : List Message := []
  pending : List Message := []
  printed : List Message := []

namespace Traffic

/-- The traffic after an event of one job. -/
def record (t : Traffic) (owner : Nat) (l : Launch) (event : Event) (e : Execution)
    (effects : List Effect) : Traffic :=
  let sent := (posts effects).map fun text => { owner, text }
  { t with
    launches := t.launches.set owner
      { l with execution := e, events := l.events ++ [event] }
    posted := t.posted ++ sent
    held := if t.listening then t.held ++ sent else t.held }

/-- One step of one of the threads. -/
inductive Step (t : Traffic) : Traffic → Prop
  /-- The job of a pipeline can not be built. -/
  | refused {h : Host} {directory : NodeId} {searchPath : Bytes} {p : Pipeline}
      {failure : Failure} (hbuild : (h.buildJob directory searchPath p).1 = .error failure) :
      Step t t
  | launched {p : Pipeline} {job : Job} (callerGroup : Pid) (hjob : job.BuiltFrom p) :
      Step t { t with launches := t.launches ++ [⟨p, .ofJob job callerGroup, []⟩] }
  /-- Something happens to a job. Whoever posts goes on when there was room. -/
  | acted {owner : Nat} {l : Launch} {event : Event} {e : Execution} {effects : List Effect}
      (hlaunch : t.launches[owner]? = some l) (hstep : l.execution.step event = some (e, effects))
      (hfree : event = .noticeTaken → ∀ m ∈ t.held, m.owner ≠ owner) :
      Step t (t.record owner l event e effects)
  /-- There is room for one of the notices that wait for it. -/
  | accepted {m : Message} (hheld : m ∈ t.held) (hroom : t.pending.length < t.capacity) :
      Step t { t with held := t.held.erase m, pending := t.pending ++ [m] }
  /-- The session takes the oldest notice. -/
  | received {m : Message} {rest : List Message} (hpending : t.pending = m :: rest) :
      Step t { t with pending := rest, printed := t.printed ++ [m] }
  /-- The session ends. -/
  | closed : Step t { t with listening := false, held := [], pending := [] }

/-- The states of a session whose queue has this capacity. -/
inductive Reached (capacity : Nat) : Traffic → Prop
  | start : Reached capacity { capacity }
  | step {t t' : Traffic} (hreached : Reached capacity t) (hstep : Step t t') :
      Reached capacity t'

end Traffic

/-! ## One launch -/

namespace Launch

variable {l : Launch}

theorem genuine_ofJob {p : Pipeline} {job : Job} (hjob : job.BuiltFrom p) (callerGroup : Pid) :
    Genuine ⟨p, .ofJob job callerGroup, []⟩ :=
  ⟨job, callerGroup, [], hjob, .start⟩

theorem Genuine.step (h : l.Genuine) {event : Event} {e : Execution} {effects : List Effect}
    (hstep : l.execution.step event = some (e, effects)) :
    Genuine { l with execution := e, events := l.events ++ [event] } := by
  obtain ⟨job, callerGroup, before, hjob, hrun⟩ := h
  exact ⟨job, callerGroup, before ++ effects, hjob, hrun.step hstep⟩

theorem Genuine.notice (h : l.Genuine) :
    l.execution.notice = "Done. " ++ l.pipeline.describe := by
  obtain ⟨job, callerGroup, effects, hjob, hrun⟩ := h
  rw [Execution.notice, hrun.constant.description, ← hjob.description]
  rfl

theorem Genuine.foreground (h : l.Genuine) (hphase : l.execution.phase.isBackground = true) :
    l.pipeline.foreground = false := by
  obtain ⟨job, callerGroup, effects, hjob, hrun⟩ := h
  rw [← hjob.foreground, ← hrun.sided rfl false (Phase.side?_of_isBackground hphase),
    hrun.constant.foreground]
  rfl

/-- Who has posted has waited for all stages. -/
theorem Genuine.awaited (h : l.Genuine) (hphase : l.execution.phase.hasPosted = true) :
    ∀ i < l.pipeline.stages.length, Execution.Awaited l.events l.execution i := by
  obtain ⟨job, callerGroup, effects, hjob, hrun⟩ := h
  rw [← hjob.length]
  refine ((Execution.accounted_of_run hjob.numbered hjob.nonempty hrun).succeeded ?_).2
  cases hcase : l.execution.phase <;> rw [hcase] at hphase <;> simp_all [Phase.hasPosted]

end Launch

namespace Traffic

/-! ## The invariant -/

/-- What holds in every state that is reached. -/
structure Sound (t : Traffic) : Prop where
  genuine : ∀ l ∈ t.launches, l.Genuine
  /-- Those who have posted are the owners of the notices. -/
  owners : ∀ owner, owner ∈ t.posted.map Message.owner
    ↔ ∃ l, t.launches[owner]? = some l ∧ l.execution.phase.hasPosted = true
  text : ∀ m ∈ t.posted, ∀ l, t.launches[m.owner]? = some l → m.text = l.execution.notice
  once : (t.posted.map Message.owner).Nodup
  held : ∀ m ∈ t.held, m ∈ t.posted
    ∧ ∃ l, t.launches[m.owner]? = some l ∧ l.execution.phase = .posting
  kept : t.listening = true → (t.printed ++ t.pending ++ t.held).Perm t.posted
  room : t.pending.length ≤ t.capacity

theorem sound_start (capacity : Nat) : Sound { capacity } where
  genuine := by simp
  owners := by simp
  text := by simp
  once := by simp
  held := by simp
  kept _ := .refl _
  room := Nat.zero_le _

theorem Sound.launched {t : Traffic} (h : t.Sound) {l : Launch} (hl : l.Genuine)
    (hposted : l.execution.phase.hasPosted = false) :
    Sound { t with launches := t.launches ++ [l] } := by
  have hold : ∀ {i : Nat} {k : Launch}, t.launches[i]? = some k →
      (t.launches ++ [l])[i]? = some k := by
    intro i k hk
    rwa [List.getElem?_append_left (List.getElem?_eq_some_iff.mp hk).1]
  have hnew : ∀ {i : Nat} {k : Launch}, (t.launches ++ [l])[i]? = some k →
      t.launches[i]? = some k ∨ k = l := by
    intro i k hk
    rw [List.getElem?_append] at hk
    split at hk
    · exact Or.inl hk
    · exact Or.inr (List.mem_singleton.mp (List.mem_of_getElem? hk))
  have howners : ∀ owner, owner ∈ t.posted.map Message.owner
      ↔ ∃ k, (t.launches ++ [l])[owner]? = some k ∧ k.execution.phase.hasPosted = true := by
    intro owner
    rw [h.owners owner]
    constructor
    · rintro ⟨k, hk, hphase⟩
      exact ⟨k, hold hk, hphase⟩
    · rintro ⟨k, hk, hphase⟩
      rcases hnew hk with hk | rfl
      · exact ⟨k, hk, hphase⟩
      · rw [hposted] at hphase
        cases hphase
  exact
    { genuine := List.forall_mem_append.mpr ⟨h.genuine, List.forall_mem_singleton.mpr hl⟩
      owners := howners
      text := fun m hm k hk => by
        obtain ⟨k', hk', -⟩ := (h.owners m.owner).mp (List.mem_map_of_mem hm)
        obtain rfl := Option.some.inj ((hold hk').symm.trans hk)
        exact h.text m hm k' hk'
      once := h.once
      held := fun m hm => by
        obtain ⟨hmem, k, hk, hphase⟩ := h.held m hm
        exact ⟨hmem, k, hold hk, hphase⟩
      kept := h.kept
      room := h.room }

/-- The notices that a job posts with an event. -/
def sent (owner : Nat) (e : Execution) (event : Event) : List Message :=
  (e.postsWith event).map fun text => { owner, text }

theorem mem_sent_iff {owner : Nat} {e : Execution} {event : Event} {m : Message} :
    m ∈ sent owner e event ↔ e.postsWith event ≠ [] ∧ m = ⟨owner, e.notice⟩ := by
  rw [sent, List.mem_map]
  constructor
  · rintro ⟨text, hmem, rfl⟩
    obtain ⟨-, -, rfl⟩ := Execution.mem_postsWith_iff.mp hmem
    exact ⟨List.ne_nil_of_mem hmem, rfl⟩
  · rintro ⟨hne, rfl⟩
    obtain ⟨text, hmem⟩ := List.exists_mem_of_ne_nil _ hne
    obtain ⟨-, -, rfl⟩ := Execution.mem_postsWith_iff.mp hmem
    exact ⟨_, hmem, rfl⟩

theorem mem_owner_sent_iff {owner : Nat} {e : Execution} {event : Event} {i : Nat} :
    i ∈ (sent owner e event).map Message.owner ↔ i = owner ∧ e.postsWith event ≠ [] := by
  rw [List.mem_map]
  constructor
  · rintro ⟨m, hm, rfl⟩
    obtain ⟨hne, rfl⟩ := mem_sent_iff.mp hm
    exact ⟨rfl, hne⟩
  · rintro ⟨rfl, hne⟩
    exact ⟨_, mem_sent_iff.mpr ⟨hne, rfl⟩, rfl⟩

theorem nodup_owner_sent (owner : Nat) (e : Execution) (event : Event) :
    ((sent owner e event).map Message.owner).Nodup := by
  cases event with
  | passedBarrier =>
      rw [sent, Execution.postsWith]
      split <;> simp
  | _ => exact List.nodup_nil

/-! ## After an event of a job -/

section Record

variable {t : Traffic} {owner : Nat} {l : Launch} {event : Event} {e : Execution}
  {effects : List Effect}

theorem getElem?_record_self (hlaunch : t.launches[owner]? = some l) :
    (t.record owner l event e effects).launches[owner]?
      = some { l with execution := e, events := l.events ++ [event] } :=
  List.getElem?_set_self (List.getElem?_eq_some_iff.mp hlaunch).1

theorem getElem?_record_ne {i : Nat} (hi : i ≠ owner) :
    (t.record owner l event e effects).launches[i]? = t.launches[i]? :=
  List.getElem?_set_ne hi.symm

theorem record_posted (hstep : l.execution.step event = some (e, effects)) :
    (t.record owner l event e effects).posted = t.posted ++ sent owner l.execution event := by
  rw [record, Execution.posts_of_step hstep]
  rfl

theorem record_held (hstep : l.execution.step event = some (e, effects)) :
    (t.record owner l event e effects).held
      = if t.listening then t.held ++ sent owner l.execution event else t.held := by
  rw [record, Execution.posts_of_step hstep]
  rfl

theorem mem_of_mem_held_record (hstep : l.execution.step event = some (e, effects)) {m : Message}
    (hm : m ∈ (t.record owner l event e effects).held) :
    m ∈ t.held ∨ m ∈ sent owner l.execution event := by
  rw [record_held hstep] at hm
  split at hm
  · exact List.mem_append.mp hm
  · exact Or.inl hm

theorem Sound.owners_record (h : t.Sound) (hlaunch : t.launches[owner]? = some l)
    (hstep : l.execution.step event = some (e, effects)) (i : Nat) :
    i ∈ (t.record owner l event e effects).posted.map Message.owner
      ↔ ∃ k, (t.record owner l event e effects).launches[i]? = some k
        ∧ k.execution.phase.hasPosted = true := by
  rw [record_posted hstep, List.map_append, List.mem_append, h.owners i, mem_owner_sent_iff]
  by_cases hi : i = owner
  · subst hi
    rw [getElem?_record_self hlaunch, hlaunch]
    simp [(Execution.move_of_step hstep).hasPosted_iff]
  · rw [getElem?_record_ne hi]
    simp [hi]

theorem Sound.text_record (h : t.Sound) (hlaunch : t.launches[owner]? = some l)
    (hstep : l.execution.step event = some (e, effects)) {m : Message}
    (hm : m ∈ (t.record owner l event e effects).posted) {k : Launch}
    (hk : (t.record owner l event e effects).launches[m.owner]? = some k) :
    m.text = k.execution.notice := by
  rw [record_posted hstep] at hm
  by_cases hi : m.owner = owner
  · rw [hi, getElem?_record_self hlaunch] at hk
    obtain rfl := Option.some.inj hk
    rw [(Execution.move_of_step hstep).notice]
    rcases List.mem_append.mp hm with hm | hm
    · exact h.text m hm l (hi ▸ hlaunch)
    · rw [(mem_sent_iff.mp hm).2]
  · rw [getElem?_record_ne hi] at hk
    rcases List.mem_append.mp hm with hm | hm
    · exact h.text m hm k hk
    · exact (hi (congrArg Message.owner (mem_sent_iff.mp hm).2)).elim

theorem Sound.once_record (h : t.Sound) (hlaunch : t.launches[owner]? = some l)
    (hstep : l.execution.step event = some (e, effects)) :
    ((t.record owner l event e effects).posted.map Message.owner).Nodup := by
  rw [record_posted hstep, List.map_append, List.nodup_append]
  refine ⟨h.once, nodup_owner_sent .., ?_⟩
  -- Who posts now is still running in the background, so he has not posted yet.
  rintro i hi _ hsent rfl
  obtain ⟨rfl, hne⟩ := mem_owner_sent_iff.mp hsent
  obtain ⟨k, hk, hphase⟩ := (h.owners i).mp hi
  obtain rfl := Option.some.inj (hlaunch.symm.trans hk)
  rw [Execution.phase_of_postsWith hne] at hphase
  cases hphase

theorem Sound.held_record (h : t.Sound) (hlaunch : t.launches[owner]? = some l)
    (hstep : l.execution.step event = some (e, effects))
    (hfree : event = .noticeTaken → ∀ m ∈ t.held, m.owner ≠ owner) {m : Message}
    (hm : m ∈ (t.record owner l event e effects).held) :
    m ∈ (t.record owner l event e effects).posted
      ∧ ∃ k, (t.record owner l event e effects).launches[m.owner]? = some k
        ∧ k.execution.phase = .posting := by
  have hmove := Execution.move_of_step hstep
  rw [record_posted hstep]
  rcases mem_of_mem_held_record hstep hm with hm | hm
  · obtain ⟨hposted, k, hk, hphase⟩ := h.held m hm
    refine ⟨List.mem_append_left _ hposted, ?_⟩
    by_cases hi : m.owner = owner
    · rw [hi] at hk ⊢
      obtain rfl := Option.some.inj (hlaunch.symm.trans hk)
      refine ⟨_, getElem?_record_self hlaunch, ?_⟩
      rcases hmove.posting hphase with hposting | htaken
      · exact hposting
      · exact (hfree htaken m hm hi).elim
    · exact ⟨k, (getElem?_record_ne hi).trans hk, hphase⟩
  · refine ⟨List.mem_append_right _ hm, ?_⟩
    obtain ⟨hne, rfl⟩ := mem_sent_iff.mp hm
    exact ⟨_, getElem?_record_self hlaunch, hmove.posting_of_postsWith hne⟩

theorem Sound.acted (h : t.Sound) (hlaunch : t.launches[owner]? = some l)
    (hstep : l.execution.step event = some (e, effects))
    (hfree : event = .noticeTaken → ∀ m ∈ t.held, m.owner ≠ owner) :
    (t.record owner l event e effects).Sound where
  genuine k hk := by
    rcases List.mem_or_eq_of_mem_set hk with hk | rfl
    · exact h.genuine k hk
    · exact (h.genuine l (List.mem_of_getElem? hlaunch)).step hstep
  owners := h.owners_record hlaunch hstep
  text m hm k hk := h.text_record hlaunch hstep hm hk
  once := h.once_record hlaunch hstep
  held m hm := h.held_record hlaunch hstep hfree hm
  kept hlistening := by
    have hlistening : t.listening = true := hlistening
    rw [record_posted hstep, record_held hstep, if_pos hlistening, ← List.append_assoc]
    exact (h.kept hlistening).append_right _
  room := h.room

end Record

/-! ## After any step -/

theorem Sound.step {t t' : Traffic} (h : t.Sound) (hstep : Step t t') : t'.Sound := by
  cases hstep with
  | refused _ => exact h
  | launched callerGroup hjob =>
      exact h.launched (Launch.genuine_ofJob hjob callerGroup) rfl
  | acted hlaunch hstep hfree => exact h.acted hlaunch hstep hfree
  | @accepted m hheld hroom =>
      exact
        { genuine := h.genuine
          owners := h.owners
          text := h.text
          once := h.once
          held := fun m' hm' => h.held m' (List.mem_of_mem_erase hm')
          kept := fun hlistening => by
            refine List.Perm.trans ?_ (h.kept hlistening)
            rw [List.append_assoc, List.append_assoc, List.append_assoc]
            exact ((List.perm_cons_erase hheld).symm.append_left _).append_left _
          room := by
            rw [List.length_append, List.length_singleton]
            exact hroom }
  | @received m rest hpending =>
      exact
        { genuine := h.genuine
          owners := h.owners
          text := h.text
          once := h.once
          held := h.held
          kept := fun hlistening => by
            have := h.kept hlistening
            rw [hpending] at this
            rwa [List.append_assoc t.printed]
          room := by
            have := h.room
            rw [hpending, List.length_cons] at this
            exact Nat.le_of_succ_le this }
  | closed =>
      exact
        { genuine := h.genuine
          owners := h.owners
          text := h.text
          once := h.once
          held := fun m hm => (List.not_mem_nil hm).elim
          kept := fun hlistening => by cases hlistening
          room := Nat.zero_le _ }

theorem Reached.sound {capacity : Nat} {t : Traffic} (h : Reached capacity t) : t.Sound := by
  induction h with
  | start => exact sound_start capacity
  | step _ hstep ih => exact ih.step hstep

/-! ## What the session can rely on -/

end Traffic

end JobShell
