import JobShell.Proofs.Traffic
import Mathlib.Logic.Relation

/-!
# Who has the terminal

A job in the foreground is handed the terminal by the process it starts
first, and the shell takes it back at the end. In between the other stages are
started or can not be, end in any order, and so do those of the jobs in the
background. `Scene` is who has the terminal next to all of these jobs,
`Scene.Step` one step of any of them, and `guarded_of_reached` says what holds
at any moment: the terminal is where it was before the first job, except while
a job in the foreground has it, and it only comes back when all processes of
that job were waited for.
-/

namespace JobShell

open Machine (Pid)

/-! ## What a job gives back -/

/-- The group that an effect gives the terminal to. -/
def Effect.give? : Effect → Option Pid
  | giveTerminal group => some group
  | _ => none

/-- The groups that the terminal is given to. -/
def gives (effects : List Effect) : List Pid := effects.filterMap Effect.give?

theorem gives_cons (effect : Effect) (rest : List Effect) :
    gives (effect :: rest) = effect.give?.toList ++ gives rest := by
  cases effect <;> rfl

theorem gives_outward (effects : List Effect) : gives (outward effects) = gives effects := by
  rw [gives, outward, List.filterMap_filter]
  refine List.filterMap_congr fun effect _ => ?_
  cases effect <;> rfl

theorem mem_gives_iff {effects : List Effect} {group : Pid} :
    group ∈ gives effects ↔ .giveTerminal group ∈ effects := by
  rw [gives, List.mem_filterMap]
  constructor
  · rintro ⟨effect, hmem, hgive⟩
    cases effect with
    | giveTerminal other =>
        obtain rfl := Option.some.inj hgive
        exact hmem
    | _ => cases hgive
  · exact fun hmem => ⟨_, hmem, rfl⟩

/-- Who has the terminal after some effects. -/
def handOver (foreground : Option Pid) (effects : List Effect) : Option Pid :=
  (gives effects).foldl (fun _ group => some group) foreground

namespace Phase

/-- Whether a job has ended without going into the background. -/
def isOver : Phase → Bool
  | doneForeground | failed _ => true
  | starting | waitingForeground | runningBackground | posting | terminating _ | killing _
  | doneBackground => false

end Phase

namespace Execution

variable {e e' : Execution} {event : Event} {effects : List Effect} {home : Pid}

/-- Whether a job gives the terminal back with an event. -/
def givesBack (e : Execution) : Event → Bool
  | .failedToStart _ => e.foreground && e.group?.isNone
  | .passedBarrier =>
    match e.phase with
    | .waitingForeground | .terminating _ | .killing _ => e.foreground
    | _ => false
  | _ => false

theorem foreground_of_givesBack (h : e.givesBack event = true) : e.foreground = true := by
  unfold givesBack at h
  split at h
  · exact (Bool.and_eq_true_iff.mp h).1
  · split at h
    · exact h
    · exact h
    · exact h
    · cases h
  · cases h

theorem gives_of_step (hsided : e.Sided) (h : e.step event = some (e', effects)) :
    gives effects = if e.givesBack event then [e.callerGroup] else [] := by
  rw [← gives_outward, outward_of_step h]
  cases event with
  | failedToStart failure =>
      rw [outwardWith, givesBack]
      cases e.group? with
      | some group => simp [gives, Effect.give?]
      | none => cases e.foreground <;> rfl
  | graceExpired =>
      rw [outwardWith]
      cases e.group? <;> rfl
  | passedBarrier =>
      rw [outwardWith, givesBack]
      cases hphase : e.phase with
      | waitingForeground =>
          rw [hsided true (by rw [hphase]; rfl)]
          rfl
      | terminating failure | killing failure => cases e.foreground <;> rfl
      | _ => rfl
  | _ => rfl

theorem handOver_of_step (hsided : e.Sided) (h : e.step event = some (e', effects))
    (foreground : Option Pid) :
    handOver foreground effects
      = if e.givesBack event then some e.callerGroup else foreground := by
  rw [handOver, gives_of_step hsided h]
  split <;> rfl

/-- A job in the foreground is over when it has given the terminal back. -/
theorem Move.isOver (h : Move e event e') (hforeground : e.foreground = true) :
    e'.phase.isOver = (e.phase.isOver || e.givesBack event) := by
  cases h with
  | started _ _ _ | waited _ _ _ | released _ _ | arrived _ _ => exact (Bool.or_false _).symm
  | startedLast hphase _ _ =>
      rw [hphase, hforeground]
      rfl
  | gaveUp hphase _ =>
      have hgroup : e.dropIdle.group? = e.group? := group?_drop ..
      rw [hphase, givesBack, hforeground, hgroup]
      cases e.group? <;> rfl
  | killed hphase _ | noticed hphase =>
      rw [hphase]
      rfl
  | passed _ hafter =>
      rw [givesBack]
      cases hphase : e.phase <;> rw [hphase] at hafter <;> cases hafter <;>
        simp [Phase.isOver, hforeground]

/-- A job that went into the background stays there. -/
theorem Move.isBackground (h : Move e event e') (hphase : e.phase.isBackground = true) :
    e'.phase.isBackground = true := by
  cases h with
  | waited _ _ _ | released _ _ | arrived _ _ => exact hphase
  | started hstarting _ _ | startedLast hstarting _ _ | gaveUp hstarting _ =>
      rw [hstarting] at hphase
      cases hphase
  | killed hterminating _ =>
      rw [hterminating] at hphase
      cases hphase
  | passed _ hafter =>
      cases hbefore : e.phase <;> rw [hbefore] at hafter hphase <;> cases hafter <;>
        first | rfl | cases hphase
  | noticed _ => rfl

/-- Some run of a job that was built leads to this state; it gives the
terminal to the group `home`. -/
def Ran (home : Pid) (e : Execution) : Prop :=
  ∃ p job events effects, Job.BuiltFrom p job ∧ Run (.ofJob job home) events effects e

/-- Some run of a job leads to this state, in which all processes it had
started were waited for. -/
def Settled (home : Pid) (e : Execution) : Prop :=
  ∃ p job events effects, Job.BuiltFrom p job ∧ Run (.ofJob job home) events effects e
    ∧ ∀ i < (starts events).length, Awaited events e i

theorem group?_ofJob (job : Job) (callerGroup : Pid) : (ofJob job callerGroup).group? = none := by
  rw [group?, ofJob, List.head?_map]
  cases job.stages.head? <;> rfl

theorem ran_ofJob {p : Pipeline} {job : Job} (hjob : job.BuiltFrom p) (home : Pid) :
    (ofJob job home).Ran home :=
  ⟨p, job, [], [], hjob, .start⟩

namespace Ran

theorem step (h : e.Ran home) (hstep : e.step event = some (e', effects)) : e'.Ran home := by
  obtain ⟨p, job, events, before, hjob, hrun⟩ := h
  exact ⟨p, job, _, _, hjob, hrun.step hstep⟩

theorem sided (h : e.Ran home) : e.Sided := by
  obtain ⟨p, job, events, before, hjob, hrun⟩ := h
  exact hrun.sided rfl

theorem callerGroup (h : e.Ran home) : e.callerGroup = home := by
  obtain ⟨p, job, events, before, hjob, hrun⟩ := h
  exact hrun.constant.callerGroup

theorem arranged (h : e.Ran home) : ∃ total pids, e.Arranged total pids := by
  obtain ⟨p, job, events, before, hjob, hrun⟩ := h
  exact ⟨_, _, hrun.arranged hjob.numbered hjob.nonempty⟩

theorem foreground_of_isBackground (h : e.Ran home) (hphase : e.phase.isBackground = true) :
    e.foreground = false :=
  h.sided false (Phase.side?_of_isBackground hphase)

/-- Nobody gives the terminal back before everything was waited for. -/
theorem settled (h : e.Ran home) (hstep : e.step event = some (e', effects))
    (hgives : e.givesBack event = true) : e.Settled home := by
  obtain ⟨p, job, events, before, hjob, hrun⟩ := h
  obtain ⟨harranged, hrecorded⟩ := hrun.recorded hjob.numbered hjob.nonempty
  refine ⟨p, job, events, before, hjob, hrun, ?_⟩
  cases move_of_step hstep with
  | gaveUp hphase hs =>
      -- Without a group no process was started.
      have hnone := (Bool.and_eq_true_iff.mp hgives).2
      rw [harranged.group?_eq, Option.isNone_iff_eq_none, List.head?_eq_none_iff] at hnone
      rw [hnone]
      exact fun i hi => (Nat.not_lt_zero i hi).elim
  | passed hopen hafter => exact hrecorded.awaited harranged (of_decide_eq_true hopen)
  | _ => cases hgives

/-- The first process that is started leads the group from then on. -/
theorem group?_step (h : e.Ran home) (hstep : e.step event = some (e', effects)) {group : Pid}
    (hgroup : e'.group? = some group) :
    e.group? = some group ∨ e.group? = none ∧ event = .started group := by
  obtain ⟨total, pids, harranged⟩ := h.arranged
  rw [(harranged.move (move_of_step hstep)).group?_eq] at hgroup
  rw [harranged.group?_eq]
  cases pids with
  | cons pid rest => exact Or.inl hgroup
  | nil =>
      refine Or.inr ⟨rfl, ?_⟩
      cases event with
      | started pid =>
          obtain rfl := Option.some.inj hgroup
          rfl
      | _ => cases hgroup

end Ran

end Execution

/-! ## Scenes -/

/-- Who has the terminal, and the jobs. -/
structure Scene where
  foreground : Option Pid
  /-- The group that had the terminal when the shell asked for it. -/
  home? : Option Pid := none
  /-- The job that the shell executes. -/
  active : Option Execution := none
  background : List Execution := []

namespace Scene

/-- One step of the shell, of a job, or of a process that is split off for
one. -/
inductive Step (t : Scene) : Scene → Prop
  /-- The shell asks who has the terminal, and remembers it. -/
  | asked {group : Pid} (hidle : t.active = none) (hhome : t.home? = none)
      (hforeground : t.foreground = some group) :
      Step t { t with home? := some group }
  | launched {p : Pipeline} {job : Job} {group : Pid} (hidle : t.active = none)
      (hhome : t.home? = some group) (hjob : job.BuiltFrom p) :
      Step t { t with active := some (.ofJob job group) }
  /-- The process that is split off for the first stage takes the terminal.
  It may fail to execute its command then. -/
  | took {e : Execution} (pid : Pid) (hactive : t.active = some e) (hphase : e.phase = .starting)
      (htakes : e.nextTakesTerminal = true) :
      Step t { t with foreground := some pid }
  /-- Something happens to the job that is executed. A process that leads a
  job in the foreground has taken the terminal when it is started. -/
  | acted {e e' : Execution} {event : Event} {effects : List Effect} (hactive : t.active = some e)
      (hstep : e.step event = some (e', effects))
      (htaken : ∀ pid, event = .started pid → e.nextTakesTerminal = true →
        t.foreground = some pid) :
      Step t { t with active := some e', foreground := handOver t.foreground effects }
  /-- The job is over, and the shell goes on. -/
  | returned {e : Execution} (hactive : t.active = some e) (hover : e.phase.isOver = true) :
      Step t { t with active := none }
  /-- The job is in the background, and the shell goes on. -/
  | detached {e : Execution} (hactive : t.active = some e)
      (hphase : e.phase.isBackground = true) :
      Step t { t with active := none, background := t.background ++ [e] }
  /-- Something happens to a job in the background. -/
  | worked {before after : List Execution} {e e' : Execution} {event : Event}
      {effects : List Effect} (hbackground : t.background = before ++ e :: after)
      (hstep : e.step event = some (e', effects)) :
      Step t { t with
        background := before ++ e' :: after, foreground := handOver t.foreground effects }
  /-- Some jobs in the background are not looked after any more. -/
  | forgotten {rest : List Execution} (hsublist : rest.Sublist t.background) :
      Step t { t with background := rest }

/-- Some steps lead from one scene to the other. -/
def Path : Scene → Scene → Prop := Relation.ReflTransGen Step

/-- What can come of a terminal that the group `home` has when no job was
executed yet. -/
def Reached (home : Pid) (t : Scene) : Prop := Path { foreground := some home } t

/-! ## The invariant -/

/-- What holds in every scene that is reached. -/
structure Kept (home : Pid) (t : Scene) : Prop where
  asked : ∀ group, t.home? = some group → group = home
  active : ∀ e, t.active = some e → e.Ran home
  background : ∀ e ∈ t.background, e.Ran home ∧ e.phase.isBackground = true
  owner : t.foreground = some home
    ∨ ∃ e, t.active = some e ∧ e.foreground = true ∧ e.phase.isOver = false
  held : ∀ e group, t.active = some e → e.foreground = true → e.phase.isOver = false →
    e.group? = some group → t.foreground = some group

theorem kept_start (home : Pid) : Kept home { foreground := some home } where
  asked _ h := nomatch h
  active _ h := nomatch h
  background _ h := (List.not_mem_nil h).elim
  owner := Or.inl rfl
  held _ _ h := nomatch h

namespace Kept

variable {home : Pid} {t : Scene}

/-- Unless a job in the foreground is under way, the terminal is where it
was. -/
theorem foreground_eq (h : t.Kept home)
    (hside : ∀ e, t.active = some e → e.foreground = true → e.phase.isOver = true) :
    t.foreground = some home := by
  rcases h.owner with howner | ⟨e, hactive, hforeground, hover⟩
  · exact howner
  · rw [hside e hactive hforeground] at hover
    cases hover

theorem foreground_of_idle (h : t.Kept home) (hidle : t.active = none) :
    t.foreground = some home := by
  refine h.foreground_eq fun e he => ?_
  rw [hidle] at he
  cases he

/-- The shell goes on, because the job it executed has no part in the terminal
any more. -/
theorem leave (h : t.Kept home) {background : List Execution}
    (hside : ∀ e, t.active = some e → e.foreground = true → e.phase.isOver = true)
    (hbackground : ∀ e ∈ background, e.Ran home ∧ e.phase.isBackground = true) :
    Kept home { t with active := none, background } where
  asked := h.asked
  active _ he := nomatch he
  background := hbackground
  owner := Or.inl (h.foreground_eq hside)
  held _ _ he := nomatch he

theorem acted {e e' : Execution} {event : Event} {effects : List Effect} (h : t.Kept home)
    (hactive : t.active = some e) (hstep : e.step event = some (e', effects))
    (htaken : ∀ pid, event = .started pid → e.nextTakesTerminal = true →
      t.foreground = some pid) :
    Kept home { t with active := some e', foreground := handOver t.foreground effects } := by
  have hran := h.active e hactive
  have hmove := Execution.move_of_step hstep
  have hside : e'.foreground = e.foreground := hmove.constant.foreground
  rw [Execution.handOver_of_step hran.sided hstep, hran.callerGroup]
  have hover : ∀ k, some e' = some k → k.foreground = true →
      k.phase.isOver = (e.phase.isOver || e.givesBack event) := by
    intro k hk hforeground
    obtain rfl := Option.some.inj hk
    exact hmove.isOver (hside ▸ hforeground)
  refine ⟨h.asked, fun k hk => Option.some.inj hk ▸ hran.step hstep, h.background, ?_, ?_⟩
  · cases hgives : e.givesBack event with
    | true => exact Or.inl rfl
    | false =>
        rcases h.owner with howner | ⟨k, hk, hforeground, hnot⟩
        · exact Or.inl howner
        · obtain rfl := Option.some.inj (hactive.symm.trans hk)
          have hforeground' := hside.trans hforeground
          refine Or.inr ⟨e', rfl, hforeground', ?_⟩
          rw [hover e' rfl hforeground', hnot, hgives]
          rfl
  · intro k group hk hforeground hnot hgroup
    rw [hover k hk hforeground, Bool.or_eq_false_iff] at hnot
    obtain rfl := Option.some.inj hk
    have hforeground := hside ▸ hforeground
    rw [hnot.2, if_neg Bool.false_ne_true]
    rcases hran.group?_step hstep hgroup with hbefore | ⟨hnone, hevent⟩
    · exact h.held e group hactive hforeground hnot.1 hbefore
    · refine htaken group hevent ?_
      rw [Execution.nextTakesTerminal, hnone, hforeground]
      rfl

theorem not_givesBack (h : t.Kept home) {e : Execution} (he : e ∈ t.background) (event : Event) :
    e.givesBack event = false := by
  obtain ⟨hran, hphase⟩ := h.background e he
  rw [← Bool.not_eq_true]
  intro hgives
  have hforeground := Execution.foreground_of_givesBack hgives
  rw [hran.foreground_of_isBackground hphase] at hforeground
  cases hforeground

theorem worked {before after : List Execution} {e e' : Execution} {event : Event}
    {effects : List Effect} (h : t.Kept home) (hbackground : t.background = before ++ e :: after)
    (hstep : e.step event = some (e', effects)) :
    Kept home { t with
      background := before ++ e' :: after, foreground := handOver t.foreground effects } := by
  have hall := h.background
  have hmem : e ∈ t.background :=
    hbackground ▸ List.mem_append_right _ (List.mem_cons_self ..)
  obtain ⟨hran, hphase⟩ := hall e hmem
  rw [hbackground] at hall
  have hgives := h.not_givesBack hmem event
  rw [Execution.handOver_of_step hran.sided hstep, hgives, if_neg Bool.false_ne_true]
  refine ⟨h.asked, h.active, fun k hk => ?_, h.owner, h.held⟩
  rcases List.mem_append.mp hk with hk | hk
  · exact hall k (List.mem_append_left _ hk)
  · rcases List.mem_cons.mp hk with rfl | hk
    · exact ⟨hran.step hstep, (Execution.move_of_step hstep).isBackground hphase⟩
    · exact hall k (List.mem_append_right _ (List.mem_cons_of_mem _ hk))

theorem step {t' : Scene} (h : t.Kept home) (hstep : Step t t') : t'.Kept home := by
  cases hstep with
  | asked hidle hhome hforeground =>
      refine ⟨fun group hgroup => ?_, h.active, h.background, h.owner, h.held⟩
      obtain rfl := Option.some.inj hgroup
      exact Option.some.inj (hforeground.symm.trans (h.foreground_of_idle hidle))
  | launched hidle hhome hjob =>
      obtain rfl := h.asked _ hhome
      refine ⟨h.asked, fun e he => ?_, h.background, ?_, fun e group he _ _ hgroup => ?_⟩
      · obtain rfl := Option.some.inj he
        exact Execution.ran_ofJob hjob _
      · exact Or.inl (h.foreground_of_idle hidle)
      · obtain rfl := Option.some.inj he
        rw [Execution.group?_ofJob] at hgroup
        cases hgroup
  | took pid hactive hphase htakes =>
      obtain ⟨hnone, hforeground⟩ := Bool.and_eq_true_iff.mp htakes
      refine ⟨h.asked, h.active, h.background, Or.inr ⟨_, hactive, hforeground, ?_⟩, ?_⟩
      · rw [hphase]
        rfl
      · intro e group he _ _ hgroup
        obtain rfl := Option.some.inj (hactive.symm.trans he)
        rw [hgroup] at hnone
        cases hnone
  | acted hactive hstep htaken => exact h.acted hactive hstep htaken
  | returned hactive hover =>
      refine h.leave (fun e he _ => ?_) h.background
      obtain rfl := Option.some.inj (hactive.symm.trans he)
      exact hover
  | detached hactive hphase =>
      have hran := h.active _ hactive
      refine h.leave (fun e he hforeground => ?_) ?_
      · obtain rfl := Option.some.inj (hactive.symm.trans he)
        rw [hran.foreground_of_isBackground hphase] at hforeground
        cases hforeground
      · exact List.forall_mem_append.mpr
          ⟨h.background, List.forall_mem_singleton.mpr ⟨hran, hphase⟩⟩
  | worked hbackground hstep => exact h.worked hbackground hstep
  | forgotten hsublist =>
      exact ⟨h.asked, h.active, fun e he => h.background e (hsublist.subset he), h.owner, h.held⟩

end Kept

theorem kept_of_reached {home : Pid} {t : Scene} (h : Reached home t) : t.Kept home := by
  induction h with
  | refl => exact kept_start home
  | tail _ hstep ih => exact ih.step hstep

/-! ## What holds at any moment -/

/-- The terminal is with `home` or with the job that has it by right. -/
structure Guarded (home : Pid) (t : Scene) : Prop where
  /-- When no job is executed, the terminal is back. -/
  idle : t.active = none → t.foreground = some home
  /-- While a job for the background is executed, it stays where it is. -/
  background : ∀ e, t.active = some e → e.foreground = false → t.foreground = some home
  ended : ∀ e, t.active = some e → e.phase.isOver = true → t.foreground = some home
  /-- A job in the foreground keeps it from its first process on. -/
  held : ∀ e group, t.active = some e → e.foreground = true → e.phase.isOver = false →
    e.group? = some group → t.foreground = some group
  /-- Only a job in the foreground gives it back, to `home`, and only when all
  processes that were started were waited for. -/
  given : ∀ e event e' effects group, t.active = some e ∨ e ∈ t.background →
    e.step event = some (e', effects) → .giveTerminal group ∈ effects →
    group = home ∧ t.active = some e ∧ e.foreground = true ∧ e.Settled home
  /-- The owner only changes when the first process of a job in the foreground
  takes the terminal or when that job gives it back. -/
  changed : ∀ t', Step t t' → t'.foreground = t.foreground
    ∨ ∃ e, t.active = some e ∧ e.foreground = true
      ∧ ((∃ pid, t' = { t with foreground := some pid }) ∧ e.phase = .starting ∧ e.group? = none
        ∨ t'.foreground = some home ∧ e.Settled home)

namespace Kept

variable {home : Pid} {t : Scene}

theorem ran (h : t.Kept home) {e : Execution} (he : t.active = some e ∨ e ∈ t.background) :
    e.Ran home := by
  rcases he with he | he
  · exact h.active e he
  · exact (h.background e he).1

theorem given (h : t.Kept home) {e e' : Execution} {event : Event} {effects : List Effect}
    {group : Pid} (he : t.active = some e ∨ e ∈ t.background)
    (hstep : e.step event = some (e', effects)) (hmem : .giveTerminal group ∈ effects) :
    group = home ∧ t.active = some e ∧ e.foreground = true ∧ e.Settled home := by
  have hran := h.ran he
  rw [← mem_gives_iff, Execution.gives_of_step hran.sided hstep, hran.callerGroup] at hmem
  split at hmem
  · rename_i hgives
    refine ⟨List.mem_singleton.mp hmem, ?_, Execution.foreground_of_givesBack hgives,
      hran.settled hstep hgives⟩
    rcases he with he | he
    · exact he
    · rw [h.not_givesBack he event] at hgives
      cases hgives
  · cases hmem

theorem changed (h : t.Kept home) {t' : Scene} (hstep : Step t t') :
    t'.foreground = t.foreground
      ∨ ∃ e, t.active = some e ∧ e.foreground = true
        ∧ ((∃ pid, t' = { t with foreground := some pid }) ∧ e.phase = .starting ∧ e.group? = none
          ∨ t'.foreground = some home ∧ e.Settled home) := by
  cases hstep with
  | asked _ _ _ | launched _ _ _ | returned _ _ | detached _ _ | forgotten _ => exact Or.inl rfl
  | took pid hactive hphase htakes =>
      obtain ⟨hnone, hforeground⟩ := Bool.and_eq_true_iff.mp htakes
      exact Or.inr ⟨_, hactive, hforeground,
        Or.inl ⟨⟨pid, rfl⟩, hphase, Option.isNone_iff_eq_none.mp hnone⟩⟩
  | @acted e e' event effects hactive hstep htaken =>
      have hran := h.active e hactive
      have hafter := Execution.handOver_of_step hran.sided hstep t.foreground
      dsimp only
      split at hafter
      · rename_i hgives
        refine Or.inr ⟨e, hactive, Execution.foreground_of_givesBack hgives, Or.inr ⟨?_, ?_⟩⟩
        · rw [hafter, hran.callerGroup]
        · exact hran.settled hstep hgives
      · exact Or.inl hafter
  | worked hbackground hstep =>
      have hmem : _ ∈ t.background :=
        hbackground ▸ List.mem_append_right _ (List.mem_cons_self ..)
      have hran := (h.background _ hmem).1
      left
      dsimp only
      rw [Execution.handOver_of_step hran.sided hstep, h.not_givesBack hmem,
        if_neg Bool.false_ne_true]

theorem guarded (h : t.Kept home) : t.Guarded home where
  idle := h.foreground_of_idle
  background e he hside := h.foreground_eq fun k hk hforeground => by
    obtain rfl := Option.some.inj (he.symm.trans hk)
    rw [hside] at hforeground
    cases hforeground
  ended e he hover := h.foreground_eq fun k hk _ => by
    obtain rfl := Option.some.inj (he.symm.trans hk)
    exact hover
  held := h.held
  given e event e' effects group he hstep hmem := h.given he hstep hmem
  changed t' hstep := h.changed hstep

end Kept

end Scene

end JobShell
