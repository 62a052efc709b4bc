import JobShell.Proofs.Openings
import JobShell.Proofs.Ownership
import JobShell.Proofs.Supervision
import Mathlib.Data.List.Flatten

/-!
# Collecting processes that have ended

A thread goes on when the process it waits for has ended. `Collects` is about
the threads of one job, `Gathers` about several jobs in the background and
`Tends` about all of them. In each of these no process comes to life, and
afterwards only processes that were alive are still waited for. If the shell
controls its terminal, whatever happens is a path of scenes.
-/

namespace JobShell

open Machine (World Pid)

/-- Whether the thread of a stage has something to wait for, or nothing to do
any more. -/
def Progress.isResting : Progress → Bool
  | waiting | running _ | arrived _ _ | dropped => true
  | reaped _ _ | released _ _ => false

namespace Execution

variable {home : Pid} {e e' : Execution}

/-- The stages of a job were started as far as possible, and their threads
wait. -/
structure Ready (home : Pid) (e : Execution) : Prop where
  ran : e.Ran home
  begun : e.phase ≠ .starting
  resting : ∀ s ∈ e.stages, s.progress.isResting = true

theorem Ran.run? {events : List Event} {effects : List Effect} (h : e.Ran home)
    (hrun : e.run? events = some (e', effects)) : e'.Ran home := by
  obtain ⟨p, job, before, done, hjob, hbefore⟩ := h
  exact ⟨p, job, _, _, hjob, hbefore.run? hrun⟩

theorem forall_mem_modify {α : Type} {p : α → Prop} {g : α → α} {l : List α} {i : Nat}
    (hl : ∀ a ∈ l, p a) (hg : ∀ a, p (g a)) : ∀ a ∈ l.modify i g, p a := by
  intro a ha
  obtain ⟨j, hj⟩ := List.getElem?_of_mem ha
  rw [List.getElem?_modify] at hj
  obtain ⟨b, hb, rfl⟩ := Option.map_eq_some_iff.mp hj
  split
  · exact hg b
  · exact hl b (List.mem_of_getElem? hb)

section Leaving

variable {index : Nat} {s : StageRun} {pid : Pid} {reason : Option ExitReason}

theorem Ready.step_waited (h : e.Ready home) (hs : e.stages[index]? = some s)
    (hprogress : s.progress = .running pid) (result : Except OsError WaitStatus) :
    ∃ effects, e.step (.waited index result)
      = some (e.setProgress index (.reaped pid (reasonOf result)), effects) := by
  obtain ⟨total, pids, harranged⟩ := h.ran.arranged
  have hbegun := h.begun
  have hreap : e.step (.waited index result) = some (e.reap s pid result) := by
    simp only [step, hs, hprogress]
  refine ⟨_, hreap.trans (congrArg some (Prod.ext ?_ rfl))⟩
  rw [fst_reap, harranged.places index s hs]

theorem step_released (hs : e.stages[index]? = some s)
    (hprogress : s.progress = .reaped pid reason) :
    ∃ effects, e.step (.released index)
      = some (e.setProgress index (.released pid reason), effects) := by
  simp only [step, hs, hprogress]
  exact ⟨_, rfl⟩

theorem step_arrived (hs : e.stages[index]? = some s)
    (hprogress : s.progress = .released pid reason) :
    ∃ effects, e.step (.arrived index)
      = some ({ e.setProgress index (.arrived pid reason) with barrier := e.barrier.arrive },
        effects) := by
  simp only [step, hs, hprogress]
  exact ⟨_, rfl⟩

/-- What happens to a stage when the wait for its process returns. -/
def leave (index : Nat) (result : Except OsError WaitStatus) : List Event :=
  [.waited index result, .released index, .arrived index]

/-- The stage whose process was waited for arrives, and nothing else changes. -/
theorem Ready.run?_leave (h : e.Ready home) (hs : e.stages[index]? = some s)
    (hprogress : s.progress = .running pid) (result : Except OsError WaitStatus) :
    ∃ e' effects, e.run? (leave index result) = some (e', effects) ∧ e'.phase = e.phase
      ∧ e'.stages = e.stages.modify index
          (fun s => { s with progress := .arrived pid (reasonOf result) }) := by
  obtain ⟨waited, hwaited⟩ := h.step_waited hs hprogress result
  have hs₁ := getElem?_setProgress_self (.reaped pid (reasonOf result)) hs
  obtain ⟨released, hreleased⟩ := step_released hs₁ rfl
  have hs₂ := getElem?_setProgress_self (.released pid (reasonOf result)) hs₁
  obtain ⟨arrived, harrived⟩ := step_arrived hs₂ rfl
  refine ⟨_, _, run?_cons_eq_some_iff.mpr ⟨_, _, _, hwaited,
    run?_cons_eq_some_iff.mpr ⟨_, _, _, hreleased,
      run?_cons_eq_some_iff.mpr ⟨_, _, _, harrived, rfl, rfl⟩, rfl⟩, rfl⟩, rfl, ?_⟩
  simp only [setProgress, List.modify_modify_eq]
  rfl

theorem Ready.leave (h : e.Ready home) {result : Except OsError WaitStatus}
    {effects : List Effect} (hrun : e.run? (Execution.leave index result) = some (e', effects))
    (hphase : e'.phase = e.phase)
    (hstages : e'.stages
      = e.stages.modify index fun s => { s with progress := .arrived pid reason }) :
    e'.Ready home where
  ran := h.ran.run? hrun
  begun := hphase ▸ h.begun
  resting := hstages ▸ forall_mem_modify h.resting fun _ => rfl

/-- Nobody outside of the job learns that a stage arrives. -/
theorem outward_leave {result : Except OsError WaitStatus} {effects : List Effect}
    (hrun : e.run? (Execution.leave index result) = some (e', effects)) :
    outward effects = [] := by
  obtain ⟨e₁, waited, more₁, hwaited, hrun₁, rfl⟩ := run?_cons_eq_some_iff.mp hrun
  obtain ⟨e₂, released, more₂, hreleased, hrun₂, rfl⟩ := run?_cons_eq_some_iff.mp hrun₁
  obtain ⟨e₃, arrived, more₃, harrived, hrun₃, rfl⟩ := run?_cons_eq_some_iff.mp hrun₂
  obtain ⟨rfl, rfl⟩ := Prod.mk.inj (Option.some.inj hrun₃)
  rw [outward_append, outward_append, outward_append, outward_of_step hwaited,
    outward_of_step hreleased, outward_of_step harrived]
  rfl

end Leaving

/-- The processes of a job that nobody has waited for, after some more were
waited for. -/
theorem filterMap_modify_sublist {α β : Type} {f : α → Option β} {g : α → α}
    (hnone : ∀ a, f (g a) = none) (l : List α) (i : Nat) :
    ((l.modify i g).filterMap f).Sublist (l.filterMap f) := by
  induction l generalizing i with
  | nil =>
      rw [List.modify_nil]
  | cons a l ih =>
      cases i with
      | zero =>
          rw [List.modify_zero_cons, List.filterMap_cons, hnone]
          exact List.Sublist.filterMap f (List.sublist_cons_self a l)
      | succ i =>
          rw [List.modify_succ_cons, List.filterMap_cons, List.filterMap_cons]
          cases f a with
          | none => exact ih i
          | some b => exact (ih i).cons_cons b

theorem mem_pidsOf_iff {pid : Pid} :
    pid ∈ Supervisor.pidsOf e ↔ ∃ s ∈ e.stages, s.progress = .running pid := by
  rw [Supervisor.pidsOf, List.mem_filterMap]
  refine exists_congr fun s => and_congr_right fun _ => ?_
  cases s.progress <;> simp

/-- The barrier is open when every process was waited for. -/
theorem Ready.isOpen (h : e.Ready home) (hnone : Supervisor.pidsOf e = []) :
    e.barrier.isOpen = true := by
  obtain ⟨p, job, events, effects, hjob, hrun⟩ := h.ran
  obtain ⟨harranged, hrecorded⟩ := hrun.recorded hjob.numbered hjob.nonempty
  have hpending : e.pending = 0 := by
    rw [pending, tally, List.countP_eq_zero]
    intro s hs hpending
    have hresting := h.resting s hs
    cases hprogress : s.progress with
    | waiting =>
        obtain ⟨i, hi⟩ := List.getElem?_of_mem hs
        have hnot := harranged.not_lt_of_waiting hi hprogress
        have hidle := harranged.idle i s hi (Nat.not_lt.mp hnot)
        rw [hprogress, Phase.idle_of_ne_starting h.begun] at hidle
        cases hidle
    | running pid =>
        have hmem := mem_pidsOf_iff.mpr ⟨s, hs, hprogress⟩
        rw [hnone] at hmem
        exact List.not_mem_nil hmem
    | reaped pid reason | released pid reason =>
        rw [hprogress] at hresting
        cases hresting
    | arrived pid reason | dropped =>
        rw [hprogress] at hpending
        cases hpending
  exact decide_eq_true (hrecorded.remaining.trans hpending)

end Execution

namespace Supervisor

variable {home : Pid} {s : Supervisor} {e e' : Execution} {effects : List Effect} {pid : Pid}

/-! ## Effects -/

theorem terminal_perform (s : Supervisor) (effect : Effect) :
    (s.perform effect).terminal = s.terminal := by
  cases effect with
  | signalGroup group signal =>
      simp only [perform]
      split <;> rfl
  | _ => rfl

theorem terminal_foldl_perform (s : Supervisor) (effects : List Effect) :
    (effects.foldl perform s).terminal = s.terminal := by
  induction effects generalizing s with
  | nil => rfl
  | cons effect rest ih => rw [List.foldl_cons, ih, terminal_perform]

/-- Of the effects only the one that gives the terminal changes its owner. -/
theorem foreground_perform (hattached : s.terminal.isAttached = true) (effect : Effect) :
    (s.perform effect).host.shell.foreground
      = effect.give?.toList.foldl (fun _ group => some group) s.host.shell.foreground := by
  cases effect with
  | log level message =>
      exact congrArg Machine.Outside.foreground (Host.writes_log s.host level message).shell
  | close fds => exact Host.foreground_closeAll s.host fds
  | signalGroup group signal =>
      simp only [perform]
      split
      · rfl
      · exact congrArg Machine.Outside.foreground (Host.writes_log ..).shell
  | giveTerminal group =>
      obtain ⟨fd, hfd⟩ := Option.isSome_iff_exists.mp hattached
      simp only [perform, TerminalController.handTo, hfd]
      rfl
  | post notice => rfl

theorem foreground_foldl_perform (hattached : s.terminal.isAttached = true)
    (effects : List Effect) :
    (effects.foldl perform s).host.shell.foreground
      = handOver s.host.shell.foreground effects := by
  induction effects generalizing s with
  | nil => rfl
  | cons effect rest ih =>
      rw [List.foldl_cons, ih ((terminal_perform s effect).symm ▸ hattached),
        foreground_perform hattached, handOver, handOver, gives_cons, List.foldl_append]

/-- Only a signal to a group ends processes. -/
theorem isAlive_perform {effect : Effect}
    (hquiet : ∀ group signal, effect ≠ .signalGroup group signal) (pid : Pid) :
    (s.perform effect).host.world.isAlive pid = s.host.world.isAlive pid := by
  have hwrites : ∀ {w w' : World}, w.Writes w' → w'.isAlive pid = w.isAlive pid := by
    intro w w' h
    unfold World.isAlive World.process?
    rw [h.processes]
  cases effect with
  | log level message => exact hwrites (Host.writes_log s.host level message).world
  | close fds => exact congrArg (World.isAlive · pid) (Host.world_closeAll s.host fds)
  | signalGroup group signal => exact (hquiet group signal rfl).elim
  | giveTerminal group =>
      simp only [perform, TerminalController.handTo]
      split
      · exact hwrites (Host.writes_log ..).world
      · rfl
  | post notice => rfl

theorem isAlive_foldl_perform (hquiet : ∀ group signal, .signalGroup group signal ∉ effects)
    (pid : Pid) :
    (effects.foldl perform s).host.world.isAlive pid = s.host.world.isAlive pid := by
  induction effects generalizing s with
  | nil => rfl
  | cons effect rest ih =>
      rw [List.foldl_cons, ih fun group signal hmem => hquiet group signal (.tail _ hmem)]
      exact isAlive_perform (fun group signal heq => hquiet group signal (heq ▸ .head _)) pid

/-! ## Scenes -/

/-- The scene with these jobs. -/
def scene (s : Supervisor) (active : Option Execution) (background : List Execution) : Scene :=
  { foreground := s.host.shell.foreground, home? := s.terminal.foreground?, active, background }

/-- Where a job is among all jobs. -/
inductive Seat
  | front (background : List Execution)
  | behind (active : Option Execution) (before after : List Execution)

/-- The scene with a job in this place. -/
def Seat.scene : Seat → Execution × Supervisor → Scene
  | front background, (e, s) => s.scene (some e) background
  | behind active before after, (e, s) => s.scene active (before ++ e :: after)

theorem scene_setWorld (seat : Seat) (e : Execution) (s : Supervisor) (world : World) :
    seat.scene (e, { s with host := { s.host with world } }) = seat.scene (e, s) := by
  cases seat <;> rfl

/-- An event is a step of the scene, wherever the job is. -/
theorem step_scene {event : Event} (hattached : s.terminal.isAttached = true)
    (hstep : e.step event = some (e', effects))
    (htaken : ∀ pid, event = .started pid → e.nextTakesTerminal = true →
      s.host.shell.foreground = some pid) (seat : Seat) :
    Scene.Step (seat.scene (e, s)) (seat.scene (e', effects.foldl perform s)) := by
  have hscene : ∀ active background, (effects.foldl perform s).scene active background
      = { s.scene active background with
          foreground := handOver s.host.shell.foreground effects } := by
    intro active background
    rw [scene, foreground_foldl_perform hattached, terminal_foldl_perform]
    rfl
  cases seat with
  | front background =>
      have hacted := @Scene.Step.acted (s.scene (some e) background) _ _ _ _ rfl hstep htaken
      rw [Seat.scene, Seat.scene, hscene]
      exact hacted
  | behind active before after =>
      have hworked :=
        @Scene.Step.worked (s.scene active (before ++ e :: after)) _ _ _ _ _ _ rfl hstep
      rw [Seat.scene, Seat.scene, hscene]
      exact hworked

theorem path_of_run? {events : List Event} (hattached : s.terminal.isAttached = true)
    (hrun : e.run? events = some (e', effects)) (hstarts : ∀ pid, .started pid ∉ events)
    (seat : Seat) :
    Scene.Path (seat.scene (e, s)) (seat.scene (e', effects.foldl perform s)) := by
  induction events generalizing s e effects with
  | nil =>
      obtain ⟨rfl, rfl⟩ := Prod.mk.inj (Option.some.inj hrun)
      exact .refl
  | cons event rest ih =>
      obtain ⟨next, first, later, hstep, hrest, rfl⟩ := Execution.run?_cons_eq_some_iff.mp hrun
      have hhead := step_scene hattached hstep
        (fun pid heq => (hstarts pid (heq ▸ List.mem_cons_self ..)).elim) seat
      have htail := ih (s := first.foldl perform s)
        ((terminal_foldl_perform s first).symm ▸ hattached) hrest
        fun pid hmem => hstarts pid (List.mem_cons_of_mem _ hmem)
      rw [List.foldl_append]
      exact htail.head hhead

theorem applyAll_eq {events : List Event} (hrun : e.run? events = some (e', effects)) :
    s.applyAll e events = (e', effects.foldl perform s) := by
  induction events generalizing s e effects with
  | nil =>
      obtain ⟨rfl, rfl⟩ := Prod.mk.inj (Option.some.inj hrun)
      rfl
  | cons event rest ih =>
      obtain ⟨next, first, later, hstep, hrest, rfl⟩ := Execution.run?_cons_eq_some_iff.mp hrun
      have htail := ih (s := first.foldl perform s) hrest
      rw [List.foldl_append, ← htail]
      simp only [applyAll, List.foldl_cons, apply_eq hstep]

/-! ## Collecting stages -/

/-- A job went on, wherever it is: no process came to life. -/
structure Goes (home : Pid) (x y : Execution × Supervisor) : Prop where
  ready : y.1.Ready home
  terminal : y.2.terminal = x.2.terminal
  path : x.2.terminal.isAttached = true →
    ∀ seat : Seat, Scene.Path (seat.scene x) (seat.scene y)
  alive : ∀ pid, y.2.host.world.isAlive pid = true → x.2.host.world.isAlive pid = true
  pids : (pidsOf y.1).Sublist (pidsOf x.1)

namespace Goes

variable {x y z : Execution × Supervisor}

theorem refl (h : x.1.Ready home) : Goes home x x :=
  ⟨h, rfl, fun _ _ => .refl, fun _ halive => halive, .refl _⟩

theorem trans (h : Goes home x y) (h' : Goes home y z) : Goes home x z where
  ready := h'.ready
  terminal := h'.terminal.trans h.terminal
  path hattached seat :=
    (h.path hattached seat).trans (h'.path (h.terminal.symm ▸ hattached) seat)
  alive pid halive := h.alive pid (h'.alive pid halive)
  pids := h'.pids.trans h.pids

end Goes

/-- The stages at these places were looked after: where the process of one is
still waited for, it is alive. -/
structure Collects (home : Pid) (places : List Nat) (x y : Execution × Supervisor) : Prop
    extends Goes home x y where
  phase : y.1.phase = x.1.phase
  running : ∀ i (run : StageRun) pid, y.1.stages[i]? = some run → run.progress = .running pid →
    (∃ before, x.1.stages[i]? = some before ∧ before.progress = .running pid)
      ∧ (i ∈ places → x.2.host.world.isAlive pid = true)

namespace Collects

variable {x y z : Execution × Supervisor} {places more : List Nat}

theorem refl (h : x.1.Ready home)
    (hplaces : ∀ i ∈ places, ∀ (run : StageRun) pid, x.1.stages[i]? = some run →
      run.progress = .running pid → x.2.host.world.isAlive pid = true) :
    Collects home places x x where
  toGoes := .refl h
  phase := rfl
  running i run pid hrun hprogress :=
    ⟨⟨run, hrun, hprogress⟩, fun hi => hplaces i hi run pid hrun hprogress⟩

theorem trans (h : Collects home places x y) (h' : Collects home more y z) :
    Collects home (places ++ more) x z where
  toGoes := h.toGoes.trans h'.toGoes
  phase := h'.phase.trans h.phase
  running i run pid hrun hprogress := by
    obtain ⟨⟨before, hbefore, hprogress'⟩, hlater⟩ := h'.running i run pid hrun hprogress
    obtain ⟨hfirst, hearlier⟩ := h.running i before pid hbefore hprogress'
    refine ⟨hfirst, fun hi => ?_⟩
    rcases List.mem_append.mp hi with hi | hi
    · exact hearlier hi
    · exact h.alive pid (hlater hi)

end Collects

theorem isAlive_of_wait? (h : s.wait? pid = none) : s.host.world.isAlive pid = true := by
  unfold wait? at h
  split at h
  · cases h
  · rename_i p hp
    split at h
    · rename_i hending
      unfold World.ending? at hending
      rw [hp] at hending
      refine World.isAlive_iff.mpr ⟨p, hp, fun status hactivity => ?_⟩
      dsimp only at hending
      rw [hactivity] at hending
      cases hending
    · cases h

/-- The wait for the process of a stage has returned. -/
theorem collects_leave {index : Nat} {run : StageRun} {world : World} (h : e.Ready home)
    (hrun : e.stages[index]? = some run) (hprogress : run.progress = .running pid)
    (result : Except OsError WaitStatus)
    (halive : ∀ other, world.isAlive other = true → s.host.world.isAlive other = true) :
    Collects home [index] (e, s)
      (applyAll { s with host := { s.host with world } } e (Execution.leave index result)) := by
  obtain ⟨e', effects, hsteps, hphase, hstages⟩ := h.run?_leave hrun hprogress result
  rw [applyAll_eq hsteps]
  have hquiet : ∀ group signal, .signalGroup group signal ∉ effects := by
    intro group signal hmem
    have hnone := outward_eq_nil_iff.mp (Execution.outward_leave hsteps) _ hmem
    cases hnone
  exact
    { ready := h.leave hsteps hphase hstages
      terminal := terminal_foldl_perform ..
      path := fun hattached seat => by
        have hpath := @path_of_run? { s with host := { s.host with world } } _ _ _ _ hattached
          hsteps (by simp [Execution.leave]) seat
        rwa [scene_setWorld] at hpath
      alive := fun pid hpid => by
        rw [isAlive_foldl_perform hquiet] at hpid
        exact halive pid hpid
      pids := by
        rw [pidsOf, pidsOf, hstages]
        exact Execution.filterMap_modify_sublist (fun _ => rfl) ..
      phase := hphase
      running := fun i after other hafter hrunning => by
        dsimp only at hafter
        rw [hstages, List.getElem?_modify] at hafter
        obtain ⟨before, hbefore, rfl⟩ := Option.map_eq_some_iff.mp hafter
        split at hrunning
        · cases hrunning
        · rename_i hne
          exact ⟨⟨before, hbefore, hrunning⟩,
            fun hi => (hne (List.mem_singleton.mp hi).symm).elim⟩ }

theorem collects_collectStage (s : Supervisor) (h : e.Ready home) (index : Nat) : Collects home [index] (e, s) (s.collectStage e index) := by
  unfold collectStage
  split
  · rename_i hnone
    refine .refl h fun i hi run pid hrun => ?_
    obtain rfl := List.mem_singleton.mp hi
    rw [hnone] at hrun
    cases hrun
  rename_i run hrun
  split
  · rename_i pid hprogress
    split
    · rename_i result s₁ hwait
      obtain ⟨world, rfl, halive⟩ := wait?_eq_some hwait
      exact collects_leave h hrun hprogress result halive
    · rename_i hwait
      refine .refl h fun i hi other pid' hother hprogress' => ?_
      obtain rfl := List.mem_singleton.mp hi
      obtain rfl := Option.some.inj (hrun.symm.trans hother)
      obtain rfl := Progress.running.inj (hprogress.symm.trans hprogress')
      exact isAlive_of_wait? hwait
  · rename_i hnot
    refine .refl h fun i hi other pid hother hprogress => ?_
    obtain rfl := List.mem_singleton.mp hi
    obtain rfl := Option.some.inj (hrun.symm.trans hother)
    exact (hnot pid hprogress).elim

theorem collects_collectStages (s : Supervisor) (h : e.Ready home) :
    Collects home (List.range e.stages.length) (e, s) (s.collectStages e) := by
  unfold collectStages
  generalize List.range e.stages.length = indices
  induction indices generalizing s e with
  | nil => exact .refl h nofun
  | cons index rest ih =>
      have hfirst := collects_collectStage s h index
      exact hfirst.trans (ih _ hfirst.ready)

/-- Afterwards only processes that were alive are still waited for. -/
theorem isAlive_of_collectStages (h : e.Ready home)
    (hpid : pid ∈ pidsOf (s.collectStages e).1) : s.host.world.isAlive pid = true := by
  obtain ⟨run, hmem, hprogress⟩ := Execution.mem_pidsOf_iff.mp hpid
  obtain ⟨i, hi⟩ := List.getElem?_of_mem hmem
  obtain ⟨⟨before, hbefore, -⟩, halive⟩ :=
    (collects_collectStages s h).running i run pid hi hprogress
  exact halive (List.mem_range.mpr (List.getElem?_eq_some_iff.mp hbefore).1)

/-! ## Collecting jobs -/

/-- Behind the barrier only the phase of a job changes. -/
theorem goes_apply {event : Event} (s : Supervisor) (h : e.Ready home)
    (hevent : event = .passedBarrier ∨ event = .noticeTaken) :
    Goes home (e, s) (s.apply e event) := by
  unfold apply
  split
  case h_2 => exact .refl h
  rename_i e' effects hstep
  have hmove := Execution.move_of_step hstep
  obtain ⟨hstages, hbegun⟩ : e'.stages = e.stages ∧ e'.phase ≠ .starting := by
    rcases hevent with rfl | rfl
    · cases hmove with
      | passed hopen hafter =>
          refine ⟨rfl, ?_⟩
          rintro rfl
          cases hphase : e.phase <;> rw [hphase] at hafter <;> cases hafter
    · cases hmove with
      | noticed hphase => exact ⟨rfl, nofun⟩
  have hquiet : ∀ group signal, .signalGroup group signal ∉ effects := by
    intro group signal hmem
    have houtward : .signalGroup group signal ∈ e.outwardWith event :=
      Execution.outward_of_step hstep ▸ List.mem_filter.mpr ⟨hmem, rfl⟩
    rcases hevent with rfl | rfl
    · rw [Execution.outwardWith] at houtward
      split at houtward <;> (try split at houtward) <;> simp at houtward
    · exact List.not_mem_nil houtward
  exact
    { ready := ⟨h.ran.step hstep, hbegun, hstages ▸ h.resting⟩
      terminal := terminal_foldl_perform ..
      path := fun hattached seat => .single (step_scene hattached hstep
        (fun pid heq => by rcases hevent with rfl | rfl <;> cases heq) seat)
      alive := fun pid hpid => by rwa [isAlive_foldl_perform hquiet] at hpid
      pids := by
        rw [pidsOf, hstages]
        exact .refl _ }

theorem isBackground_apply {event : Event} (hphase : e.phase.isBackground = true) :
    (s.apply e event).1.phase.isBackground = true := by
  unfold apply
  split
  · rename_i hstep
    exact (Execution.move_of_step hstep).isBackground hphase
  · exact hphase

theorem goes_leaveNotice (s : Supervisor) (h : e.Ready home) :
    Goes home (e, s) (s.leaveNotice e) := by
  unfold leaveNotice
  split
  case h_2 => exact .refl h
  have hpassed := goes_apply s h (Or.inl rfl)
  dsimp only
  split
  · exact hpassed
  · exact hpassed.trans (goes_apply _ hpassed.ready (Or.inr rfl))

theorem isBackground_leaveNotice (hphase : e.phase.isBackground = true) :
    (s.leaveNotice e).1.phase.isBackground = true := by
  unfold leaveNotice
  split
  · dsimp only
    split
    · exact isBackground_apply hphase
    · exact isBackground_apply (isBackground_apply hphase)
  · exact hphase

/-- Some jobs in the background went on, next to others. -/
structure Gathers (home : Pid) (s s' : Supervisor) (jobs jobs' : List Execution) : Prop where
  ready : ∀ e ∈ jobs', e.Ready home ∧ e.phase.isBackground = true
  terminal : s'.terminal = s.terminal
  path : s.terminal.isAttached = true → ∀ active before after,
    Scene.Path (s.scene active (before ++ (jobs ++ after)))
      (s'.scene active (before ++ (jobs' ++ after)))
  alive : ∀ pid, s'.host.world.isAlive pid = true → s.host.world.isAlive pid = true
  pids : (jobs'.flatMap pidsOf).Sublist (jobs.flatMap pidsOf)
  /-- Only processes that were alive are still waited for. -/
  waited : ∀ pid ∈ jobs'.flatMap pidsOf, s.host.world.isAlive pid = true

theorem gathers_collectJob (s : Supervisor) (h : e.Ready home)
    (hphase : e.phase.isBackground = true) :
    Gathers home s (s.collectJob e).2 [e] [(s.collectJob e).1] := by
  have hstages := collects_collectStages s h
  have hwaited := fun pid => @isAlive_of_collectStages home s e pid h
  have hleft := goes_leaveNotice (s.collectStages e).2 hstages.ready
  have hgoes := hstages.toGoes.trans hleft
  have hphase' := isBackground_leaveNotice (s := (s.collectStages e).2)
    (hstages.phase.symm ▸ hphase)
  exact
    { ready := List.forall_mem_singleton.mpr ⟨hgoes.ready, hphase'⟩
      terminal := hgoes.terminal
      path := fun hattached active before after =>
        hgoes.path hattached (.behind active before after)
      alive := hgoes.alive
      pids := by
        rw [List.flatMap_singleton, List.flatMap_singleton]
        exact hgoes.pids
      waited := fun pid hpid => by
        rw [List.flatMap_singleton] at hpid
        exact hwaited pid (hleft.pids.subset hpid) }

theorem Gathers.append {s' s'' : Supervisor} {jobs jobs' more more' : List Execution}
    (h : Gathers home s s' jobs jobs') (h' : Gathers home s' s'' more more') :
    Gathers home s s'' (jobs ++ more) (jobs' ++ more') where
  ready := List.forall_mem_append.mpr ⟨h.ready, h'.ready⟩
  terminal := h'.terminal.trans h.terminal
  path hattached active before after := by
    have hfirst := h.path hattached active before (more ++ after)
    have hrest := h'.path (h.terminal.symm ▸ hattached) active (before ++ jobs') after
    simp only [List.append_assoc] at hrest ⊢
    exact hfirst.trans hrest
  alive pid halive := h.alive pid (h'.alive pid halive)
  pids := by
    rw [List.flatMap_append, List.flatMap_append]
    exact h.pids.append h'.pids
  waited pid hpid := by
    rw [List.flatMap_append, List.mem_append] at hpid
    rcases hpid with hpid | hpid
    · exact h.waited pid hpid
    · exact h.alive pid (h'.waited pid hpid)

theorem gathers_foldl_collectJob {todo : List Execution}
    (htodo : ∀ e ∈ todo, e.Ready home ∧ e.phase.isBackground = true) (done : List Execution) :
    ∃ jobs s', todo.foldl (fun (jobs, s) e => let (e, s) := collectJob s e; (jobs ++ [e], s))
        (done, s) = (done ++ jobs, s')
      ∧ Gathers home s s' todo jobs := by
  induction todo generalizing s done with
  | nil =>
      refine ⟨[], s, by rw [List.append_nil]; rfl, ?_⟩
      exact ⟨nofun, rfl, fun _ _ _ _ => .refl, fun _ halive => halive, .refl _, nofun⟩
  | cons e todo ih =>
      obtain ⟨⟨hready, hphase⟩, hrest⟩ := List.forall_mem_cons.mp htodo
      have hfirst := gathers_collectJob s hready hphase
      obtain ⟨jobs, s', hfold, hgathers⟩ :=
        ih (s := (s.collectJob e).2) hrest (done ++ [(s.collectJob e).1])
      refine ⟨(s.collectJob e).1 :: jobs, s', ?_, ?_⟩
      · rw [List.foldl_cons]
        refine hfold.trans ?_
        rw [List.append_assoc, List.singleton_append]
      · exact hfirst.append hgathers

/-- The shell looks after the jobs in the background. -/
def Tended (home : Pid) (s : Supervisor) : Prop :=
  ∀ e ∈ s.background, e.Ready home ∧ e.phase.isBackground = true

/-- The jobs in the background go on, and those that are done are not looked
after any more. -/
structure Tends (home : Pid) (s s' : Supervisor) : Prop where
  tended : s'.Tended home
  terminal : s'.terminal = s.terminal
  path : s.terminal.isAttached = true →
    ∀ active, Scene.Path (s.scene active s.background) (s'.scene active s'.background)
  alive : ∀ pid, s'.host.world.isAlive pid = true → s.host.world.isAlive pid = true
  pids : s'.watched.Sublist s.watched
  waited : ∀ pid ∈ s'.watched, s.host.world.isAlive pid = true

theorem tends_collect (h : s.Tended home) : Tends home s s.collect := by
  obtain ⟨jobs, s', hfold, hgathers⟩ := gathers_foldl_collectJob h []
  have hcollect : s.collect = { s' with background := jobs.filter (!isDone ·) } := by
    rw [collect, hfold]
    rfl
  have hsublist : (jobs.filter (!isDone ·)).Sublist jobs := List.filter_sublist ..
  have hpath := fun hattached active => hgathers.path hattached active [] []
  simp only [List.nil_append, List.append_nil] at hpath
  have hpids : ((jobs.filter (!isDone ·)).flatMap pidsOf).Sublist (jobs.flatMap pidsOf) :=
    hsublist.flatMap pidsOf
  rw [hcollect]
  exact
    { tended := fun e he => hgathers.ready e (hsublist.subset he)
      terminal := hgathers.terminal
      path := fun hattached active => (hpath hattached active).tail (.forgotten hsublist)
      alive := hgathers.alive
      pids := hpids.trans hgathers.pids
      waited := fun pid hpid => hgathers.waited pid (hpids.subset hpid) }

end Supervisor

end JobShell
