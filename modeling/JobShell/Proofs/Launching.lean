import JobShell.Proofs.Collecting
import JobShell.Proofs.Starting

/-!
# Starting the stages of a job

The stages of a job are started one after the other, up to the first one that
fails. After any number of them the job is at a scene that a path leads to
(`starts_startStages`), and when all of them were asked for, its threads wait
(`Starts.ready`).
-/

namespace JobShell

open Machine (NodeId Pid)

/-- Whether no more stages of a job are started, and nothing was waited for
yet. -/
def Phase.isLaunched : Phase → Bool
  | waitingForeground | runningBackground | terminating _ | failed _ => true
  | starting | posting | killing _ | doneForeground | doneBackground => false

namespace Execution

variable {home : Pid} {e e' : Execution} {event : Event}

/-- While the stages are started, there is a next one. -/
theorem Arranged.exists_next {total : Nat} {pids : List Pid} (h : e.Arranged total pids)
    (hphase : e.phase = .starting) : ∃ s, e.next? = some s := by
  have hlt : pids.length < e.stages.length := by
    have hallows := h.phase
    rw [hphase] at hallows
    rw [h.length]
    exact hallows
  have hs := List.getElem?_eq_getElem hlt
  have hidle := h.idle _ _ hs (Nat.le_refl _)
  rw [hphase] at hidle
  refine Option.isSome_iff_exists.mp (List.find?_isSome.mpr ⟨_, List.mem_of_getElem? hs, ?_⟩)
  exact decide_eq_true hidle

theorem exists_step_started {s : StageRun} (hphase : e.phase = .starting)
    (hnext : e.next? = some s) (pid : Pid) :
    ∃ e' effects, e.step (.started pid) = some (e', effects) := by
  simp only [step, hphase, hnext]
  exact ⟨_, _, rfl⟩

theorem exists_step_failedToStart {s : StageRun} (hphase : e.phase = .starting)
    (hnext : e.next? = some s) (failure : Failure) :
    ∃ e' effects, e.step (.failedToStart failure) = some (e', effects) := by
  simp only [step, hphase, hnext]
  exact ⟨_, _, rfl⟩

/-- Nobody waits for a process while stages are started. -/
theorem Move.isResting (h : Move e event e')
    (hevent : (∃ pid, event = .started pid) ∨ ∃ failure, event = .failedToStart failure)
    (hresting : ∀ s ∈ e.stages, s.progress.isResting = true) :
    ∀ s ∈ e'.stages, s.progress.isResting = true := by
  cases h with
  | started _ _ _ | startedLast _ _ _ =>
      exact forall_mem_modify hresting fun _ => rfl
  | gaveUp _ _ =>
      intro s hs
      obtain ⟨t, ht, rfl⟩ := List.mem_map.mp hs
      unfold StageRun.drop
      split
      · rfl
      · exact hresting t ht
  | _ => rcases hevent with ⟨_, heq⟩ | ⟨_, heq⟩ <;> cases heq

end Execution

namespace Supervisor

variable {home : Pid} {s : Supervisor} {e : Execution} {directory : NodeId}
  {environment : Environment}

/-! ## One stage -/

/-- The machine starts a stage: the process that is split off takes the
terminal if it leads a job in the foreground. -/
theorem path_start {r : StartRequest} {result : Except OsError Pid} {host : Host}
    (hphase : e.phase = .starting) (hgroup : r.group = e.group?)
    (htakes : r.takesTerminal = e.nextTakesTerminal)
    (hok : s.host.start directory r = (result, host)) (background : List Execution) :
    Scene.Path (s.scene (some e) background) ({ s with host }.scene (some e) background)
      ∧ ∀ pid, result = .ok pid → e.nextTakesTerminal = true →
        host.shell.foreground = some pid := by
  rcases Host.foreground_of_start hok with ⟨hforeground, hnot⟩ | ⟨htaken, pid, hforeground, hpid⟩
  · refine ⟨?_, fun pid hresult htaken => (hnot (htakes.trans htaken) pid hresult).elim⟩
    rw [scene, scene, hforeground]
    exact .refl
  · rw [htakes] at htaken
    have hnone : e.group? = none :=
      Option.isNone_iff_eq_none.mp (Bool.and_eq_true_iff.mp htaken).1
    rw [hgroup, hnone, Option.getD_none] at hforeground
    refine ⟨?_, fun started hresult _ => hpid started hresult ▸ hforeground⟩
    have htook := @Scene.Step.took (s.scene (some e) background) e pid rfl hphase htaken
    rw [scene, scene, hforeground]
    exact .single htook

theorem startStages_eq_self (hnext : e.next? = none) (count : Nat) :
    s.startStages directory environment e count = (e, s) := by
  cases count with
  | zero => rfl
  | succ count =>
      unfold startStages
      rw [hnext]

/-- The machine was asked to start a stage, and its answer has reached the
job. -/
theorem path_answered {result : Except OsError Pid} {host : Host} {event : Event} {e' : Execution}
    {effects : List Effect} {r : StartRequest} (hattached : s.terminal.isAttached = true)
    (hphase : e.phase = .starting) (hgroup : r.group = e.group?)
    (htakes : r.takesTerminal = e.nextTakesTerminal)
    (hok : s.host.start directory r = (result, host))
    (hstep : e.step event = some (e', effects))
    (hevent : ∀ pid, event = .started pid → result = .ok pid) (background : List Execution) :
    Scene.Path (s.scene (some e) background)
      ((effects.foldl perform { s with host }).scene (some e') background) := by
  obtain ⟨hpath, htaken⟩ := path_start hphase hgroup htakes hok background
  have hacted := @step_scene { s with host } _ _ _ _ hattached hstep
    (fun pid heq => htaken pid (hevent pid heq)) (.front background)
  exact hpath.tail hacted

/-! ## All stages -/

/-- So many stages of a job were asked for. Either there are more, or the job
is launched because these were all of them or because one has failed. -/
structure Starts (home : Pid) (total asked : Nat) (x y : Execution × Supervisor) : Prop where
  ran : y.1.Ran home
  resting : ∀ run ∈ y.1.stages, run.progress.isResting = true
  phase : y.1.phase = .starting ∧ asked < total ∨ y.1.phase.isLaunched = true
  terminal : y.2.terminal = x.2.terminal
  background : y.2.background = x.2.background
  path : x.2.terminal.isAttached = true → ∀ background,
    Scene.Path (x.2.scene (some x.1) background) (y.2.scene (some y.1) background)

theorem Starts.isLaunched {total : Nat} {x y : Execution × Supervisor}
    (h : Starts home total total x y) : y.1.phase.isLaunched = true := by
  rcases h.phase with ⟨-, hlt⟩ | hlaunched
  · exact (Nat.lt_irrefl _ hlt).elim
  · exact hlaunched

theorem Starts.ready {total : Nat} {x y : Execution × Supervisor}
    (h : Starts home total total x y) : y.1.Ready home := by
  refine ⟨h.ran, fun hstarting => ?_, h.resting⟩
  have hlaunched := h.isLaunched
  rw [hstarting] at hlaunched
  cases hlaunched

theorem starts_startStages {total count asked : Nat} {pids : List Pid}
    (hran : e.Ran home)
    (hresting : ∀ run ∈ e.stages, run.progress.isResting = true) (hphase : e.phase = .starting)
    (harranged : e.Arranged total pids) (hasked : pids.length + count = asked) :
    Starts home total asked (e, s) (s.startStages directory environment e count) := by
  induction count generalizing s e pids with
  | zero =>
      have hlt := harranged.phase
      rw [hphase] at hlt
      exact ⟨hran, hresting, Or.inl ⟨hphase, hasked ▸ hlt⟩, rfl, rfl, fun _ _ => .refl⟩
  | succ count ih =>
      obtain ⟨next, hnext⟩ := harranged.exists_next hphase
      have htakes : s.terminal.isAttached = true →
          (e.nextTakesTerminal && s.terminal.isAttached) = e.nextTakesTerminal := by
        intro hattached
        rw [hattached, Bool.and_true]
      unfold startStages
      rw [hnext]
      dsimp only
      split
      · rename_i pid host hstart
        obtain ⟨e', effects, hstep⟩ := Execution.exists_step_started hphase hnext pid
        rw [apply_eq hstep]
        have hmove := Execution.move_of_step hstep
        have hpath := fun hattached => path_answered hattached hphase rfl (htakes hattached)
          hstart hstep (fun _ heq => congrArg Except.ok (Event.started.inj heq))
        have hterminal := terminal_foldl_perform { s with host } effects
        have hbackground := background_foldl_perform { s with host } effects
        have hresting' := hmove.isResting (Or.inl ⟨pid, rfl⟩) hresting
        by_cases hstarting : e'.phase = .starting
        · have hasked' : (pids ++ [pid]).length + count = asked := by
            rw [List.length_append, List.length_singleton]
            omega
          have hrest := ih (s := effects.foldl perform { s with host }) (hran.step hstep)
            hresting' hstarting (harranged.move hmove) hasked'
          exact
            { ran := hrest.ran
              resting := hrest.resting
              phase := hrest.phase
              terminal := hrest.terminal.trans hterminal
              background := hrest.background.trans hbackground
              path := fun hattached background => (hpath hattached background).trans
                (hrest.path (hterminal.symm ▸ hattached) background) }
        · obtain ⟨hlast, hlaunched⟩ : e'.next? = none ∧ e'.phase.isLaunched = true := by
            cases hmove with
            | started _ _ _ => exact (hstarting hphase).elim
            | startedLast _ _ hlast =>
                refine ⟨hlast, ?_⟩
                dsimp only
                split <;> rfl
          rw [startStages_eq_self hlast]
          exact
            { ran := hran.step hstep
              resting := hresting'
              phase := Or.inr hlaunched
              terminal := hterminal
              background := hbackground
              path := hpath }
      · rename_i cause host hstart
        obtain ⟨e', effects, hstep⟩ :=
          Execution.exists_step_failedToStart hphase hnext (.spawn next.prepared.path cause)
        rw [apply_eq hstep]
        have hmove := Execution.move_of_step hstep
        have hlaunched : e'.phase.isLaunched = true := by
          cases hmove with
          | gaveUp _ _ =>
              dsimp only
              split <;> rfl
        exact
          { ran := hran.step hstep
            resting := hmove.isResting (Or.inr ⟨_, rfl⟩) hresting
            phase := Or.inr hlaunched
            terminal := terminal_foldl_perform { s with host } effects
            background := background_foldl_perform { s with host } effects
            path := fun hattached =>
              path_answered hattached hphase rfl (htakes hattached) hstart hstep nofun }

/-- The state when so many stages of a job were asked for. -/
def launch (s : Supervisor) (directory : NodeId) (environment : Environment) (callerGroup : Pid)
    (job : Job) (count : Nat) : Execution × Supervisor :=
  let e := Execution.ofJob job callerGroup
  (s.perform (e.transition .created .started)).startStages directory environment e count

theorem starts_launch {p : Pipeline} {job : Job} (hjob : job.BuiltFrom p) (home : Pid) (count : Nat) :
    Starts home job.stages.length count (.ofJob job home, s)
      (s.launch directory environment home job count) := by
  have hlog : ∀ active background,
      (s.perform ((Execution.ofJob job home).transition .created .started)).scene active background
        = s.scene active background := fun active background => by
    rw [scene, scene]
    exact congrArg (Scene.mk · _ _ _)
      (congrArg Machine.Outside.foreground (Host.writes_log s.host _ _).shell)
  have hresting : ∀ run ∈ (Execution.ofJob job home).stages, run.progress.isResting = true := by
    intro run hrun
    obtain ⟨prepared, -, rfl⟩ := List.mem_map.mp hrun
    rfl
  have hstarts := @starts_startStages home
    (s.perform ((Execution.ofJob job home).transition .created .started)) _ directory environment _
    count count [] (Execution.ran_ofJob hjob home) hresting rfl
    (Execution.arranged_ofJob hjob.numbered hjob.nonempty home) (Nat.zero_add _)
  have hpath := hstarts.path
  simp only [hlog] at hpath
  exact ⟨hstarts.ran, hstarts.resting, hstarts.phase, hstarts.terminal, hstarts.background, hpath⟩

end Supervisor

end JobShell
