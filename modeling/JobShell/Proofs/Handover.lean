import JobShell.Proofs.Launching
import JobShell.Proofs.Truncation
import JobShell.Proofs.Waiting

/-!
# The terminal comes back after every line

What a session does is a path of scenes: only the process of a first stage
takes the terminal when it is started, and everything else that a line does
with it are effects of its job. So whatever the shell passes while it runs a
job is a scene that is reached (`Supervisor.reached_of_passes`). As a job that
is waited for always passes its barrier, a line ends in a scene without a job
that is executed, and the terminal is where it was
(`Session.returned_of_runTurns`).
-/

namespace JobShell

open Machine (World NodeId Pid Outside Process)

namespace Host

theorem foreground_buildJob (h : Host) (directory : NodeId) (searchPath : Bytes) (p : Pipeline) :
    (h.buildJob directory searchPath p).2.shell.foreground = h.shell.foreground := by
  unfold buildJob
  split
  · rfl
  obtain ⟨entries, hlogged⟩ := exists_logAll_prepareStages h directory searchPath 0 p.stages
  have hfound := congrArg Outside.foreground (writes_logAll h entries).shell
  split
  · rename_i hprepare
    rw [hprepare] at hlogged
    obtain rfl := hlogged
    exact hfound
  rename_i prepared h₁ hprepare
  rw [hprepare] at hlogged
  obtain rfl := hlogged
  split
  · rename_i hconnect
    obtain ⟨⟨ends, hconnected⟩, -⟩ := connected_of_connectStages hconnect
    exact (foreground_closeAll ..).trans (hconnected.extends_.foreground.trans hfound)
  rename_i connected h₂ hconnect
  obtain ⟨⟨ends, hconnected⟩, -⟩ := connected_of_connectStages hconnect
  have hpipes := hconnected.extends_.foreground.trans hfound
  have hbuilt : ∀ {failed : Option Failure} {built : List PreparedStage} {h₃ : Host},
      h₂.buildStages directory connected = (failed, built, h₃) →
      h₃.shell.foreground = h.shell.foreground := by
    intro failed built h₃ hbuild
    obtain ⟨opened, h₄, happlied, fds, rfl⟩ := applied_of_buildStages hbuild
    refine (foreground_closeAll ..).trans ?_
    cases happlied with
    | all hopened _ | upTo hopened _ _ => exact hopened.extends_.foreground.trans hpipes
  split
  · rename_i hbuild
    exact (foreground_closeAll ..).trans (hbuilt hbuild)
  · rename_i hbuild
    exact (congrArg Outside.foreground (writes_log ..).shell).trans (hbuilt hbuild)

end Host

/-! ## Running a job -/

namespace Execution

variable {e : Execution}

/-- A job that the shell waits for is over behind its barrier. -/
theorem exists_step_passed (hopen : e.barrier.isOpen = true) (hwaiting : e.phase.isWaiting = true) :
    ∃ e' effects, e.step .passedBarrier = some (e', effects) ∧ e'.phase.isOver = true := by
  simp only [step, hopen, if_true, pass]
  cases hphase : e.phase with
  | waitingForeground | terminating failure | killing failure => exact ⟨_, _, rfl, rfl⟩
  | _ =>
      rw [hphase] at hwaiting
      cases hwaiting

end Execution

namespace Supervisor

variable {home : Pid} {s : Supervisor} {e : Execution} {directory : NodeId}
  {environment : Environment}

/-- The shell does not execute the job any more. -/
structure Leaves (home : Pid) (x : Execution × Supervisor) (s : Supervisor) : Prop where
  tended : s.Tended home
  terminal : s.terminal = x.2.terminal
  path : x.2.terminal.isAttached = true →
    Scene.Path (x.2.scene (some x.1) x.2.background) (s.scene none s.background)

theorem Waits.leaves {x y : Execution × Supervisor} {s : Supervisor} (h : Waits home x y)
    (h' : Leaves home y s) : Leaves home x s :=
  ⟨h'.tended, h'.terminal.trans h.terminal,
    fun hattached => (h.path hattached).trans (h'.path (h.terminal.symm ▸ hattached))⟩

/-- The shell passes the barrier of the job it waited for, and goes on. -/
theorem leaves_passed (h : s.Tended home) (hopen : e.barrier.isOpen = true)
    (hwaiting : e.phase.isWaiting = true) : Leaves home (e, s) (s.apply e .passedBarrier).2 := by
  obtain ⟨e', effects, hstep, hover⟩ := Execution.exists_step_passed hopen hwaiting
  rw [apply_eq hstep]
  have hbackground := background_foldl_perform s effects
  refine ⟨?_, terminal_foldl_perform s effects, fun hattached => ?_⟩
  · rw [Tended, hbackground]
    exact h
  · have hpassed := step_scene hattached hstep (by simp) (.front s.background)
    rw [hbackground]
    exact (Relation.ReflTransGen.single hpassed).tail (.returned rfl hover)

/-- Waits until a job is over. -/
def waitFor (s : Supervisor) (e : Execution) : Supervisor :=
  ((s.await e none).2.apply (s.await e none).1 .passedBarrier).2

theorem leaves_waitFor (h : s.Tended home) (hready : e.Ready home)
    (hwaiting : e.phase.isWaiting = true) : Leaves home (e, s) (s.waitFor e) := by
  have hwaits := waits_await none h hready
  have hopen := isOpen_await h hready
  have hpassed := leaves_passed hwaits.tended hopen (hwaits.waiting hwaiting)
  exact hwaits.leaves hpassed

/-- The time is over, and the job is killed unless it has ended. -/
theorem waits_graceExpired (h : s.Tended home) (hready : e.Ready home) :
    Waits home (e, s) (s.apply e .graceExpired) := by
  cases hstep : e.step .graceExpired with
  | none =>
      rw [apply_eq_self hstep]
      exact .refl hready h
  | some after =>
      obtain ⟨e', effects⟩ := after
      rw [apply_eq hstep]
      have hbackground := background_foldl_perform s effects
      have hran := hready.ran.step hstep
      cases Execution.move_of_step hstep with
      | killed _ _ =>
          exact
            { ready := ⟨hran, by simp, hready.resting⟩
              waiting := fun _ => rfl
              tended := by
                rw [Tended, hbackground]
                exact h
              terminal := terminal_foldl_perform s effects
              path := fun hattached => by
                have hkilled := step_scene hattached hstep (by simp) (.front s.background)
                rw [hbackground]
                exact .single hkilled }

/-- Waits for the stages of a job that were asked to end, and kills them when
they take too long. -/
def kill (s : Supervisor) (e : Execution) : Execution × Supervisor :=
  let (e, s) := s.await e (some (s.host.world.clock + gracePeriod))
  s.apply e .graceExpired

theorem waits_kill (h : s.Tended home) (hready : e.Ready home) :
    Waits home (e, s) (s.kill e) := by
  have hasked := waits_await (some (s.host.world.clock + gracePeriod)) h hready
  have hkilled := waits_graceExpired hasked.tended hasked.ready
  exact hasked.trans hkilled

/-- What becomes of a job that was started as far as possible. -/
def conclude (s : Supervisor) (e : Execution) : Supervisor :=
  match e.phase with
  | .waitingForeground => s.waitFor e
  | .terminating _ => (s.kill e).2.waitFor (s.kill e).1
  | .failed _ => s
  | _ => { s with background := s.background ++ [e] }

theorem leaves_conclude (h : s.Tended home) (hready : e.Ready home)
    (hlaunched : e.phase.isLaunched = true) : Leaves home (e, s) (s.conclude e) := by
  unfold conclude
  cases hphase : e.phase with
  | waitingForeground => exact leaves_waitFor h hready (by rw [hphase]; rfl)
  | terminating failure =>
      have hkilled := waits_kill h hready
      have hwaiting := hkilled.waiting (by rw [hphase]; rfl)
      exact hkilled.leaves (leaves_waitFor hkilled.tended hkilled.ready hwaiting)
  | failed failure =>
      exact ⟨h, rfl, fun _ => .single (.returned rfl (by rw [hphase]; rfl))⟩
  | runningBackground =>
      have hbackground : e.phase.isBackground = true := by
        rw [hphase]
        rfl
      refine ⟨?_, rfl, fun _ => .single (.detached rfl hbackground)⟩
      exact List.forall_mem_append.mpr
        ⟨h, List.forall_mem_singleton.mpr ⟨hready, hbackground⟩⟩
  | _ =>
      rw [hphase] at hlaunched
      cases hlaunched

theorem snd_execute (s : Supervisor) (directory : NodeId) (environment : Environment)
    (callerGroup : Pid) (job : Job) :
    (s.execute directory environment callerGroup job).2
      = (s.launch directory environment callerGroup job job.stages.length).2.conclude
          (s.launch directory environment callerGroup job job.stages.length).1 := by
  unfold execute launch conclude
  dsimp only
  generalize startStages _ directory environment _ _ = launched
  obtain ⟨⟨description, foreground, group, stages, barrier, phase⟩, s⟩ := launched
  cases phase <;> rfl

/-- A moment while a job is executed: some of its stages were started, or the
shell has waited for some rounds, before or after it killed the stages. -/
inductive Moment (s : Supervisor) (directory : NodeId) (environment : Environment)
    (callerGroup : Pid) (job : Job) : Execution × Supervisor → Prop
  | starting (count : Nat) :
      Moment s directory environment callerGroup job
        (s.launch directory environment callerGroup job count)
  | waiting {e : Execution} {s' : Supervisor} (deadline : Option Nat) (rounds : Nat)
      (hlaunch : s.launch directory environment callerGroup job job.stages.length = (e, s')) :
      Moment s directory environment callerGroup job (s'.awaitBarrier e deadline rounds)
  | killing {e : Execution} {s' : Supervisor} (rounds : Nat)
      (hlaunch : s.launch directory environment callerGroup job job.stages.length = (e, s')) :
      Moment s directory environment callerGroup job
        ((s'.kill e).2.awaitBarrier (s'.kill e).1 none rounds)

section Executing

variable {p : Pipeline} {job : Job}

/-- The job is launched as far as possible, and the shell waits for it unless
it is in the background. -/
theorem waits_launch (h : s.Tended home) (hjob : job.BuiltFrom p) {x : Execution × Supervisor}
    (hlaunch : s.launch directory environment home job job.stages.length = x) :
    Waits home (.ofJob job home, s) x ∧ x.1.phase.isLaunched = true := by
  subst hlaunch
  have hstarts := @starts_launch s directory environment p job hjob home job.stages.length
  have hbackground := hstarts.background
  refine ⟨⟨hstarts.ready, nofun, ?_, hstarts.terminal, fun hattached => ?_⟩, hstarts.isLaunched⟩
  · rw [Tended, hbackground]
    exact h
  · rw [hbackground]
    exact hstarts.path hattached s.background

theorem path_of_moment (h : s.Tended home) (hattached : s.terminal.isAttached = true)
    (hjob : job.BuiltFrom p) {x : Execution × Supervisor}
    (hmoment : Moment s directory environment home job x) :
    Scene.Path (s.scene (some (.ofJob job home)) s.background)
      (x.2.scene (some x.1) x.2.background) := by
  cases hmoment with
  | starting count =>
      have hstarts := @starts_launch s directory environment p job hjob home count
      rw [hstarts.background]
      exact hstarts.path hattached s.background
  | waiting deadline rounds hlaunch =>
      obtain ⟨hwaits, -⟩ := waits_launch h hjob hlaunch
      have hafter := @waits_awaitBarrier home _ _ deadline rounds hwaits.tended hwaits.ready
      exact (hwaits.trans hafter).path hattached
  | killing rounds hlaunch =>
      obtain ⟨hwaits, -⟩ := waits_launch h hjob hlaunch
      have hkilled := waits_kill hwaits.tended hwaits.ready
      have hafter := @waits_awaitBarrier home _ _ none rounds hkilled.tended hkilled.ready
      exact (hwaits.trans (hkilled.trans hafter)).path hattached

theorem leaves_execute (h : s.Tended home) (hjob : job.BuiltFrom p) :
    Leaves home (.ofJob job home, s) (s.execute directory environment home job).2 := by
  obtain ⟨hwaits, hlaunched⟩ := @waits_launch home s directory environment p job h hjob _ rfl
  rw [snd_execute]
  exact hwaits.leaves (leaves_conclude hwaits.tended hwaits.ready hlaunched)

end Executing

/-! ## Between lines -/

/-- No job is executed, and what came before kept to the scenes. -/
structure AtHome (home : Pid) (s : Supervisor) : Prop where
  attached : s.terminal.isAttached = true
  tended : s.Tended home
  reached : Scene.Reached home (s.scene none s.background)

namespace AtHome

theorem foreground (h : s.AtHome home) : s.host.shell.foreground = some home :=
  (Scene.kept_of_reached h.reached).foreground_of_idle rfl

theorem setHost {host : Host} (h : s.AtHome home)
    (hsame : host.shell.foreground = s.host.shell.foreground) : { s with host }.AtHome home where
  attached := h.attached
  tended := h.tended
  reached := by
    have hreached := h.reached
    rw [scene, ← hsame] at hreached
    exact hreached

end AtHome

/-- The group that the terminal goes back to is the one that had it first. -/
theorem path_asked (h : s.AtHome home) :
    (s.terminal.foregroundGroup s.host).1 = home
      ∧ (s.terminal.foregroundGroup s.host).2.isAttached = true
      ∧ (s.terminal.foregroundGroup s.host).2.foreground? = some home
      ∧ Scene.Path (s.scene none s.background)
        ({ s with terminal := (s.terminal.foregroundGroup s.host).2 }.scene none s.background) := by
  have hkept := Scene.kept_of_reached h.reached
  obtain ⟨fd, hfd⟩ := Option.isSome_iff_exists.mp h.attached
  cases hhome : s.terminal.foreground? with
  | some group =>
      obtain rfl := hkept.asked group hhome
      simp only [TerminalController.foregroundGroup, hhome]
      exact ⟨trivial, h.attached, trivial, .refl⟩
  | none =>
      simp only [TerminalController.foregroundGroup, hhome, hfd, h.foreground, Option.getD_some]
      exact ⟨trivial, rfl, trivial, .single (.asked rfl hhome h.foreground)⟩

/-- The shell has asked for the group and has built a job, or has tried to. -/
theorem atHome_built {p : Pipeline} {result : Except Failure Job} {host : Host}
    (h : s.AtHome home)
    (hbuild : s.host.buildJob directory environment.searchPath p = (result, host)) :
    (s.terminal.foregroundGroup s.host).2.foreground? = some home
      ∧ AtHome home { s with host, terminal := (s.terminal.foregroundGroup s.host).2 } := by
  obtain ⟨-, hattached, hhome, hasked⟩ := path_asked h
  have hready : AtHome home { s with terminal := (s.terminal.foregroundGroup s.host).2 } :=
    ⟨hattached, h.tended, h.reached.trans hasked⟩
  have hbuilds := Host.foreground_buildJob s.host directory environment.searchPath p
  rw [hbuild] at hbuilds
  exact ⟨hhome, hready.setHost hbuilds⟩

theorem atHome_runPipeline (h : s.AtHome home) (p : Pipeline) :
    (s.runPipeline directory environment p).2.AtHome home := by
  obtain ⟨hgroup, -, -, -⟩ := path_asked h
  unfold runPipeline
  split
  · exact h
  dsimp only
  cases hbuild : s.host.buildJob directory environment.searchPath p with
  | mk result host =>
  obtain ⟨hhome, hbuilt⟩ := atHome_built h hbuild
  cases result with
  | error failure => exact hbuilt
  | ok job =>
      have hjob := Host.builtFrom_of_buildJob (congrArg Prod.fst hbuild)
      have hlaunched := hbuilt.reached.tail (.launched rfl hhome hjob)
      have hleaves := @leaves_execute home _ directory environment p job hbuilt.tended hjob
      rw [hgroup]
      exact ⟨hleaves.terminal.symm ▸ hbuilt.attached, hleaves.tended,
        hlaunched.trans (hleaves.path hbuilt.attached)⟩

/-- What the shell passes while it runs the job of some pipeline. -/
def Passes (s : Supervisor) (directory : NodeId) (environment : Environment)
    (x : Execution × Supervisor) : Prop :=
  ∃ p job host, s.host.buildJob directory environment.searchPath p = (.ok job, host)
    ∧ Moment { s with host, terminal := (s.terminal.foregroundGroup s.host).2 } directory
        environment (s.terminal.foregroundGroup s.host).1 job x

theorem reached_of_passes {x : Execution × Supervisor} (h : s.AtHome home)
    (hpasses : s.Passes directory environment x) :
    Scene.Reached home (x.2.scene (some x.1) x.2.background) := by
  obtain ⟨p, job, host, hbuild, hmoment⟩ := hpasses
  obtain ⟨hgroup, -, -, -⟩ := path_asked h
  obtain ⟨hhome, hbuilt⟩ := atHome_built h hbuild
  have hjob := Host.builtFrom_of_buildJob (congrArg Prod.fst hbuild)
  have hlaunched := hbuilt.reached.tail (.launched rfl hhome hjob)
  rw [hgroup] at hmoment
  exact hlaunched.trans (path_of_moment hbuilt.tended hbuilt.attached hjob hmoment)

/-- A job goes on that had to wait for room, and is not looked after any more. -/
theorem tended_resume (h : s.Tended home) (notice : String) :
    (s.resume notice).Tended home ∧ (s.resume notice).terminal = s.terminal
      ∧ (s.terminal.isAttached = true →
        Scene.Path (s.scene none s.background)
          ((s.resume notice).scene none (s.resume notice).background)) := by
  unfold resume
  split
  case h_2 => exact ⟨h, rfl, fun _ => .refl⟩
  rename_i e hfind
  obtain ⟨hposting, front, back, hsplit, hfront⟩ := List.find?_eq_some_iff_append.mp hfind
  have herase : s.background.eraseP (isPosting notice) = front ++ back := by
    rw [hsplit, List.eraseP_append_right _ (by simpa using hfront),
      List.eraseP_cons_of_pos hposting]
  rw [Tended, hsplit] at h
  have hmem : e ∈ front ++ e :: back := List.mem_append_right _ (List.mem_cons_self ..)
  have hgoes := goes_apply s (h e hmem).1 (Or.inr rfl)
  have hsublist : (front ++ back).Sublist (front ++ e :: back) :=
    (List.sublist_cons_self e back).append_left front
  have hsublist' : (front ++ back).Sublist (front ++ (s.apply e .noticeTaken).1 :: back) :=
    (List.sublist_cons_self _ back).append_left front
  dsimp only
  rw [herase, hsplit]
  refine ⟨fun k hk => h k (hsublist.subset hk), hgoes.terminal, fun hattached => ?_⟩
  exact (hgoes.path hattached (.behind none front back)).tail (.forgotten hsublist')

theorem atHome_resume (h : s.AtHome home) (notice : String) : (s.resume notice).AtHome home := by
  obtain ⟨htended, hterminal, hpath⟩ := tended_resume h.tended notice
  exact ⟨hterminal.symm ▸ h.attached, htended, h.reached.trans (hpath h.attached)⟩

/-- What a job that goes on does not change, taking the notices does not. -/
theorem takeNotices_keeps {P : Supervisor → Prop} (h : P { s with notices := s.notices.drain.2 })
    (hresume : ∀ s notice, P s → P (s.resume notice)) : P s.takeNotices.2 := by
  have hall : ∀ (notices : List String) (s : Supervisor), P s → P (notices.foldl resume s) := by
    intro notices
    induction notices with
    | nil => exact fun _ h => h
    | cons notice rest ih => exact fun s h => ih _ (hresume s notice h)
  exact hall _ _ h

theorem atHome_takeNotices (h : s.AtHome home) : s.takeNotices.2.AtHome home :=
  takeNotices_keeps ⟨h.attached, h.tended, h.reached⟩ fun _ notice h => atHome_resume h notice

theorem atHome_awaitBackground (h : s.AtHome home) : s.awaitBackground.AtHome home := by
  obtain ⟨world, heq⟩ := runUntilEnd_eq s s.watched none
  have hrun : AtHome home (s.runUntilEnd s.watched none) := heq ▸ h.setHost rfl
  have htends := tends_collect hrun.tended
  exact ⟨htends.terminal.symm ▸ hrun.attached, htends.tended,
    hrun.reached.trans (htends.path hrun.attached none)⟩

end Supervisor

/-! ## Sessions -/

namespace Session

variable {s s' : Session} {home : Pid}

/-- What a session passes while it runs a job. -/
def Passes (s : Session) (x : Execution × Supervisor) : Prop :=
  s.supervisor.Passes s.directory s.vars.environment x

theorem lasting_atHome (home : Pid) : Lasting (Supervisor.AtHome home) where
  setHost _ _ h hsame := h.setHost hsame
  runPipeline _ _ _ p h := Supervisor.atHome_runPipeline h p
  takeNotices _ h := Supervisor.atHome_takeNotices h
  awaitBackground _ h := Supervisor.atHome_awaitBackground h

/-- A session that has not run a job yet and controls its terminal. -/
theorem atHome_start {fd : Fd} (hterminal : s.supervisor.terminal = { fd? := some fd })
    (hforeground : s.host.shell.foreground = some home)
    (hbackground : s.supervisor.background = []) : s.supervisor.AtHome home where
  attached := by rw [hterminal]; rfl
  tended := by simp [Supervisor.Tended, hbackground]
  reached := by
    have hscene : s.supervisor.scene none s.supervisor.background
        = { foreground := some home } := by
      rw [Supervisor.scene, hterminal, hbackground, ← hforeground]
      rfl
    rw [hscene]
    exact .refl

/-- **The terminal comes back.** Whatever lines a session with a terminal
runs, the terminal is where it was after each of them. Whatever job it runs
next, all that it passes meanwhile are scenes that steps lead to, and in every
such scene the terminal is guarded. -/
theorem returned_of_runTurns {fd : Fd} {turns : List Turn}
    (hterminal : s.supervisor.terminal = { fd? := some fd })
    (hforeground : s.host.shell.foreground = some home)
    (hbackground : s.supervisor.background = []) (hquiet : ∀ turn ∈ turns, turn.IsQuiet) :
    (s.runTurns turns).2.host.shell.foreground = some home
      ∧ (∀ x, (s.runTurns turns).2.Passes x →
          Scene.Reached home (x.2.scene (some x.1) x.2.background))
      ∧ ∀ t, Scene.Reached home t → t.Guarded home := by
  have hafter :=
    (lasting_atHome home).runTurns (atHome_start hterminal hforeground hbackground) hquiet
  exact ⟨hafter.foreground, fun x hpasses => Supervisor.reached_of_passes hafter hpasses,
    fun _ ht => (Scene.kept_of_reached ht).guarded⟩

/-- A session at the terminal of a small machine. -/
def attached : Session where
  vars := .inherit []
  directory := Machine.Tree.root
  supervisor :=
    { host := { Host.small with shell := { Host.small.shell with foreground := some 1 } }
      terminal := { fd? := some 3 }
      notices := .ofCapacity 1 }

/-- Two lines are run, and a process that has taken the terminal fails to
execute its command. -/
theorem returned_attached :
    (attached.runTurns [.line "/a | /a", .line "/a &"]).2.host.shell.foreground = some 1
      ∧ ∃ t t', Scene.Reached 1 t ∧ t.foreground = some 7 ∧ t.Guarded 1
        ∧ Scene.Reached 1 t' ∧ t'.foreground = some 1 ∧ t'.Guarded 1 := by
  have hquiet : ∀ turn ∈ [Turn.line "/a | /a", .line "/a &"], turn.IsQuiet := by simp [Turn.IsQuiet]
  obtain ⟨hforeground, -, hguarded⟩ := returned_of_runTurns (s := attached) rfl rfl rfl hquiet
  have hjob : Job.BuiltFrom ⟨[⟨"cat", ["cat"], [], ∅⟩], true⟩ _ :=
    Job.builtFrom_uniform [] (by simp)
  have hasked : Scene.Reached 1 _ := Relation.ReflTransGen.refl.tail (.asked rfl rfl rfl)
  have hlaunched := hasked.tail (.launched rfl rfl hjob)
  have htook := hlaunched.tail (.took 7 rfl rfl rfl)
  have hfailed := htook.tail
    (@Scene.Step.acted _ _ _ (.failedToStart .emptyPipeline) _ rfl rfl nofun)
  exact ⟨hforeground, _, _, htook, rfl, hguarded _ htook, hfailed, rfl, hguarded _ hfailed⟩

end Session

namespace Shell

/-- A shell leaves the terminal where it was, whatever its input asks for. -/
theorem foreground_loop {s : Shell} {fd : Fd} {home : Pid}
    (hterminal : s.session.supervisor.terminal = { fd? := some fd })
    (hforeground : s.session.host.shell.foreground = some home)
    (hbackground : s.session.supervisor.background = []) {ended : Ending × Shell}
    (hended : s.loop = some ended) : ended.2.session.host.shell.foreground = some home := by
  obtain ⟨turns, hquiet, hafter⟩ := leadsTo_loop hended
  have hstart := Session.atHome_start hterminal hforeground hbackground
  rw [← hafter]
  exact ((Session.lasting_atHome home).runTurns hstart hquiet).foreground

end Shell

end JobShell
