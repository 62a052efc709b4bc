import JobShell.Proofs.Explanation
import JobShell.Proofs.Processes
import JobShell.Proofs.Results
import JobShell.Proofs.Rounds
import JobShell.Proofs.Writing
import JobShell.Shell

/-!
# The supervisor keeps to the traffic

The supervisor runs the jobs of a session in one order of its own. Each of
its operations keeps that the traffic explains what it has (`Explained`), and
so does whatever a session does: after any turns some state that is reached
shows the same notices and jobs (`reached_of_runTurns`). A shell that reads
and runs lines takes such turns (`leadsTo_loop`).
-/

namespace JobShell

open Machine (World NodeId Pid)

namespace Supervisor

variable {capacity : Nat} {printed : List String} {jobs rest : List Execution} {e : Execution}

/-! ## Effects -/

@[simp] theorem background_perform (s : Supervisor) (effect : Effect) :
    (s.perform effect).background = s.background := by
  cases effect with
  | signalGroup group signal =>
      simp only [perform]
      split <;> rfl
  | _ => rfl

theorem notices_perform (s : Supervisor) (effect : Effect) :
    (s.perform effect).notices
      = effect.post?.toList.foldl (fun q notice => (q.post notice).2) s.notices := by
  cases effect with
  | signalGroup group signal =>
      simp only [perform]
      split <;> rfl
  | _ => rfl

theorem background_foldl_perform (s : Supervisor) (effects : List Effect) :
    (effects.foldl perform s).background = s.background := by
  induction effects generalizing s with
  | nil => rfl
  | cons effect rest ih => rw [List.foldl_cons, ih, background_perform]

/-- Of the effects only those that post change the queue. -/
theorem notices_foldl_perform (s : Supervisor) (effects : List Effect) :
    (effects.foldl perform s).notices
      = (posts effects).foldl (fun q notice => (q.post notice).2) s.notices := by
  induction effects generalizing s with
  | nil => rfl
  | cons effect rest ih =>
      rw [List.foldl_cons, ih, notices_perform, posts_cons, List.foldl_append]

/-! ## Events -/

@[simp] theorem background_apply (s : Supervisor) (e : Execution) (event : Event) :
    (s.apply e event).2.background = s.background := by
  unfold apply
  split
  · exact background_foldl_perform ..
  · rfl

theorem explained_apply {s : Supervisor} {event : Event}
    (h : Explained capacity printed (e :: rest) s.notices) (hposts : e.postsWith event = [])
    (htaken : event ≠ .noticeTaken) :
    Explained capacity printed ((s.apply e event).1 :: rest) (s.apply e event).2.notices := by
  unfold apply
  split
  · rename_i e' effects hstep
    dsimp only
    rw [notices_foldl_perform, Execution.posts_of_step hstep, hposts]
    exact h.act hstep hposts htaken
  · exact h

theorem apply_eq {s : Supervisor} {e' : Execution} {event : Event} {effects : List Effect}
    (hstep : e.step event = some (e', effects)) :
    s.apply e event = (e', effects.foldl perform s) := by
  rw [apply, hstep]

theorem apply_eq_self {s : Supervisor} {event : Event} (hstep : e.step event = none) :
    s.apply e event = (e, s) := by
  rw [apply, hstep]

@[simp] theorem background_leaveNotice (s : Supervisor) (e : Execution) :
    (s.leaveNotice e).2.background = s.background := by
  unfold leaveNotice
  split
  · dsimp only
    split
    · exact background_apply ..
    · rw [background_apply, background_apply]
  · rfl

theorem notices_of_leave (s : Supervisor) {e' : Execution} {effects : List Effect}
    (hphase : e.phase = .runningBackground)
    (hstep : e.step .passedBarrier = some (e', effects)) :
    (effects.foldl perform s).notices = (s.notices.post e.notice).2 := by
  have hposts : posts effects = [e.notice] :=
    (Execution.posts_of_step hstep).trans (if_pos hphase)
  rw [notices_foldl_perform, hposts]
  rfl

/-- Whoever waits for a job in the background goes on as far as possible. -/
theorem explained_leaveNotice {s : Supervisor}
    (h : Explained capacity printed (e :: rest) s.notices) :
    Explained capacity printed ((s.leaveNotice e).1 :: rest) (s.leaveNotice e).2.notices := by
  unfold leaveNotice
  split
  case h_2 => exact h
  rename_i hphase
  cases hstep : e.step .passedBarrier with
  | none =>
      have htaken : e.step .noticeTaken = none := by simp only [Execution.step, hphase]
      rw [apply_eq_self hstep]
      dsimp only
      rw [if_neg (Nat.lt_irrefl _), apply_eq_self htaken]
      exact h
  | some next =>
      obtain ⟨e', effects⟩ := next
      have hnotices := notices_of_leave s hphase hstep
      rw [apply_eq hstep]
      dsimp only
      by_cases hroom : s.notices.pending.length < s.notices.capacity
      · rw [NoticeQueue.post_accepted h.listens hroom] at hnotices
        rw [hnotices, if_neg (Nat.lt_irrefl _),
          apply_eq (Execution.step_noticeTaken (Execution.posting_of_leave hphase hstep))]
        show Explained _ _ _ (effects.foldl perform s).notices
        rw [hnotices]
        exact h.leave_accepted hphase hstep hroom
      · rw [NoticeQueue.post_blocked h.listens hroom] at hnotices
        rw [hnotices, if_pos (by simp)]
        dsimp only
        rw [hnotices]
        exact h.leave hphase hstep

/-- Who goes on behind the barrier and is not needed any more. -/
theorem explained_passedBarrier {s : Supervisor}
    (h : Explained capacity printed (e :: rest) s.notices) :
    Explained capacity printed rest (s.apply e .passedBarrier).2.notices := by
  by_cases hphase : e.phase = .runningBackground
  · cases hstep : e.step .passedBarrier with
    | none =>
        rw [apply_eq_self hstep]
        exact h.tail
    | some next =>
        rw [apply_eq hstep]
        dsimp only
        rw [notices_of_leave s hphase hstep]
        by_cases hroom : s.notices.pending.length < s.notices.capacity
        · rw [NoticeQueue.post_accepted h.listens hroom]
          exact (h.leave_accepted hphase hstep hroom).tail
        · rw [NoticeQueue.post_blocked h.listens hroom]
          exact (h.leave hphase hstep).tail
  · have hposts : e.postsWith .passedBarrier = [] := if_neg hphase
    exact (explained_apply h hposts nofun).tail

/-! ## Waiting -/

theorem background_applyAll (s : Supervisor) (e : Execution) (events : List Event) :
    (s.applyAll e events).2.background = s.background := by
  unfold applyAll
  induction events generalizing s e with
  | nil => rfl
  | cons event rest ih => rw [List.foldl_cons, ih, background_apply]

theorem explained_applyAll {s : Supervisor} {events : List Event}
    (h : Explained capacity printed (e :: rest) s.notices)
    (hquiet : ∀ event ∈ events, event ≠ .passedBarrier ∧ event ≠ .noticeTaken) :
    Explained capacity printed ((s.applyAll e events).1 :: rest)
      (s.applyAll e events).2.notices := by
  unfold applyAll
  induction events generalizing s e with
  | nil => exact h
  | cons event events ih =>
      obtain ⟨⟨hpassed, htaken⟩, hquiet⟩ := List.forall_mem_cons.mp hquiet
      have hposts : e.postsWith event = [] := by
        unfold Execution.postsWith
        split
        · exact (hpassed rfl).elim
        · rfl
      exact ih (explained_apply h hposts htaken) hquiet

/-- Waiting for a process only changes the processes, and it revives none. -/
theorem wait?_eq_some {s s' : Supervisor} {pid : Pid}
    {result : Except OsError WaitStatus} (h : s.wait? pid = some (result, s')) :
    ∃ world, s' = { s with host := { s.host with world } }
      ∧ ∀ other, world.isAlive other = true → s.host.world.isAlive other = true := by
  unfold wait? at h
  split at h
  · obtain ⟨-, rfl⟩ := Prod.mk.inj (Option.some.inj h)
    exact ⟨s.host.world, rfl, fun _ halive => halive⟩
  · split at h
    · cases h
    · obtain ⟨-, rfl⟩ := Prod.mk.inj (Option.some.inj h)
      refine ⟨_, rfl, fun other halive => ?_⟩
      rw [World.isAlive_removeProcess, Bool.and_eq_true] at halive
      exact halive.2

theorem background_collectStage (s : Supervisor) (e : Execution) (index : Nat) :
    (s.collectStage e index).2.background = s.background := by
  unfold collectStage
  split
  · rfl
  · split
    · split
      · rename_i hwait
        obtain ⟨world, rfl, -⟩ := wait?_eq_some hwait
        exact background_applyAll ..
      · rfl
    · rfl

theorem explained_collectStage {s : Supervisor}
    (h : Explained capacity printed (e :: rest) s.notices) (index : Nat) :
    Explained capacity printed ((s.collectStage e index).1 :: rest)
      (s.collectStage e index).2.notices := by
  unfold collectStage
  split
  · exact h
  · split
    · split
      · rename_i hwait
        obtain ⟨world, rfl, -⟩ := wait?_eq_some hwait
        exact @explained_applyAll _ _ _ _ { s with host := { s.host with world } } _ h (by simp)
      · exact h
    · exact h

theorem background_collectStages (s : Supervisor) (e : Execution) :
    (s.collectStages e).2.background = s.background := by
  unfold collectStages
  generalize List.range e.stages.length = indices
  induction indices generalizing s e with
  | nil => rfl
  | cons index rest ih => rw [List.foldl_cons, ih, background_collectStage]

theorem explained_collectStages {s : Supervisor}
    (h : Explained capacity printed (e :: rest) s.notices) :
    Explained capacity printed ((s.collectStages e).1 :: rest) (s.collectStages e).2.notices := by
  unfold collectStages
  generalize List.range e.stages.length = indices
  induction indices generalizing s e with
  | nil => exact h
  | cons index indices ih => exact ih (explained_collectStage h index)

theorem explained_collectJob {s : Supervisor}
    (h : Explained capacity printed (e :: rest) s.notices) :
    Explained capacity printed ((s.collectJob e).1 :: rest) (s.collectJob e).2.notices :=
  explained_leaveNotice (explained_collectStages h)

/-- Those in front were collected, then those behind are. -/
theorem explained_foldl_collectJob {todo done : List Execution} {s : Supervisor}
    (h : Explained capacity printed (rest ++ (done ++ todo)) s.notices) :
    Explained capacity printed
      (rest ++ (todo.foldl (fun (jobs, s) e =>
        let (e, s) := collectJob s e; (jobs ++ [e], s)) (done, s)).1)
      (todo.foldl (fun (jobs, s) e =>
        let (e, s) := collectJob s e; (jobs ++ [e], s)) (done, s)).2.notices := by
  induction todo generalizing done s with
  | nil => rwa [List.append_nil] at h
  | cons e todo ih =>
      have hmiddle : ∀ e : Execution,
          (rest ++ (done ++ e :: todo)).Perm (e :: (rest ++ (done ++ todo))) := fun e => by
        rw [← List.append_assoc, ← List.append_assoc]
        exact List.perm_middle
      have hcollected := explained_collectJob (h.subperm (hmiddle e).symm.subperm)
      refine ih (hcollected.subperm ?_)
      rw [List.append_assoc, List.singleton_append]
      exact (hmiddle _).subperm

/-- The threads of all jobs in the background go as far as they can, whatever
other jobs there are. -/
theorem explained_collect {s : Supervisor}
    (h : Explained capacity printed (rest ++ s.background) s.notices) :
    Explained capacity printed (rest ++ s.collect.background) s.collect.notices := by
  have hjobs := @explained_foldl_collectJob _ _ _ s.background [] s h
  exact hjobs.subperm ((List.filter_sublist ..).append_left rest).subperm

theorem runUntilEnd_eq (s : Supervisor) (pids : List Pid) (deadline : Option Nat) :
    ∃ world, s.runUntilEnd pids deadline = { s with host := { s.host with world } } := by
  rw [runUntilEnd]
  generalize World.runUntil _ _ _ _ = result
  rcases result with ⟨_ | _, world⟩
  · rcases deadline with _ | time
    · cases pids <;> exact ⟨_, rfl⟩
    · exact ⟨_, rfl⟩
  · exact ⟨_, rfl⟩

theorem explained_awaitBarrier {s : Supervisor} {deadline : Option Nat} {rounds : Nat}
    (h : Explained capacity printed (e :: s.background) s.notices) :
    Explained capacity printed
      ((s.awaitBarrier e deadline rounds).1 :: (s.awaitBarrier e deadline rounds).2.background)
      (s.awaitBarrier e deadline rounds).2.notices := by
  induction rounds generalizing s e with
  | zero => exact h
  | succ rounds ih =>
      have hstages := explained_collectStages h
      rw [← background_collectStages s e] at hstages
      have hcollect := @explained_collect _ _ [_] _ hstages
      unfold awaitBarrier
      dsimp only
      split
      · exact hcollect
      · split
        · exact hcollect
        · apply ih
          obtain ⟨world, heq⟩ := runUntilEnd_eq (s.collectStages e).2.collect
            (pidsOf (s.collectStages e).1 ++ (s.collectStages e).2.collect.watched) deadline
          rw [heq]
          exact hcollect

theorem explained_await {s : Supervisor} (deadline : Option Nat)
    (h : Explained capacity printed (e :: s.background) s.notices) :
    Explained capacity printed ((s.await e deadline).1 :: (s.await e deadline).2.background)
      (s.await e deadline).2.notices :=
  explained_awaitBarrier h

/-! ## Starting -/

theorem explained_startStages {s : Supervisor} {directory : NodeId}
    {environment : Environment} {count : Nat}
    (h : Explained capacity printed (e :: s.background) s.notices) :
    Explained capacity printed
      ((s.startStages directory environment e count).1
        :: (s.startStages directory environment e count).2.background)
      (s.startStages directory environment e count).2.notices := by
  induction count generalizing s e with
  | zero => exact h
  | succ count ih =>
      unfold startStages
      dsimp only
      split
      · exact h
      · split
        · apply ih
          rw [background_apply]
          exact explained_apply h rfl nofun
        · rw [background_apply]
          exact explained_apply h rfl nofun

/-- A job is run, and it stays if it went into the background. -/
theorem explained_execute {s : Supervisor} {job : Job} {p : Pipeline}
    (h : Explained capacity printed s.background s.notices) (hjob : job.BuiltFrom p)
    (directory : NodeId) (environment : Environment) (callerGroup : Pid) :
    Explained capacity printed
      (s.execute directory environment callerGroup job).2.background
      (s.execute directory environment callerGroup job).2.notices := by
  have hlaunch : Explained capacity printed
      (.ofJob job callerGroup
        :: (s.perform ((Execution.ofJob job callerGroup).transition .created .started)).background)
      (s.perform ((Execution.ofJob job callerGroup).transition .created .started)).notices :=
    h.launch hjob callerGroup
  have hstart := @explained_startStages _ _ _ _ directory environment job.stages.length hlaunch
  unfold execute
  dsimp only
  generalize startStages _ directory environment _ _ = started at hstart ⊢
  obtain ⟨e, s⟩ := started
  dsimp only at hstart ⊢
  split
  · rw [background_apply]
    exact explained_passedBarrier (explained_await none hstart)
  · have hasked := explained_await (some (s.host.world.clock + gracePeriod)) hstart
    generalize s.await e (some (s.host.world.clock + gracePeriod)) = asked at hasked ⊢
    have hkilled := @explained_apply _ _ _ _ _ .graceExpired hasked rfl nofun
    rw [← background_apply asked.2 asked.1 .graceExpired] at hkilled
    have hended := explained_await none hkilled
    rw [background_apply]
    exact explained_passedBarrier hended
  · exact hstart.tail
  · exact hstart.subperm (List.perm_append_singleton ..).subperm

theorem explained_runPipeline {s : Supervisor}
    (h : Explained capacity printed s.background s.notices) (directory : NodeId)
    (environment : Environment) (p : Pipeline) :
    Explained capacity printed (s.runPipeline directory environment p).2.background
      (s.runPipeline directory environment p).2.notices := by
  unfold runPipeline
  split
  · exact h
  dsimp only
  split
  · exact h
  · rename_i job host hbuild
    have hjob : job.BuiltFrom p := Host.builtFrom_of_buildJob (congrArg Prod.fst hbuild)
    exact @explained_execute _ _ { s with host, terminal := _ } _ _ h hjob ..

theorem explained_finishLast {s : Supervisor}
    (h : Explained capacity printed s.background s.notices) :
    Explained capacity printed s.finishLast.2.background s.finishLast.2.notices := by
  unfold finishLast
  split
  · exact h
  · rename_i e hlast
    obtain ⟨front, hfront⟩ := List.getLast?_eq_some_iff.mp hlast
    have hdrop : s.background.dropLast = front := by rw [hfront, List.dropLast_concat]
    have hlast : Explained capacity printed (e :: s.background.dropLast) s.notices := by
      rw [hdrop]
      refine h.subperm (hfront ▸ ?_)
      exact (List.perm_append_singleton ..).symm.subperm
    have hawait := @explained_await _ _ _ { s with background := s.background.dropLast } none hlast
    dsimp only
    rw [background_leaveNotice]
    exact (explained_leaveNotice hawait).tail

theorem explained_awaitBackground {s : Supervisor}
    (h : Explained capacity printed s.background s.notices) :
    Explained capacity printed s.awaitBackground.background s.awaitBackground.notices := by
  obtain ⟨world, heq⟩ := runUntilEnd_eq s s.watched none
  unfold awaitBackground
  rw [heq]
  exact @explained_collect _ _ [] _ h

/-! ## Notices -/

theorem notices_apply_noticeTaken (s : Supervisor) (e : Execution) :
    (s.apply e .noticeTaken).2.notices = s.notices := by
  unfold apply
  split
  · rename_i e' effects hstep
    dsimp only
    rw [notices_foldl_perform, Execution.posts_of_step hstep]
    rfl
  · rfl

theorem notices_resume (s : Supervisor) (notice : String) :
    (s.resume notice).notices = s.notices := by
  unfold resume
  split
  · exact notices_apply_noticeTaken ..
  · rfl

theorem explained_resume {s : Supervisor} {q : NoticeQueue} {notice : String}
    {waiting : List String} (h : Explained capacity printed s.background q)
    (hblocked : q.blocked = notice :: waiting) (hroom : q.pending.length < q.capacity) :
    Explained capacity printed (s.resume notice).background
      { q with pending := q.pending ++ [notice], blocked := waiting } := by
  unfold resume
  split
  · rename_i e hfind
    obtain ⟨hposting, front, back, hsplit, hfront⟩ := List.find?_eq_some_iff_append.mp hfind
    obtain ⟨hphase, rfl⟩ : e.phase = .posting ∧ e.notice = notice := by
      simpa [isPosting] using hposting
    have herase : s.background.eraseP (isPosting e.notice) = front ++ back := by
      rw [hsplit, List.eraseP_append_right _ (by simpa using hfront),
        List.eraseP_cons_of_pos hposting]
    rw [hsplit] at h
    dsimp only
    rw [herase]
    have hhead := h.subperm List.perm_middle.symm.subperm
    exact (hhead.accept hphase (.of_eq hblocked) hroom).tail
  · rename_i hfind
    refine h.accept_other (fun e he hphase hnotice => ?_) (.of_eq hblocked) hroom
    exact List.find?_eq_none.mp hfind e he (by simp [isPosting, hphase, hnotice])

theorem explained_foldl_resume {s : Supervisor} {q : NoticeQueue} {admitted waiting : List String}
    (h : Explained capacity printed s.background q) (hblocked : q.blocked = admitted ++ waiting)
    (hroom : q.pending.length + admitted.length ≤ q.capacity) :
    Explained capacity printed (admitted.foldl resume s).background
      { q with pending := q.pending ++ admitted, blocked := waiting } := by
  induction admitted generalizing s q with
  | nil =>
      rw [List.nil_append] at hblocked
      subst hblocked
      rwa [List.append_nil]
  | cons notice admitted ih =>
      rw [List.length_cons] at hroom
      have hresume := explained_resume h hblocked (by omega)
      have hrest := ih hresume rfl (by simp only [List.length_append, List.length_singleton]; omega)
      rwa [List.append_assoc] at hrest

theorem notices_foldl_resume (s : Supervisor) (admitted : List String) :
    (admitted.foldl resume s).notices = s.notices := by
  induction admitted generalizing s with
  | nil => rfl
  | cons notice admitted ih => rw [List.foldl_cons, ih, notices_resume]

/-- The notices that were pending are taken, and as many of those that wait
as there is room for are pending now. -/
theorem explained_takeNotices {s : Supervisor}
    (h : Explained capacity printed s.background s.notices) :
    Explained capacity (printed ++ s.takeNotices.1) s.takeNotices.2.background
      s.takeNotices.2.notices := by
  have hadmitted : s.notices.blocked.take
      (s.notices.blocked.length - (s.notices.blocked.drop s.notices.capacity).length)
        = s.notices.blocked.take s.notices.capacity := by
    rw [List.length_drop, List.take_eq_take_iff]
    omega
  have hroom : ([] : List String).length + (s.notices.blocked.take s.notices.capacity).length
      ≤ s.notices.capacity := by
    rw [List.length_nil, Nat.zero_add]
    exact List.length_take_le ..
  have hresumed := @explained_foldl_resume _ _ { s with notices := s.notices.drain.2 } _ _ _
    h.takeAll (List.take_append_drop s.notices.capacity _).symm hroom
  rw [NoticeQueue.drain_eq] at hresumed
  unfold takeNotices
  rw [NoticeQueue.drain_eq]
  dsimp only
  rw [notices_foldl_resume, hadmitted]
  exact hresumed

end Supervisor

namespace Session

/-! ## What leaves the jobs alone -/

/-- The jobs, the notices and the owner of the terminal are the same in both
sessions. -/
def KeepsJobs (s s' : Session) : Prop :=
  ∃ host, s'.supervisor = { s.supervisor with host }
    ∧ host.shell.foreground = s.supervisor.host.shell.foreground

/-- All that the shell did to the machine in between was to write text. -/
def OnlyWrites (s s' : Session) : Prop :=
  ∃ host, s'.supervisor = { s.supervisor with host } ∧ s.supervisor.host.Writes host

namespace OnlyWrites

theorem refl (s : Session) : OnlyWrites s s := ⟨s.supervisor.host, rfl, .refl _⟩

theorem trans {s s' s'' : Session} (h : OnlyWrites s s') (h' : OnlyWrites s' s'') :
    OnlyWrites s s'' := by
  obtain ⟨host, heq, hwrites⟩ := h
  obtain ⟨host', heq', hwrites'⟩ := h'
  rw [heq] at heq' hwrites'
  exact ⟨host', heq', hwrites.trans hwrites'⟩

theorem foldl {α : Type} {f : Session → α → Session} (h : ∀ s x, OnlyWrites s (f s x))
    (xs : List α) (s : Session) : OnlyWrites s (xs.foldl f s) := by
  induction xs generalizing s with
  | nil => exact refl s
  | cons x xs ih => exact (h s x).trans (ih _)

/-- What the shell writes leaves the jobs alone. -/
theorem keepsJobs {s s' : Session} (h : OnlyWrites s s') : KeepsJobs s s' := by
  obtain ⟨host, heq, hwrites⟩ := h
  exact ⟨host, heq, congrArg Machine.Outside.foreground hwrites.shell⟩

end OnlyWrites

theorem onlyWrites_onHost (s : Session) {action : Host → Host}
    (haction : s.supervisor.host.Writes (action s.supervisor.host)) :
    OnlyWrites s (s.onHost action) :=
  ⟨_, rfl, haction⟩

theorem onlyWrites_log (s : Session) (level : Log.Level) (message : String) :
    OnlyWrites s (s.onHost (·.log level message)) :=
  onlyWrites_onHost s (Host.writes_log ..)

theorem onlyWrites_write (s : Session) (fd : Fd) (data : Bytes) :
    OnlyWrites s (s.onHost (·.write fd data)) :=
  onlyWrites_onHost s (Host.writes_write ..)

theorem onlyWrites_tell (s : Session) (line : String) : OnlyWrites s (s.tell line) :=
  onlyWrites_write s 2 (.ofString (line ++ "\n"))

theorem onlyWrites_exportVariable (s : Session) (name : String) (value : Option String) :
    OnlyWrites s (s.exportVariable name value) := by
  unfold exportVariable
  dsimp only
  split
  · exact onlyWrites_log { s with vars := s.vars.exportName name value } ..
  · exact ⟨_, rfl, .refl _⟩

theorem onlyWrites_changeDirectory {s s' : Session} {arguments : List String}
    (h : s.changeDirectory arguments = .ok s') : OnlyWrites s s' := by
  obtain ⟨target, -, h⟩ := Except.bind_eq_ok_iff.mp h
  split at h
  · cases h
  · rename_i directory _
    obtain rfl := Except.ok.inj h
    have hpublish : OnlyWrites s { s with directory }.publishDirectory := by
      unfold publishDirectory
      split
      · exact onlyWrites_exportVariable { s with directory } ..
      · exact ⟨_, rfl, .refl _⟩
    exact hpublish.trans (onlyWrites_log ..)

theorem onlyWrites_run {s s' : Session} {b : Builtin} {arguments : List String} {flow : Flow}
    (h : b.run s arguments = .ok (flow, s')) : OnlyWrites s s' := by
  cases b with
  | cd =>
      exact onlyWrites_changeDirectory (Except.eq_ok_of_map_mk h)
  | export_ =>
      obtain ⟨items, -, ht⟩ := Except.bind_eq_ok_iff.mp (Except.eq_ok_of_map_mk h)
      obtain rfl := Except.ok.inj ht
      refine OnlyWrites.foldl (fun s item => ?_) items s
      exact onlyWrites_exportVariable s item.1 item.2
  | exit =>
      obtain ⟨status, -, heq⟩ := Except.map_eq_ok_iff.mp h
      obtain ⟨-, rfl⟩ := Prod.mk.inj heq
      exact OnlyWrites.refl s
  | set =>
      have ht := Except.eq_ok_of_map_mk h
      cases arguments with
      | nil =>
          obtain rfl := Except.ok.inj ht
          exact OnlyWrites.foldl (fun s _ => onlyWrites_write s ..) _ s
      | cons option rest => cases ht
  | unset =>
      have ht := Except.eq_ok_of_map_mk h
      unfold unsetVariables at ht
      split at ht
      · cases ht
      · obtain rfl := Except.ok.inj ht
        exact OnlyWrites.foldl (fun s _ => onlyWrites_log s ..) arguments s

theorem onlyWrites_runBuiltin (s : Session) (b : Builtin) (arguments : List String) :
    OnlyWrites s (s.runBuiltin b arguments).2 := by
  unfold runBuiltin
  split
  · rename_i hrun
    exact onlyWrites_run hrun
  · exact onlyWrites_tell ..

theorem onlyWrites_runJob (s : Session) (p : Pipeline) :
    OnlyWrites
      { s with supervisor := (s.supervisor.runPipeline s.directory s.vars.environment p).2 }
      (s.runJob p) := by
  unfold runJob
  split
  rename_i outcome supervisor heq
  rw [heq]
  split
  · exact onlyWrites_tell { s with supervisor } _
  · exact onlyWrites_log { s with supervisor } ..
  · exact onlyWrites_log { s with supervisor } ..

/-- Apart from what it writes, a line does nothing to the jobs but to run one. -/
theorem onlyWrites_runLine (s : Session) (line : String) :
    OnlyWrites s (s.runLine line).2
      ∨ ∃ p, OnlyWrites
          { s with supervisor := (s.supervisor.runPipeline s.directory s.vars.environment p).2 }
          (s.runLine line).2 := by
  unfold runLine
  split
  · exact Or.inl (onlyWrites_tell ..)
  · dsimp only
    unfold runParsed
    split
    · exact Or.inl (OnlyWrites.refl s)
    · exact Or.inl ⟨_, rfl, .refl _⟩
    · split
      · exact Or.inr ⟨_, onlyWrites_runJob s _⟩
      · split
        · exact Or.inl (onlyWrites_runBuiltin ..)
        · exact Or.inr ⟨_, onlyWrites_runJob s _⟩

/-! ## Turns of a session -/

variable {capacity : Nat} {printed : List String}

/-- The traffic explains what the session printed and has. -/
def Explained (capacity : Nat) (printed : List String) (s : Session) : Prop :=
  JobShell.Explained capacity printed s.supervisor.background s.supervisor.notices

theorem KeepsJobs.explained {s s' : Session} (hkeeps : KeepsJobs s s')
    (h : s.Explained capacity printed) : s'.Explained capacity printed := by
  obtain ⟨host, heq, -⟩ := hkeeps
  unfold Explained
  rw [heq]
  exact h

theorem explained_runLine {s : Session} (h : s.Explained capacity printed) (line : String) :
    (s.runLine line).2.Explained capacity printed := by
  rcases onlyWrites_runLine s line with hwrites | ⟨p, hwrites⟩
  · exact hwrites.keepsJobs.explained h
  · have hrun := Supervisor.explained_runPipeline h s.directory s.vars.environment p
    exact @KeepsJobs.explained _ _ { s with supervisor := _ } _ hwrites.keepsJobs hrun

theorem explained_reportNotices {s : Session} (h : s.Explained capacity printed) :
    s.reportNotices.2.Explained capacity (printed ++ s.reportNotices.1) := by
  have htake := Supervisor.explained_takeNotices h
  unfold reportNotices
  dsimp only
  exact @KeepsJobs.explained _ _ { s with supervisor := s.supervisor.takeNotices.2 } _
    (OnlyWrites.foldl onlyWrites_tell _ _).keepsJobs htake

/-- What a session does next. -/
inductive Turn
  | line (text : String)
  | report
  /-- Time passes until a process in the background has ended. -/
  | wait
  /-- The shell itself uses the machine. -/
  | use (action : Host → Host)

/-- The shell does not change who has the terminal by itself. -/
def Turn.IsQuiet : Turn → Prop
  | .use action => ∀ h : Host, (action h).shell.foreground = h.shell.foreground
  | .line _ | .report | .wait => True

/-- The session after a turn, and the notices it printed. -/
def turn (s : Session) : Turn → List String × Session
  | .line text => ([], (s.runLine text).2)
  | .report => s.reportNotices
  | .wait => ([], { s with supervisor := s.supervisor.awaitBackground })
  | .use action => ([], s.onHost action)

/-- The session after some turns, and the notices it printed. -/
def runTurns (s : Session) : List Turn → List String × Session
  | [] => ([], s)
  | turn :: rest =>
    let (notices, s) := s.turn turn
    let (more, s) := runTurns s rest
    (notices ++ more, s)

/-- What nothing that a session does to its jobs changes. -/
structure Lasting (P : Supervisor → Prop) : Prop where
  setHost : ∀ (s : Supervisor) (host : Host), P s →
    host.shell.foreground = s.host.shell.foreground → P { s with host }
  runPipeline : ∀ (s : Supervisor) (directory : NodeId) (environment : Environment)
    (p : Pipeline), P s → P (s.runPipeline directory environment p).2
  takeNotices : ∀ s : Supervisor, P s → P s.takeNotices.2
  awaitBackground : ∀ s : Supervisor, P s → P s.awaitBackground

namespace Lasting

variable {P : Supervisor → Prop} {s s' : Session}

theorem keepsJobs (h : Lasting P) (hkeeps : KeepsJobs s s') (hs : P s.supervisor) :
    P s'.supervisor := by
  obtain ⟨host, heq, hsame⟩ := hkeeps
  rw [heq]
  exact h.setHost s.supervisor host hs hsame

theorem runLine (h : Lasting P) (hs : P s.supervisor) (line : String) :
    P (s.runLine line).2.supervisor := by
  rcases onlyWrites_runLine s line with hwrites | ⟨p, hwrites⟩
  · exact h.keepsJobs hwrites.keepsJobs hs
  · exact h.keepsJobs hwrites.keepsJobs (h.runPipeline _ s.directory s.vars.environment p hs)

theorem turn (h : Lasting P) (hs : P s.supervisor) {turn : Turn} (hquiet : turn.IsQuiet) :
    P (s.turn turn).2.supervisor := by
  cases turn with
  | line text => exact h.runLine hs text
  | report =>
      have htake := h.takeNotices s.supervisor hs
      exact @Lasting.keepsJobs P { s with supervisor := s.supervisor.takeNotices.2 } _ h
        (OnlyWrites.foldl onlyWrites_tell _ _).keepsJobs htake
  | wait => exact h.awaitBackground s.supervisor hs
  | use action => exact h.setHost s.supervisor _ hs (hquiet s.supervisor.host)

theorem runTurns (h : Lasting P) (hs : P s.supervisor) {turns : List Turn}
    (hquiet : ∀ turn ∈ turns, turn.IsQuiet) : P (s.runTurns turns).2.supervisor := by
  induction turns generalizing s with
  | nil => exact hs
  | cons turn rest ih =>
      obtain ⟨hturn, hrest⟩ := List.forall_mem_cons.mp hquiet
      exact ih (h.turn hs hturn) hrest

end Lasting

theorem explained_turn {s : Session} (h : s.Explained capacity printed) (turn : Turn) :
    (s.turn turn).2.Explained capacity (printed ++ (s.turn turn).1) := by
  cases turn with
  | report => exact explained_reportNotices h
  | line text =>
      rw [show (s.turn (.line text)).1 = [] from rfl, List.append_nil]
      exact explained_runLine h text
  | wait =>
      rw [show (s.turn .wait).1 = [] from rfl, List.append_nil]
      exact Supervisor.explained_awaitBackground h
  | use action =>
      rw [show (s.turn (.use action)).1 = [] from rfl, List.append_nil]
      exact h

theorem explained_runTurns {s : Session} (h : s.Explained capacity printed) (turns : List Turn) :
    (s.runTurns turns).2.Explained capacity (printed ++ (s.runTurns turns).1) := by
  induction turns generalizing s printed with
  | nil =>
      rw [show (s.runTurns []).1 = [] from rfl, List.append_nil]
      exact h
  | cons turn turns ih =>
      have hrest := ih (explained_turn h turn)
      rwa [List.append_assoc] at hrest

/-- **Sessions keep to the traffic.** Whatever a session does, in some order
of the steps of the traffic the same notices were printed, the same are
pending or wait for room, and the jobs in the background are where they are. -/
theorem reached_of_runTurns {s : Session} {capacity : Nat}
    (hnotices : s.supervisor.notices = .ofCapacity capacity)
    (hbackground : s.supervisor.background = []) (turns : List Turn) :
    ∃ t, Traffic.Reached (max capacity 1) t
      ∧ t.printed.map Message.text = (s.runTurns turns).1
      ∧ t.pending.map Message.text = (s.runTurns turns).2.supervisor.notices.pending
      ∧ (t.held.map Message.text).Perm (s.runTurns turns).2.supervisor.notices.blocked
      ∧ ∀ e ∈ (s.runTurns turns).2.supervisor.background, ∃ l ∈ t.launches, l.execution = e := by
  have hstart : s.Explained (max capacity 1) [] := by
    unfold Explained
    rw [hnotices, hbackground]
    exact .start capacity
  obtain ⟨t, numbered, hreached, hprinted, hperm, hfollows⟩ := explained_runTurns hstart turns
  refine ⟨t, hreached, hprinted, hfollows.pending, hfollows.blocked, fun e he => ?_⟩
  obtain ⟨x, hx, rfl⟩ := List.mem_map.mp (hperm.mem_iff.mpr he)
  obtain ⟨l, hl, heq⟩ := hfollows.launched x hx
  exact ⟨l, List.mem_of_getElem? hl, heq⟩

theorem runTurns_append (s : Session) (turns more : List Turn) :
    s.runTurns (turns ++ more)
      = ((s.runTurns turns).1 ++ ((s.runTurns turns).2.runTurns more).1,
        ((s.runTurns turns).2.runTurns more).2) := by
  induction turns generalizing s with
  | nil => rfl
  | cons turn turns ih => simp only [List.cons_append, runTurns, ih, List.append_assoc]

/-- Some turns make the second session of the first one. -/
def LeadsTo (s s' : Session) : Prop :=
  ∃ turns : List Turn, (∀ turn ∈ turns, turn.IsQuiet) ∧ (s.runTurns turns).2 = s'

namespace LeadsTo

theorem refl (s : Session) : LeadsTo s s := ⟨[], nofun, rfl⟩

theorem turn (s : Session) (turn : Turn) (hquiet : turn.IsQuiet) : LeadsTo s (s.turn turn).2 :=
  ⟨[turn], List.forall_mem_singleton.mpr hquiet, rfl⟩

theorem trans {s s' s'' : Session} (h : LeadsTo s s') (h' : LeadsTo s' s'') : LeadsTo s s'' := by
  obtain ⟨turns, hquiet, rfl⟩ := h
  obtain ⟨more, hquiet', rfl⟩ := h'
  exact ⟨turns ++ more, List.forall_mem_append.mpr ⟨hquiet, hquiet'⟩, by rw [runTurns_append]⟩

end LeadsTo

/-- Reading only changes the machine. -/
theorem leadsTo_read {s : Session} {fd : Fd} {count : Nat} {block : Bytes} {host : Host}
    (hok : s.host.read fd count = .ok (block, host)) : s.LeadsTo (s.onHost fun _ => host) := by
  have hworld : ∃ world, host = { s.host with world } := by
    unfold Host.read at hok
    split at hok
    · obtain ⟨-, rfl⟩ := Prod.mk.inj (Except.ok.inj hok)
      exact ⟨_, rfl⟩
    · cases hok
    · obtain ⟨-, rfl⟩ := Prod.mk.inj (Except.ok.inj hok)
      exact ⟨s.host.world, rfl⟩
  obtain ⟨world, rfl⟩ := hworld
  exact LeadsTo.turn s (.use fun h => { h with world }) fun _ => rfl

end Session

namespace Shell

/-! ## The shell -/

/-- What a shell is after a round, if `state` says what it is in between. -/
def afterRound {α β : Type} (state : α → Shell) : Round α (β × Shell) → Shell
  | .done result => result.2
  | .again next => state next

theorem leadsTo_readBlock (s : Shell) (line : Bytes) :
    s.session.LeadsTo (afterRound Prod.fst (s.readBlock line)).session := by
  unfold readBlock
  split
  · exact .refl _
  · split
    · exact .refl _
    · rename_i hread
      exact Session.leadsTo_read hread
    · rename_i hread
      exact Session.leadsTo_read hread

/-- A shell takes turns as long as every round of what it does takes some. -/
theorem leadsTo_untilDone {α β : Type} (state : α → Shell)
    {round : α → Option (Round α (β × Shell))}
    (hround : ∀ a served, round a = some served →
      (state a).session.LeadsTo (afterRound state served).session)
    {a : α} {result : β × Shell} (h : untilDone round a = some result) :
    (state a).session.LeadsTo result.2.session := by
  obtain ⟨last, hlast, hdone⟩ := untilDone_invariant
    (P := fun after => (state a).session.LeadsTo (state after).session)
    (fun before after hnext hbefore => hbefore.trans (hround before _ hnext)) h (.refl _)
  exact hlast.trans (hround last _ hdone)

theorem leadsTo_readBytes {s : Shell} {read : Except OsError Bytes × Shell}
    (h : s.readBytes = some read) : s.session.LeadsTo read.2.session :=
  leadsTo_untilDone Prod.fst (fun a served hserved => by
    obtain rfl := Option.some.inj hserved
    exact leadsTo_readBlock ..) h

theorem leadsTo_readLine {s : Shell} {read : Except OsError (Option String) × Shell}
    (h : s.readLine = some read) : s.session.LeadsTo read.2.session := by
  obtain ⟨⟨line, s'⟩, hread, h⟩ := Option.bind_eq_some_iff.mp h
  obtain rfl := Option.some.inj h
  exact leadsTo_readBytes hread

theorem leadsTo_promptForLine (s : Shell) : s.session.LeadsTo s.promptForLine.session :=
  (Session.LeadsTo.turn _ .report trivial).trans
    (.turn _ (.use _) fun h => congrArg Machine.Outside.foreground (Host.writes_write h ..).shell)

theorem leadsTo_serve (s : Shell) (line : String) :
    s.session.LeadsTo (afterRound id (s.serve line)).session := by
  have hline : s.session.LeadsTo (s.session.runLine (String.ofList (Text.trim line.toList))).2 :=
    .turn s.session (.line _) trivial
  unfold serve
  dsimp only
  split <;> exact hline

theorem leadsTo_serveNext {s : Shell} {served : Round Shell (Ending × Shell)}
    (h : s.serveNext = some served) : s.session.LeadsTo (afterRound id served).session := by
  obtain ⟨⟨line, s'⟩, hread, h⟩ := Option.bind_eq_some_iff.mp h
  have hprompt := (leadsTo_promptForLine s).trans (leadsTo_readLine hread)
  rcases line with cause | (_ | text)
  · obtain rfl := Option.some.inj h
    exact hprompt
  · obtain rfl := Option.some.inj h
    exact hprompt
  · obtain rfl := Option.some.inj h
    exact hprompt.trans (leadsTo_serve ..)

/-- A shell takes turns, whatever its input asks for. -/
theorem leadsTo_loop {s : Shell} {ended : Ending × Shell} (h : s.loop = some ended) :
    s.session.LeadsTo ended.2.session :=
  leadsTo_untilDone id (fun _ _ => leadsTo_serveNext) h

end Shell

end JobShell
