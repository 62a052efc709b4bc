import JobShell.Proofs.Collecting

/-!
# Waiting comes to an end

While the shell waits for a job, it collects round after round. Every round in
which the barrier is still closed ends with one more process that has ended
(`exists_ended_of_runUntilEnd`), and the next one collects it; so there are no
more rounds than processes, and the barrier is open in the end
(`isOpen_await`).
-/

namespace JobShell

open Machine (World Pid)

/-- Whether the shell waits for a job. -/
def Phase.isWaiting : Phase → Bool
  | waitingForeground | terminating _ | killing _ => true
  | starting | runningBackground | posting | doneForeground | doneBackground | failed _ => false

namespace Supervisor

variable {home : Pid} {s : Supervisor} {e : Execution}

/-! ## Rounds -/

/-- The shell waited for a job, and goes on waiting unless its barrier is
open. -/
structure Waits (home : Pid) (x y : Execution × Supervisor) : Prop where
  ready : y.1.Ready home
  waiting : x.1.phase.isWaiting = true → y.1.phase.isWaiting = true
  tended : y.2.Tended home
  terminal : y.2.terminal = x.2.terminal
  path : x.2.terminal.isAttached = true →
    Scene.Path (x.2.scene (some x.1) x.2.background) (y.2.scene (some y.1) y.2.background)

namespace Waits

variable {x y z : Execution × Supervisor}

theorem refl (hready : x.1.Ready home) (h : x.2.Tended home) : Waits home x x :=
  ⟨hready, fun hwaiting => hwaiting, h, rfl, fun _ => .refl⟩

theorem trans (h : Waits home x y) (h' : Waits home y z) : Waits home x z where
  ready := h'.ready
  waiting hwaiting := h'.waiting (h.waiting hwaiting)
  tended := h'.tended
  terminal := h'.terminal.trans h.terminal
  path hattached := (h.path hattached).trans (h'.path (h.terminal.symm ▸ hattached))

end Waits

/-- All processes that somebody waits for while the shell waits for a job. -/
def awaited (x : Execution × Supervisor) : List Pid := pidsOf x.1 ++ x.2.watched

/-- One round: whoever waited for a process that has ended goes on. -/
def round (s : Supervisor) (e : Execution) : Execution × Supervisor :=
  ((s.collectStages e).1, (s.collectStages e).2.collect)

theorem waits_round (h : s.Tended home) (hready : e.Ready home) :
    Waits home (e, s) (s.round e)
      ∧ (awaited (s.round e)).Sublist (awaited (e, s))
      ∧ ∀ pid ∈ awaited (s.round e), s.host.world.isAlive pid = true := by
  have hstages := collects_collectStages s hready
  have hwaited := fun pid => @isAlive_of_collectStages home s e pid hready
  have hsame := background_collectStages s e
  have htended : (s.collectStages e).2.Tended home := by
    rw [Tended, hsame]
    exact h
  have hcollect := tends_collect htended
  have hwatched : (s.collectStages e).2.watched = s.watched := by rw [watched, watched, hsame]
  refine ⟨?_, ?_, ?_⟩
  · exact
      { ready := hstages.ready
        waiting := fun hwaiting => hstages.phase.symm ▸ hwaiting
        tended := hcollect.tended
        terminal := hcollect.terminal.trans hstages.terminal
        path := fun hattached => by
          have hfirst := hstages.path hattached (.front s.background)
          have hrest := hcollect.path (hstages.terminal.symm ▸ hattached)
            (some (s.collectStages e).1)
          rw [hsame] at hrest
          exact hfirst.trans hrest }
  · exact hstages.pids.append (hwatched ▸ hcollect.pids)
  · intro pid hpid
    rcases List.mem_append.mp hpid with hpid | hpid
    · exact hwaited pid hpid
    · exact hstages.alive pid (hcollect.waited pid hpid)

theorem enough_of_runUntil {outside : Machine.Outside} {enough : World → Bool} {rounds : Nat}
    {w w' : World} (h : World.runUntil outside enough rounds w = (true, w')) :
    enough w' = true := by
  induction rounds generalizing w with
  | zero =>
      obtain ⟨henough, rfl⟩ := Prod.mk.inj h
      exact henough
  | succ rounds ih =>
      unfold World.runUntil at h
      split at h
      · rename_i henough
        obtain ⟨-, rfl⟩ := Prod.mk.inj h
        exact henough
      · split at h
        · exact ih h
        · cases h

/-- Without a deadline the world goes on until a process has ended. -/
theorem exists_ended_of_runUntilEnd {pids : List Pid} (hne : pids ≠ []) :
    ∃ pid ∈ pids, (s.runUntilEnd pids none).host.world.isAlive pid = false := by
  rw [runUntilEnd]
  generalize hrun : World.runUntil _ _ _ _ = result
  obtain ⟨reached, world⟩ := result
  cases reached with
  | true =>
      have henough := enough_of_runUntil hrun
      rw [Bool.or_false, List.any_eq_true] at henough
      obtain ⟨pid, hpid, hended⟩ := henough
      exact ⟨pid, hpid, by simpa using hended⟩
  | false =>
      cases pids with
      | nil => exact (hne rfl).elim
      | cons pid rest =>
          refine ⟨pid, List.mem_cons_self .., ?_⟩
          rw [← Bool.not_eq_true]
          exact fun halive => (World.isAlive_finish halive).1 rfl

theorem waits_runUntilEnd {pids : List Pid} {deadline : Option Nat} (h : s.Tended home)
    (hready : e.Ready home) : Waits home (e, s) (e, s.runUntilEnd pids deadline) := by
  obtain ⟨world, heq⟩ := runUntilEnd_eq s pids deadline
  rw [heq]
  exact ⟨hready, fun hwaiting => hwaiting, h, rfl, fun _ => .refl⟩

theorem awaitBarrier_succ (s : Supervisor) (e : Execution) (deadline : Option Nat) (rounds : Nat) :
    s.awaitBarrier e deadline (rounds + 1)
      = if (s.round e).1.barrier.isOpen then s.round e
        else if deadline.any (· ≤ (s.round e).2.host.world.clock) then s.round e
        else ((s.round e).2.runUntilEnd (awaited (s.round e)) deadline).awaitBarrier
          (s.round e).1 deadline rounds :=
  rfl

theorem waits_awaitBarrier {deadline : Option Nat} {rounds : Nat} (h : s.Tended home)
    (hready : e.Ready home) : Waits home (e, s) (s.awaitBarrier e deadline rounds) := by
  induction rounds generalizing s e with
  | zero => exact .refl hready h
  | succ rounds ih =>
      obtain ⟨hround, -, -⟩ := waits_round h hready
      rw [awaitBarrier_succ]
      split
      · exact hround
      · split
        · exact hround
        · have hrun := @waits_runUntilEnd home _ _ (awaited (s.round e)) deadline
            hround.tended hround.ready
          exact hround.trans (hrun.trans (ih hrun.tended hrun.ready))

theorem waits_await (deadline : Option Nat) (h : s.Tended home) (hready : e.Ready home) :
    Waits home (e, s) (s.await e deadline) :=
  waits_awaitBarrier h hready

/-- While the barrier is closed some process is waited for, so the next round
begins with one that has ended. -/
theorem exists_ended_of_isOpen {s' : Supervisor} (h : s.Tended home) (hready : e.Ready home)
    (hclosed : ¬e.barrier.isOpen = true)
    (hrun : s.runUntilEnd (awaited (e, s)) none = s') :
    s'.Tended home ∧ awaited (e, s') = awaited (e, s)
      ∧ ∃ pid ∈ awaited (e, s'), s'.host.world.isAlive pid = false := by
  have hne : awaited (e, s) ≠ [] := fun hnone =>
    hclosed (hready.isOpen (List.append_eq_nil_iff.mp hnone).1)
  obtain ⟨pid, hpid, hended⟩ := exists_ended_of_runUntilEnd (s := s) hne
  rw [hrun] at hended
  have hrun' := @waits_runUntilEnd home s e (awaited (e, s)) none h hready
  have hsame : awaited (e, s') = awaited (e, s) := by
    obtain ⟨world, heq⟩ := runUntilEnd_eq s (awaited (e, s)) none
    rw [← hrun, heq]
    rfl
  exact ⟨hrun ▸ hrun'.tended, hsame, pid, hsame ▸ hpid, hended⟩

/-- When one of the processes has ended, there are as many rounds as processes
at most. -/
theorem isOpen_awaitBarrier {rounds : Nat} (h : s.Tended home) (hready : e.Ready home)
    (hended : ∃ pid ∈ awaited (e, s), s.host.world.isAlive pid = false)
    (hrounds : (awaited (e, s)).length < rounds) :
    (s.awaitBarrier e none rounds).1.barrier.isOpen = true := by
  induction rounds generalizing s e with
  | zero => exact (Nat.not_lt_zero _ hrounds).elim
  | succ rounds ih =>
      obtain ⟨hround, hsublist, halive⟩ := waits_round h hready
      -- The process that has ended was waited for in this round.
      have hless : (awaited (s.round e)).length < (awaited (e, s)).length := by
        refine Nat.lt_of_le_of_ne hsublist.length_le fun hlength => ?_
        obtain ⟨pid, hpid, hdead⟩ := hended
        rw [← hsublist.eq_of_length hlength] at hpid
        rw [halive pid hpid] at hdead
        cases hdead
      rw [awaitBarrier_succ]
      split
      · assumption
      · rename_i hclosed
        obtain ⟨htended, hsame, hdead⟩ :=
          exists_ended_of_isOpen hround.tended hround.ready hclosed rfl
        refine ih htended hround.ready hdead ?_
        rw [hsame]
        exact Nat.lt_of_lt_of_le hless (Nat.le_of_lt_succ hrounds)

/-- A job that is waited for without a deadline passes its barrier. -/
theorem isOpen_await (h : s.Tended home) (hready : e.Ready home) :
    (s.await e none).1.barrier.isOpen = true := by
  obtain ⟨hround, hsublist, -⟩ := waits_round h hready
  rw [await, awaitBarrier_succ]
  split
  · assumption
  · rename_i hclosed
    obtain ⟨htended, hsame, hdead⟩ :=
      exists_ended_of_isOpen hround.tended hround.ready hclosed rfl
    refine isOpen_awaitBarrier htended hround.ready hdead ?_
    rw [hsame]
    exact Nat.lt_succ_of_le hsublist.length_le

end Supervisor

end JobShell
