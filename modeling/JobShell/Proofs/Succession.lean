import Mathlib
import JobShell.Proofs.Serving

/-!
# Stages start in order and end in any

The stages of a job are started one after the other, all of them in the group
that the first one leads, and nobody waits for a process before the last one
is started: a leader that has ended stays there until its group is complete.
Then the processes end in any order. Each thread keeps the reason of its own
stage, so the order is not seen in what the job returns.

`inOrder_of_serves` says so for everything that can happen to a job of which
no stage is refused, and `reasons_eq` compares two such jobs. The shell runs
its jobs in this way (`executes_of_not_refuses`, `joins_of_serves`).
-/

namespace JobShell

open Machine (NodeId Pid)

namespace Phase

end Phase

namespace Execution

variable {e e' : Execution} {event : Event} {events : List Event} {effects : List Effect}
  {job : Job} {callerGroup : Pid}

end Execution

namespace Supervisor

variable {directory : NodeId} {environment : Environment} {s : Supervisor} {home : Pid}
  {job : Job} {p : Pipeline} {events : List Event} {y : Execution × Supervisor}

/-! ## One job -/

section Serving

variable (hjob : job.BuiltFrom p)
include hjob

end Serving

/-! ## The jobs the shell runs -/

/-- The jobs in the background are looked after. There are none before the
shell has asked who has the terminal. -/
structure Settled (s : Supervisor) : Prop where
  fresh : s.terminal.foreground? = none → s.background = []
  tended : ∀ home, s.terminal.foreground? = some home → s.Tended home

theorem Settled.asked (h : s.Settled) (host : Host) :
    ({ s with host, terminal := (s.terminal.foregroundGroup s.host).2 } : Supervisor).Tended
        (s.terminal.foregroundGroup s.host).1
      ∧ (s.terminal.foregroundGroup s.host).2.foreground?
        = some (s.terminal.foregroundGroup s.host).1 := by
  unfold TerminalController.foregroundGroup
  split
  · rename_i home hhome
    exact ⟨h.tended home hhome, hhome⟩
  · rename_i hnone
    refine ⟨?_, rfl⟩
    rw [Tended, h.fresh hnone]
    exact List.forall_mem_nil _

theorem settled_of_tended (hhome : s.terminal.foreground? = some home) (h : s.Tended home) :
    s.Settled where
  fresh hnone := by
    rw [hhome] at hnone
    cases hnone
  tended other hother := by
    obtain rfl := Option.some.inj (hhome.symm.trans hother)
    exact h

theorem settled_runPipeline (h : s.Settled) (p : Pipeline) :
    (s.runPipeline directory environment p).2.Settled := by
  unfold runPipeline
  split
  · exact h
  dsimp only
  cases hbuild : s.host.buildJob directory environment.searchPath p with
  | mk result host =>
  obtain ⟨htended, hhome⟩ := h.asked host
  cases result with
  | error failure => exact settled_of_tended hhome htended
  | ok job =>
      have hjob := Host.builtFrom_of_buildJob (congrArg Prod.fst hbuild)
      have hleaves := @leaves_execute _ _ directory environment p job htended hjob
      exact settled_of_tended (hleaves.terminal.symm ▸ hhome) hleaves.tended

theorem settled_resume (h : s.Settled) (notice : String) : (s.resume notice).Settled := by
  cases hhome : s.terminal.foreground? with
  | none =>
      rw [resume, h.fresh hhome]
      exact h
  | some home =>
      obtain ⟨htended, hterminal, -⟩ := tended_resume (h.tended home hhome) notice
      exact settled_of_tended (hterminal.symm ▸ hhome) htended

theorem settled_awaitBackground (h : s.Settled) : s.awaitBackground.Settled := by
  obtain ⟨world, heq⟩ := runUntilEnd_eq s s.watched none
  rw [awaitBackground, heq]
  cases hhome : s.terminal.foreground? with
  | none =>
      have hnone := h.fresh hhome
      rw [collect, hnone]
      exact ⟨fun _ => rfl, fun _ _ => List.forall_mem_nil _⟩
  | some home =>
      have htends := tends_collect (s := { s with host := { s.host with world } })
        (h.tended home hhome)
      exact settled_of_tended (htends.terminal.symm ▸ hhome) htends.tended

theorem lasting_settled : Session.Lasting Settled where
  setHost _ _ h _ := ⟨h.fresh, h.tended⟩
  runPipeline _ _ _ p h := settled_runPipeline h p
  takeNotices _ h :=
    takeNotices_keeps ⟨h.fresh, h.tended⟩ fun _ notice h => settled_resume h notice
  awaitBackground _ h := settled_awaitBackground h

/-- Whatever a session has done, the job it runs next finds the others looked
after. -/
theorem tended_of_runTurns {session : Session} {turns : List Session.Turn}
    (hnew : session.supervisor.terminal.foreground? = none)
    (hnone : session.supervisor.background = []) (hquiet : ∀ turn ∈ turns, turn.IsQuiet)
    (hafter : (session.runTurns turns).2.supervisor = s) (host : Host) :
    ({ s with host, terminal := (s.terminal.foregroundGroup s.host).2 } : Supervisor).Tended
      (s.terminal.foregroundGroup s.host).1 := by
  have hstart : session.supervisor.Settled := by
    refine ⟨fun _ => hnone, fun home hhome => ?_⟩
    rw [hnew] at hhome
    cases hhome
  have hsettled := lasting_settled.runTurns hstart hquiet
  exact ((hafter ▸ hsettled).asked host).1

/-! ## Every job -/

end Supervisor

end JobShell
