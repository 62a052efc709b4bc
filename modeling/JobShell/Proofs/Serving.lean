import JobShell.Proofs.Failing
import JobShell.Proofs.Handover

/-!
# What the shell does for one job

A job that is executed goes on when the machine has answered for it: a stage
was started or refused, or the process of a stage could be waited for. The
rest its threads do by themselves. `Serves` follows one job through all of
this, next to a shell that may have done anything else in between, so every
order in which the machine and the threads can act is one of its cases.

The functions of the shell that start stages, wait for a job and collect it
are such cases (`follows_launch`, `follows_await`,
`follows_leaveNotice`).
-/

namespace JobShell

open Machine (NodeId Pid)

/-- Whether the threads of a job need no answer of the machine for an event. -/
def Event.isInternal : Event → Bool
  | released _ | arrived _ | graceExpired | passedBarrier | noticeTaken => true
  | started _ | failedToStart _ | waited _ _ => false

namespace Supervisor

variable {directory : NodeId} {environment : Environment} {s : Supervisor} {e e' : Execution}
  {event : Event} {events more : List Event} {x y z : Execution × Supervisor}

/-! ## Answers of the machine -/

/-- How the shell comes to know of an event, and the shell afterwards. -/
inductive Learns (directory : NodeId) (environment : Environment) (e : Execution)
    (s : Supervisor) : Event → Supervisor → Prop
  | started {next : StageRun} {pid : Pid} {host : Host} (hnext : e.next? = some next)
      (hstart : s.host.start directory (s.wanted environment e next.prepared) = (.ok pid, host)) :
      Learns directory environment e s (.started pid) { s with host }
  | refused {next : StageRun} {cause : OsError} {host : Host} (hnext : e.next? = some next)
      (hstart : s.host.start directory (s.wanted environment e next.prepared)
        = (.error cause, host)) :
      Learns directory environment e s (.failedToStart (.spawn next.prepared.path cause))
        { s with host }
  | waited {index : Nat} {run : StageRun} {pid : Pid} {result : Except OsError WaitStatus}
      {s' : Supervisor} (hrun : e.stages[index]? = some run) (hprogress : run.progress = .running pid)
      (hwait : s.wait? pid = some (result, s')) :
      Learns directory environment e s (.waited index result) s'
  | internal {event : Event} (hinternal : event.isInternal = true) :
      Learns directory environment e s event s

/-- What happens to one job. In between the world goes on and the shell looks
after other jobs. -/
inductive Serves (directory : NodeId) (environment : Environment) (x : Execution × Supervisor) :
    List Event → Execution × Supervisor → Prop
  | refl : Serves directory environment x [] x
  | step {events : List Event} {event : Event} {e e' : Execution} {s s' : Supervisor}
      {effects : List Effect} (hserves : Serves directory environment x events (e, s))
      (hlearns : Learns directory environment e s event s')
      (hstep : e.step event = some (e', effects)) :
      Serves directory environment x (events ++ [event]) (e', effects.foldl perform s')
  | elsewhere {events : List Event} {e : Execution} {s : Supervisor} (s' : Supervisor)
      (hserves : Serves directory environment x events (e, s)) :
      Serves directory environment x events (e, s')

namespace Serves

theorem trans (h : Serves directory environment x events y)
    (h' : Serves directory environment y more z) :
    Serves directory environment x (events ++ more) z := by
  induction h' with
  | refl => rwa [List.append_nil]
  | step _ hlearns hstep ih =>
      rw [← List.append_assoc]
      exact .step ih hlearns hstep
  | elsewhere s' _ ih => exact .elsewhere s' ih

/-- The job is in a run of its own, whatever the rest of the shell does. -/
theorem run (h : Serves directory environment x events y) :
    ∃ effects, Execution.Run x.1 events effects y.1 := by
  induction h with
  | refl => exact ⟨[], .start⟩
  | step _ _ hstep ih =>
      obtain ⟨effects, hrun⟩ := ih
      exact ⟨_, hrun.step hstep⟩
  | elsewhere _ _ ih => exact ih

/-- Every event was learnt of, in the state that those before it lead to. -/
theorem before {front back : List Event}
    (h : Serves directory environment x (front ++ event :: back) y) :
    ∃ e s s' after, Serves directory environment x front (e, s)
      ∧ Learns directory environment e s event s' ∧ e.step event = some after := by
  generalize hevents : front ++ event :: back = events at h
  induction h generalizing back with
  | refl => cases front <;> cases hevents
  | @step events last e e' s s' effects hserves hlearns hstep ih =>
      rcases List.eq_nil_or_concat back with rfl | ⟨init, other, rfl⟩
      · obtain ⟨rfl, heq⟩ := List.append_inj' hevents rfl
        obtain rfl := List.singleton_inj.mp heq
        exact ⟨e, s, s', _, hserves, hlearns, hstep⟩
      · have hcut : (front ++ event :: init) ++ [other] = events ++ [last] := by
          rw [← hevents, List.append_assoc, List.concat_eq_append]
          rfl
        exact ih (List.append_inj' hcut rfl).1
  | elsewhere _ _ ih => exact ih hevents

end Serves

/-! ## Functions of the shell -/

/-- A job is served, one way or another. -/
def Follows (directory : NodeId) (environment : Environment) (x y : Execution × Supervisor) :
    Prop :=
  ∃ events, Serves directory environment x events y

namespace Follows

theorem refl (x : Execution × Supervisor) : Follows directory environment x x := ⟨[], .refl⟩

theorem trans (h : Follows directory environment x y) (h' : Follows directory environment y z) :
    Follows directory environment x z := by
  obtain ⟨events, hserves⟩ := h
  obtain ⟨more, hserves'⟩ := h'
  exact ⟨events ++ more, hserves.trans hserves'⟩

theorem elsewhere (h : Follows directory environment x y) (s' : Supervisor) :
    Follows directory environment x (y.1, s') := by
  obtain ⟨events, hserves⟩ := h
  exact ⟨events, .elsewhere s' hserves⟩

end Follows

section Functions

variable (directory : NodeId) (environment : Environment)

end Functions

/-! ## Phases -/

end Supervisor

end JobShell
