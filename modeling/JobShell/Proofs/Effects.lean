import JobShell.Proofs.Runs

/-!
# What an event does outside of its job

Most effects of an event are entries in the logs and descriptors that are
closed. The others - a notice, a signal to the group, the terminal that is
given back - concern the rest of the session. Which event has which of them is
said once, in `outward_of_step`.
-/

namespace JobShell

open Machine (Pid)

namespace Effect

/-- Whether an effect is about more than the logs and the descriptors of the
job. -/
def isOutward : Effect → Bool
  | log _ _ | close _ => false
  | signalGroup _ _ | giveTerminal _ | post _ => true

end Effect

/-- The effects that are about more than the job. -/
def outward (effects : List Effect) : List Effect := effects.filter Effect.isOutward

@[simp] theorem outward_nil : outward [] = [] := rfl

@[simp] theorem outward_cons (effect : Effect) (rest : List Effect) :
    outward (effect :: rest) = if effect.isOutward then effect :: outward rest else outward rest :=
  List.filter_cons

@[simp] theorem outward_append (front back : List Effect) :
    outward (front ++ back) = outward front ++ outward back :=
  List.filter_append ..

theorem outward_eq_nil_iff {effects : List Effect} :
    outward effects = [] ↔ ∀ effect ∈ effects, effect.isOutward = false := by
  rw [outward, List.filter_eq_nil_iff]
  exact forall₂_congr fun _ _ => Bool.not_eq_true _ ▸ Iff.rfl

namespace Execution

/-- What a job does with an event to the rest of the session. -/
def outwardWith (e : Execution) : Event → List Effect
  | .failedToStart _ =>
    match e.group? with
    | some group => [.signalGroup group Signal.terminate]
    | none => if e.foreground then [.giveTerminal e.callerGroup] else []
  | .graceExpired => e.group?.toList.map (Effect.signalGroup · Signal.kill)
  | .passedBarrier =>
    match e.phase with
    | .waitingForeground => [.giveTerminal e.callerGroup]
    | .runningBackground => [.post e.notice]
    | .terminating _ | .killing _ => if e.foreground then [.giveTerminal e.callerGroup] else []
    | _ => []
  | _ => []

@[simp] theorem outward_watchEntries (e : Execution) : outward e.watchEntries = [] := by
  rw [outward_eq_nil_iff]
  intro effect hmem
  obtain ⟨s, -, hs⟩ := List.mem_filterMap.mp hmem
  obtain ⟨pid, -, rfl⟩ := Option.map_eq_some_iff.mp hs
  rfl

theorem group?_drop (e : Execution) (barrier : Barrier) :
    { e with stages := e.stages.map StageRun.drop, barrier }.group? = e.group? := by
  rw [group?, group?, List.head?_map]
  cases e.stages.head? with
  | none => rfl
  | some s => exact StageRun.pid?_drop s

theorem outward_start (e : Execution) (s : StageRun) (pid : Pid) :
    outward (e.start s pid).2 = [] := by
  simp only [start]
  split
  · rfl
  · simp [Effect.isOutward, transition]

theorem outward_giveUp (e : Execution) (failure : Failure) :
    outward (e.giveUp failure).2 = e.outwardWith (.failedToStart failure) := by
  have hclosed : ∀ stages : List StageRun,
      outward (stages.map fun s => Effect.close s.prepared.fds) = [] := by
    intro stages
    rw [outward_eq_nil_iff]
    intro effect hmem
    obtain ⟨s, -, rfl⟩ := List.mem_map.mp hmem
    rfl
  simp only [giveUp, outwardWith, group?_drop]
  cases e.group? with
  | some group => simp [hclosed, Effect.isOutward]
  | none =>
      rw [outward_append, hclosed]
      cases e.foreground <;> rfl

theorem outward_reap (e : Execution) (s : StageRun) (pid : Pid)
    (result : Except OsError WaitStatus) : outward (e.reap s pid result).2 = [] := by
  cases result <;> rfl

theorem outward_pass {e e' : Execution} {effects : List Effect}
    (h : e.pass = some (e', effects)) : outward effects = e.outwardWith .passedBarrier := by
  unfold pass at h
  cases hphase : e.phase <;> simp only [hphase] at h <;> try cases h
  case waitingForeground | runningBackground => simp only [outwardWith, hphase]; rfl
  case terminating failure | killing failure =>
      simp only [outwardWith, hphase]
      cases e.foreground <;> rfl

/-- **Which event reaches out.** -/
theorem outward_of_step {e e' : Execution} {event : Event} {effects : List Effect}
    (h : e.step event = some (e', effects)) : outward effects = e.outwardWith event := by
  cases fires_of_step h with
  | started _ _ => exact outward_start ..
  | failedToStart _ _ => exact outward_giveUp ..
  | waited _ _ _ => exact outward_reap ..
  | released _ _ | arrived _ _ | noticeTaken _ => rfl
  | graceExpired _ hgroup _ =>
      rw [outwardWith, hgroup]
      rfl
  | passedBarrier _ hpass => exact outward_pass hpass

end Execution

end JobShell
