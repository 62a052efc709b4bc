import JobShell.Machine.Calls
import Std.Data.TreeMap.Lemmas

/-!
# Processes that have ended

`World.finish` ends a process: whatever becomes of it and of its children, it
is not alive afterwards (`isAlive_finish`).
-/

namespace JobShell.Machine.World

variable {w : World} {pid : Pid}

theorem process?_setProcess (w : World) (pid other : Pid) (p : Process) :
    (w.setProcess pid p).process? other = if pid = other then some p else w.process? other := by
  rw [setProcess, process?, Std.TreeMap.getElem?_insert]
  simp only [Std.LawfulEqCmp.compare_eq_iff_eq]
  rfl

theorem process?_removeProcess (w : World) (pid other : Pid) :
    (w.removeProcess pid).process? other = if pid = other then none else w.process? other := by
  rw [removeProcess, process?, Std.TreeMap.getElem?_erase]
  simp only [Std.LawfulEqCmp.compare_eq_iff_eq]
  rfl

theorem process?_addProcess (w : World) (p : Process) :
    (w.addProcess p).2.process? (w.addProcess p).1 = some p :=
  Std.TreeMap.getElem?_insert_self

theorem isAlive_iff : w.isAlive pid = true ↔
    ∃ p, w.process? pid = some p ∧ ∀ status, p.activity ≠ .ended status := by
  unfold isAlive
  cases hp : w.process? pid with
  | none => simp
  | some p => cases hactivity : p.activity <;> simp [hactivity]

theorem isAlive_setProcess_of_ne (w : World) {other : Pid} (p : Process) (h : pid ≠ other) :
    (w.setProcess pid p).isAlive other = w.isAlive other := by
  unfold isAlive
  rw [process?_setProcess, if_neg h]

theorem isAlive_removeProcess (w : World) (pid other : Pid) :
    (w.removeProcess pid).isAlive other = (pid ≠ other && w.isAlive other) := by
  unfold isAlive
  rw [process?_removeProcess]
  by_cases h : pid = other <;> simp [h]

/-- What becomes of the children of a process revives nobody. -/
theorem isAlive_foldl_adopt {kept : World} {other : Pid} {orphans : List (Pid × Process)}
    (horphans : ∀ o ∈ orphans, kept.process? o.1 = some o.2) (w : World)
    (hw : w.isAlive other = true → kept.isAlive other = true)
    (h : (orphans.foldl (fun w o =>
      match o.2.activity with
      | .ended _ => w.removeProcess o.1
      | _ => w.setProcess o.1 { o.2 with parent := adopter }) w).isAlive other = true) :
    kept.isAlive other = true := by
  induction orphans generalizing w with
  | nil => exact hw h
  | cons o rest ih =>
      obtain ⟨horphan, hrest⟩ := List.forall_mem_cons.mp horphans
      refine ih hrest _ (fun halive => ?_) h
      dsimp only at halive
      split at halive
      · rw [isAlive_removeProcess, Bool.and_eq_true] at halive
        exact hw halive.2
      · rename_i hrunning
        by_cases heq : o.1 = other
        · exact isAlive_iff.mpr ⟨o.2, heq ▸ horphan, hrunning⟩
        · rw [isAlive_setProcess_of_ne _ _ heq] at halive
          exact hw halive

/-- No process comes to life when a process ends, and that one is dead. -/
theorem isAlive_finish {outside : Outside} {status : WaitStatus} {other : Pid}
    (h : (w.finish outside pid status).isAlive other = true) :
    other ≠ pid ∧ w.isAlive other = true := by
  unfold finish at h
  split at h
  · rename_i hnone
    refine ⟨?_, h⟩
    rintro rfl
    obtain ⟨p, hp, -⟩ := isAlive_iff.mp h
    rw [hnone] at hp
    cases hp
  rename_i p hp
  dsimp only at h
  generalize hkept : (if w.keepsEnded outside p.parent = true then
    w.setProcess pid { p with slots := ∅, activity := .ended status }
    else w.removeProcess pid) = kept at h
  have hadopted : kept.isAlive other = true := by
    rw [Std.TreeMap.foldl_eq_foldl_toList] at h
    refine isAlive_foldl_adopt (fun o ho => ?_) kept id h
    have hmem := Std.TreeMap.mem_toList_iff_getElem?_eq_some.mp ho
    rw [Std.TreeMap.getElem?_filter', Option.filter_eq_some_iff] at hmem
    exact hmem.1
  rw [← hkept] at hadopted
  split at hadopted
  · by_cases heq : pid = other
    · subst heq
      obtain ⟨q, hq, halive⟩ := isAlive_iff.mp hadopted
      rw [process?_setProcess, if_pos rfl] at hq
      obtain rfl := Option.some.inj hq
      exact (halive status rfl).elim
    · rw [isAlive_setProcess_of_ne w _ heq] at hadopted
      exact ⟨Ne.symm heq, hadopted⟩
  · rw [isAlive_removeProcess, Bool.and_eq_true, decide_eq_true_eq] at hadopted
    exact ⟨Ne.symm hadopted.1, hadopted.2⟩

end JobShell.Machine.World
