import JobShell.Host
import JobShell.Proofs.Results

/-!
# Why a file can not be opened

The system says by a number why it does not open a file, whatever the path
leads through (`Tree.numbered_walk`, `Tree.numbered_openPath`,
`World.numbered_openEndpoint`). The shell itself refuses one thing before it
asks the system, a path that holds the byte zero (`Host.cause_of_openFile`).

So the complaint about a descriptor that can not be redirected
(`OsError.unredirectable`) is never the one about a file.
-/

namespace JobShell

open Machine (NodeId OpenMode Outside Pid Slots Spot Purpose)

/-! ## Errors with a number -/

/-- The computation fails with errors of the system only. -/
def Numbered {α : Type} (x : Except OsError α) : Prop :=
  ∀ e, x = .error e → ∃ number, e = .code number

namespace Numbered

variable {α β : Type}

theorem ok (a : α) : Numbered (.ok a) := nofun

theorem error (number : Int) : Numbered (.error (.code number) : Except OsError α) := by
  intro e he
  exact ⟨number, (Except.error.inj he).symm⟩

theorem bind {x : Except OsError α} {f : α → Except OsError β} (hx : Numbered x)
    (hf : ∀ a, x = .ok a → Numbered (f a)) : Numbered (x >>= f) := by
  cases x with
  | error e =>
      intro e' he
      obtain rfl := Except.error.inj he
      exact hx e rfl
  | ok a => exact hf a rfl

end Numbered

/-! ## Paths and files -/

namespace Machine

namespace Tree

theorem numbered_walk (t : Tree) (purpose : Purpose) (links : Nat) (start : NodeId)
    (names : List Bytes) : Numbered (t.walk purpose links start names) := by
  fun_induction walk t purpose links start names <;>
    first | assumption | exact .ok _ | exact .error _

theorem numbered_locate (t : Tree) (base : NodeId) (path : Bytes) (purpose : Purpose) :
    Numbered (t.locate base path purpose) := by
  unfold locate
  split
  · exact .error _
  split
  · exact .error _
  · exact numbered_walk t _ _ _ _

theorem numbered_openFound (t : Tree) (id : NodeId) (mode : OpenMode) :
    Numbered (t.openFound id mode) := by
  unfold openFound
  split
  · split
    · exact .error _
    · exact .ok _
  · split <;> exact .ok _
  · split
    · exact .error _
    · exact .ok _
  · exact .ok _
  · exact .error _

theorem numbered_openPath (t : Tree) (base : NodeId) (path : Bytes) (mode : OpenMode) :
    Numbered (t.openPath base path mode) := by
  refine .bind (numbered_locate t base path _) fun spot _ => ?_
  cases spot with
  | found id => exact numbered_openFound t id mode
  | vacant directory name =>
      dsimp only
      split
      · exact .error _
      split
      · exact .error _
      · exact .ok _

end Tree

theorem World.numbered_openEndpoint (w : World) (outside : Outside) (pid : Pid) (here : NodeId)
    (path : Bytes) (mode : OpenMode) :
    Numbered (w.openEndpoint outside pid here path mode) := by
  refine .bind (Tree.numbered_openPath _ here path mode) fun opened _ => ?_
  dsimp only
  split
  · exact .ok _
  · refine .bind ?_ fun file _ => .ok _
    unfold reopen
    split
    · exact .ok _
    · exact .ok _
    · exact .ok _
    · exact .error _
  · split
    · exact .error _
    · exact .ok _
  · exact .ok _

theorem Slots.numbered_allocate (s : Slots) (limit : Nat) (least : Fd) (slot : Slot) :
    Numbered (s.allocate limit least slot) := by
  unfold allocate
  dsimp only
  split
  · exact .ok _
  · exact .error _

end Machine

/-! ## The shell's files -/

namespace Host

/-- A file of the shell is not opened because of what the system says, or
because there is the byte zero in its path. -/
theorem cause_of_openFile {h : Host} {directory : NodeId} {path : Bytes} {mode : OpenMode}
    {cause : OsError} (hfailed : h.openFile directory path mode = .error cause) :
    cause = .nulInPath ∨ ∃ number, cause = .code number := by
  unfold openFile at hfailed
  split at hfailed
  · exact Or.inl (Except.error.inj hfailed).symm
  right
  split at hfailed
  · exact ⟨24, (Except.error.inj hfailed).symm⟩
  · have hopen := h.world.numbered_openEndpoint h.shell h.shell.pid directory path mode
    refine Numbered.bind hopen (fun opened _ => ?_) cause hfailed
    exact .bind (Machine.Slots.numbered_allocate h.shell.slots _ _ _) fun slots _ => .ok _

end Host

/-- The complaint about a descriptor has a text of its own. -/
theorem OsError.nulInPath_ne_unredirectable (fd : Int) : nulInPath ≠ unredirectable fd := by
  intro h
  have htext := congrArg String.toList (OsError.custom.inj h)
  simp [toString] at htext

end JobShell
