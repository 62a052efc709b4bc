import JobShell.Host
import JobShell.Proofs.Trees

/-!
# Writing text

Messages and logs go to open files, so they can change what is in a file or
in a pipe. `Host.Writes` says that nothing else is different: the shell has
the same descriptors, the processes are the same, and a path leads where it
led before (`Host.Writes.fileView_eq`).
-/

namespace JobShell

open Machine (NodeId Pid Process World Endpoint OpenFile Outside Tree)

namespace Machine

theorem Tree.alike_write (t : Tree) (id : NodeId) (offset : Nat) (data : Bytes) :
    t.Alike (t.write id offset data) := by
  unfold Tree.write
  split
  case h_2 => exact .refl t
  rename_i old executable hnode
  dsimp only
  generalize old.take offset ++ _ ++ data ++ _ = written
  refine ⟨Array.size_setIfInBounds .., fun other => ?_⟩
  by_cases hlt : other < Tree.firstMadeUp
  · have hafter := node?_kept_setNode t (.file written executable) (by rw [hnode]; rfl) other
    rw [← node?_eq_kept_of_lt _ hlt, ← node?_eq_kept_of_lt _ hlt] at hafter
    rw [hafter]
    split
    · rename_i hand
      obtain ⟨rfl, -⟩ := hand
      rw [hnode]
      exact Or.inr ⟨old, written, executable, rfl, rfl⟩
    · exact Or.inl rfl
  · left
    rw [node?, node?, if_neg hlt, if_neg hlt]
    rfl

namespace World

/-- Only text was written in between. -/
structure Writes (w w' : World) : Prop where
  tree : w.tree.Alike w'.tree
  endpoint : ∀ id, (w'.file? id).map OpenFile.endpoint = (w.file? id).map OpenFile.endpoint
  mode : ∀ id, (w'.file? id).map OpenFile.mode = (w.file? id).map OpenFile.mode
  pipes : w'.pipes.size = w.pipes.size
  processes : w'.processes = w.processes
  nextPid : w'.nextPid = w.nextPid

namespace Writes

variable {w w' w'' : World}

theorem refl (w : World) : w.Writes w := ⟨.refl _, fun _ => rfl, fun _ => rfl, rfl, rfl, rfl⟩

theorem trans (h : w.Writes w') (h' : w'.Writes w'') : w.Writes w'' where
  tree := h.tree.trans h'.tree
  endpoint id := (h'.endpoint id).trans (h.endpoint id)
  mode id := (h'.mode id).trans (h.mode id)
  pipes := h'.pipes.trans h.pipes
  processes := h'.processes.trans h.processes
  nextPid := h'.nextPid.trans h.nextPid

end Writes

/-- Of a file only the offset is set. -/
theorem map_setOffset {α : Type} (w : World) (id other : FileId) (offset : Nat)
    {get : OpenFile → α} (hget : ∀ file : OpenFile, get { file with offset } = get file) :
    ((w.setOffset id offset).file? other).map get = (w.file? other).map get := by
  unfold setOffset file?
  rw [Array.getElem?_modify]
  split
  · rw [Option.map_map]
    exact congrArg (Option.map · _) (funext hget)
  · rfl

theorem writes_of_writePipe {w w' : World} {outside : Outside} {pid : Pid} {pipe : Nat}
    {data : Bytes} {n : Int} (h : w.writePipe outside pid pipe data = .answered (.number n) w') :
    w.Writes w' := by
  unfold writePipe at h
  split at h
  · cases h
  · dsimp only at h
    split at h
    · cases h
    · obtain ⟨-, rfl⟩ := Outcome.answered.inj h
      exact ⟨.refl _, fun _ => rfl, fun _ => rfl, Array.size_setIfInBounds .., rfl, rfl⟩

theorem writes_of_performWrite {w w' : World} {outside : Outside} {pid : Pid} {p : Process}
    {fd : Fd} {data : Bytes} {n : Int}
    (h : w.performWrite outside pid p fd data = .answered (.number n) w') : w.Writes w' := by
  unfold performWrite at h
  split at h
  · cases h
  split at h
  · cases h
  split at h
  · split at h
    · dsimp only at h
      obtain ⟨-, rfl⟩ := Outcome.answered.inj h
      exact ⟨Tree.alike_write .., fun _ => map_setOffset _ _ _ _ fun _ => rfl,
        fun _ => map_setOffset _ _ _ _ fun _ => rfl, rfl, rfl, rfl⟩
    · cases h
    · obtain ⟨-, rfl⟩ := Outcome.answered.inj h
      exact .refl w
    · cases h
  · exact writes_of_writePipe h
  · cases h

/-- Which nodes are made up does not depend on what is in the files. -/
theorem Writes.infoNode?_eq {w w' : World} (h : w.Writes w') (outside : Outside) (self : Pid)
    (here : NodeId) (entry : InfoEntry) :
    w'.infoNode? outside self here entry = w.infoNode? outside self here entry := by
  have hprocess : ∀ pid, w'.process? pid = w.process? pid := fun pid => by
    unfold process?
    rw [h.processes]
  have hview : ∀ pid, w'.view? outside pid = w.view? outside pid := fun pid => by
    unfold view?
    rw [hprocess]
  have hfile : ∀ file, w'.fileNode? file = w.fileNode? file := fun file => by
    unfold fileNode?
    rw [h.endpoint]
  unfold infoNode?
  simp only [hview, hfile, directoryOf?, hprocess, h.processes]

end World

end Machine

namespace Host

open Machine (InfoEntry)

variable {h h' h'' : Host}

theorem nodes_tree (h : Host) (directory : NodeId) :
    (h.tree directory).nodes = h.world.tree.nodes := by
  rw [tree, World.seenBy]

theorem node?_tree_of_not_lt (h : Host) (directory : NodeId) {id : NodeId}
    (hlt : ¬id < Tree.firstMadeUp) :
    (h.tree directory).node? id
      = h.world.infoNode? h.shell h.shell.pid directory (InfoEntry.ofNode id) :=
  if_neg hlt

/-- Only text was written in between. -/
structure Writes (h h' : Host) : Prop where
  world : h.world.Writes h'.world
  shell : h'.shell = h.shell
  slotLimit : h'.slotLimit = h.slotLimit
  logger : h'.logger = h.logger

namespace Writes

theorem refl (h : Host) : h.Writes h := ⟨.refl _, rfl, rfl, rfl⟩

theorem trans (hfirst : h.Writes h') (hrest : h'.Writes h'') : h.Writes h'' where
  world := hfirst.world.trans hrest.world
  shell := hrest.shell.trans hfirst.shell
  slotLimit := hrest.slotLimit.trans hfirst.slotLimit
  logger := hrest.logger.trans hfirst.logger

/-- A directory is seen with the same entries, and files with other contents. -/
theorem tree (hwrites : h.Writes h') (directory : NodeId) :
    (h.tree directory).Alike (h'.tree directory) where
  size := by
    rw [nodes_tree, nodes_tree]
    exact hwrites.world.tree.size
  node id := by
    by_cases hlt : id < Tree.firstMadeUp
    · have hnode := hwrites.world.tree.node id
      rw [Tree.node?_of_lt _ hlt, Tree.node?_of_lt _ hlt] at hnode ⊢
      rwa [nodes_tree, nodes_tree]
    · left
      rw [node?_tree_of_not_lt h directory hlt, node?_tree_of_not_lt h' directory hlt,
        hwrites.shell, hwrites.world.infoNode?_eq]

/-- Commands are found where they were found before. -/
theorem fileView_eq (hwrites : h.Writes h') (directory : NodeId) :
    h'.fileView directory = h.fileView directory := by
  have htree := hwrites.tree directory
  unfold fileView
  rw [htree.pathTo_eq]
  congr 1
  funext path
  exact htree.isRegularFile_eq directory path

end Writes

theorem writes_write (h : Host) (fd : Fd) (data : Bytes) : h.Writes (h.write fd data) := by
  unfold write
  split
  · rename_i hanswer
    exact ⟨World.writes_of_performWrite hanswer, rfl, rfl, rfl⟩
  · exact .refl h

theorem writes_foldl {α : Type} {f : Host → α → Host} (hf : ∀ (h : Host) a, h.Writes (f h a))
    (as : List α) (h : Host) : h.Writes (as.foldl f h) := by
  induction as generalizing h with
  | nil => exact .refl h
  | cons a as ih => exact (hf h a).trans (ih _)

theorem writes_record (h : Host) (r : Log.Record) : h.Writes (h.record r) := by
  refine writes_foldl (fun h delivery => ?_) _ h
  obtain ⟨sink, line⟩ := delivery
  cases sink with
  | user label => exact writes_write h 2 _
  | file fd => exact writes_write h fd _

theorem writes_log (h : Host) (level : Log.Level) (message : String) :
    h.Writes (h.log level message) :=
  writes_record ..

/-- Writes several messages for developers. -/
def logAll (h : Host) (entries : List (Log.Level × String)) : Host :=
  entries.foldl (fun h entry => h.log entry.1 entry.2) h

theorem writes_logAll (h : Host) (entries : List (Log.Level × String)) :
    h.Writes (h.logAll entries) := by
  rw [logAll]
  exact writes_foldl (fun h entry => writes_log h entry.1 entry.2) entries h

end Host

end JobShell
