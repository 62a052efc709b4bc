import JobShell.Proofs.Building
import JobShell.Proofs.Tables
import JobShell.Proofs.Writing

/-!
# What is opened for a job

Building a job opens pipes and files for the shell. Whatever is opened gets a
descriptor that was free (`Host.Extends`), so all descriptors of a job are
different ones.

`Host.Opened` is the sequence of redirections that were applied, each to what
the one before it left. It is where the passes over redirections meet: what
they open, the tables they make and the files they empty are all read off it.
-/

namespace JobShell

open Machine (NodeId Endpoint OpenFile OpenMode FileId Tree World Outside Pid Slots)

/-- What a redirection opens its file for. -/
def Direction.mode : Direction → OpenMode
  | input => .input
  | output => .output

namespace Machine.World

/-- The processes are the same, and the open files go where they went. -/
structure Keeps (w w' : World) : Prop where
  processes : w'.processes = w.processes
  nextPid : w'.nextPid = w.nextPid
  endpoint : ∀ (id : FileId) (e : Endpoint), (w.file? id).map OpenFile.endpoint = some e →
    (w'.file? id).map OpenFile.endpoint = some e

variable {w w' w'' : World}

theorem Keeps.refl (w : World) : w.Keeps w := ⟨rfl, rfl, fun _ _ he => he⟩

theorem Keeps.trans (h : w.Keeps w') (h' : w'.Keeps w'') : w.Keeps w'' where
  processes := h'.processes.trans h.processes
  nextPid := h'.nextPid.trans h.nextPid
  endpoint id e he := h'.endpoint id e (h.endpoint id e he)

theorem Writes.keeps (h : w.Writes w') : w.Keeps w' where
  processes := h.processes
  nextPid := h.nextPid
  endpoint id _ he := (h.endpoint id).trans he

theorem file?_addFile (w : World) (file : OpenFile) :
    (w.addFile file).2.file? (w.addFile file).1 = some file :=
  Array.getElem?_push_size

theorem file?_addFile_of_some {id : FileId} {f : OpenFile} (file : OpenFile)
    (h : w.file? id = some f) : (w.addFile file).2.file? id = some f := by
  have hlt : id < w.files.size := (Array.getElem?_eq_some_iff.mp h).1
  rw [addFile, file?, Array.getElem?_push, if_neg (Nat.ne_of_lt hlt)]
  exact h

theorem keeps_addFile (w : World) (file : OpenFile) : w.Keeps (w.addFile file).2 where
  processes := rfl
  nextPid := rfl
  endpoint id _ he := by
    obtain ⟨f, hf, rfl⟩ := Option.map_eq_some_iff.mp he
    rw [file?_addFile_of_some file hf]
    rfl

/-- What making a pipe does to a world. -/
structure Pipes (w : World) (reader writer : FileId) (w' : World) : Prop where
  keeps : w.Keeps w'
  reader : (w'.file? reader).map OpenFile.endpoint = some (.pipeReader w.pipes.size)
  writer : (w'.file? writer).map OpenFile.endpoint = some (.pipeWriter w.pipes.size)
  pipes : w'.pipes.size = w.pipes.size + 1
  tree : w'.tree = w.tree

theorem pipes_addPipe (w : World) : w.Pipes w.addPipe.1 w.addPipe.2.1 w.addPipe.2.2 := by
  have hpushed : w.Keeps { w with pipes := w.pipes.push [] } := ⟨rfl, rfl, fun _ _ he => he⟩
  have hreader := keeps_addFile { w with pipes := w.pipes.push [] }
    { endpoint := .pipeReader w.pipes.size, mode := { reads := true } }
  have hwriter := keeps_addFile
    (({ w with pipes := w.pipes.push [] } : World).addFile
      { endpoint := .pipeReader w.pipes.size, mode := { reads := true } }).2
    { endpoint := .pipeWriter w.pipes.size, mode := { writes := true } }
  exact
    { keeps := (hpushed.trans hreader).trans hwriter
      reader := hwriter.endpoint _ _ (congrArg _ (file?_addFile ..))
      writer := congrArg _ (file?_addFile ..)
      pipes := Array.size_push ..
      tree := rfl }

theorem mode_of_reopen {id : FileId} {mode : OpenMode} {file : OpenFile}
    (h : w.reopen id mode = .ok file) : file.mode = mode := by
  unfold reopen at h
  split at h <;> cases h <;> rfl

/-- Opening a file takes the tree that opening its path leaves, unless the
file was made up. -/
theorem openPath_of_openEndpoint {outside : Outside} {pid : Pid} {here : NodeId}
    {path : Bytes} {mode : OpenMode} {file : OpenFile}
    (h : w.openEndpoint outside pid here path mode = .ok (file, w')) :
    ∃ id t tree, (w.seenBy outside pid here).openPath here path mode = .ok (id, t)
      ∧ w' = { w with tree } ∧ file.mode = mode
      ∧ (tree = t.kept
        ∨ tree = w.tree ∧ ∀ data executable, t.node? id ≠ some (.file data executable)) := by
  obtain ⟨⟨id, t⟩, hopen, h⟩ := Except.bind_eq_ok_iff.mp h
  dsimp only at h
  split at h
  · rename_i hnode
    obtain ⟨rfl, rfl⟩ := Prod.mk.inj (Except.ok.inj h)
    exact ⟨id, t, w.tree, hopen, rfl, rfl, Or.inr ⟨rfl, by simp [hnode]⟩⟩
  · rename_i hnode
    obtain ⟨file', hreopen, h⟩ := Except.bind_eq_ok_iff.mp h
    obtain ⟨rfl, rfl⟩ := Prod.mk.inj (Except.ok.inj h)
    exact ⟨id, t, w.tree, hopen, rfl, mode_of_reopen hreopen, Or.inr ⟨rfl, by simp [hnode]⟩⟩
  · rename_i hnode
    split at h
    · cases h
    · obtain ⟨rfl, rfl⟩ := Prod.mk.inj (Except.ok.inj h)
      exact ⟨id, t, w.tree, hopen, rfl, rfl, Or.inr ⟨rfl, by simp [hnode]⟩⟩
  · obtain ⟨rfl, rfl⟩ := Prod.mk.inj (Except.ok.inj h)
    exact ⟨id, t, t.kept, hopen, rfl, rfl, Or.inl rfl⟩

/-- Opening a file for output empties what its path leads to, and for input
nothing. -/
theorem emptied_of_openEndpoint {outside : Outside} {pid : Pid} {here : NodeId} {path : Bytes}
    {direction : Direction} {file : OpenFile}
    (h : w.openEndpoint outside pid here path direction.mode = .ok (file, w')) :
    ∃ id t tree, (w.seenBy outside pid here).openPath here path direction.mode = .ok (id, t)
      ∧ w' = { w with tree }
      ∧ Tree.Emptied (fun other => direction = .output ∧ id = other) w.tree tree := by
  obtain ⟨id, t, tree, hopen, hw', -, htree⟩ := openPath_of_openEndpoint h
  refine ⟨id, t, tree, hopen, hw', ?_⟩
  have hopening := Tree.opening_of_openPath hopen
  have hseen : (w.seenBy outside pid here).nodes = w.tree.nodes := by rw [seenBy]
  cases direction with
  | input =>
      have hdirection : Direction.input ≠ .output := by decide
      have hnodes : tree.nodes = w.tree.nodes := by
        rcases htree with rfl | ⟨rfl, -⟩
        · rw [← hseen, ← hopening.eq_of_input]
          rfl
        · rfl
      have hrefl : Tree.Emptied (fun other => Direction.input = .output ∧ id = other)
          w.tree w.tree :=
        .refl (fun _ _ _ hopened => absurd hopened.1 hdirection) fun _ hopened =>
          absurd hopened.1 hdirection
      exact hrefl.of_nodes_eq rfl hnodes
  | output =>
      have hopened : (fun other => Direction.output = .output ∧ id = other) = (· = id) := by
        funext other
        simp [eq_comm]
      rw [hopened]
      rcases htree with rfl | ⟨rfl, hnot⟩
      · exact hopening.emptied_output.of_nodes_eq hseen.symm rfl
      · exact (hopening.emptied_self hnot).of_nodes_eq hseen.symm hseen.symm

end Machine.World

namespace Host

variable {h h' h'' : Host} {directory : NodeId}

/-! ## Descriptors that are added -/

/-- What is behind a descriptor of the shell. -/
def endpoint? (h : Host) (fd : Fd) : Option Endpoint :=
  (h.shell.slots[fd]?).bind fun slot => (h.world.file? slot.file).map OpenFile.endpoint

/-- The shell has what it had, with more files and descriptors perhaps. -/
structure Extends (h h' : Host) : Prop where
  world : h.world.Keeps h'.world
  shell : h'.shell = { h.shell with slots := h'.shell.slots }
  slots : h.shell.slots.Grows 0 h'.shell.slots

theorem Writes.extends_ (hwrites : h.Writes h') : h.Extends h' where
  world := hwrites.world.keeps
  shell := by rw [hwrites.shell]
  slots := by
    rw [hwrites.shell]
    exact .refl 0 _

namespace Extends

theorem refl (h : Host) : h.Extends h := (Writes.refl h).extends_

theorem trans (hfirst : h.Extends h') (hrest : h'.Extends h'') : h.Extends h'' where
  world := hfirst.world.trans hrest.world
  shell := by rw [hrest.shell, hfirst.shell]
  slots := hfirst.slots.trans hrest.slots

theorem foreground (hext : h.Extends h') : h'.shell.foreground = h.shell.foreground :=
  (congrArg Outside.foreground hext.shell :)

theorem endpoint?_eq {fd : Fd} {e : Endpoint} (hext : h.Extends h')
    (he : h.endpoint? fd = some e) : h'.endpoint? fd = some e := by
  obtain ⟨slot, hslot, hfile⟩ := Option.bind_eq_some_iff.mp he
  rw [endpoint?, hext.slots.kept fd slot hslot]
  exact hext.world.endpoint slot.file e hfile

end Extends

theorem mem_of_endpoint? {fd : Fd} {e : Endpoint} (he : h.endpoint? fd = some e) :
    fd ∈ h.shell.slots := by
  obtain ⟨slot, hslot, -⟩ := Option.bind_eq_some_iff.mp he
  exact Slots.mem_iff_exists.mpr ⟨slot, hslot⟩

theorem world_closeAll (h : Host) (fds : List Fd) : (h.closeAll fds).world = h.world := by
  unfold closeAll
  induction fds generalizing h with
  | nil => rfl
  | cons fd rest ih => exact ih _

theorem foreground_closeAll (h : Host) (fds : List Fd) :
    (h.closeAll fds).shell.foreground = h.shell.foreground := by
  unfold closeAll
  induction fds generalizing h with
  | nil => rfl
  | cons fd rest ih => exact ih _

/-! ## Commands -/

/-- Finding the files of commands only writes to the logs. -/
theorem exists_logAll_prepareStages (h : Host) (directory : NodeId) (searchPath : Bytes)
    (first : Nat) (stages : List Stage) :
    ∃ entries, (h.prepareStages directory searchPath first stages).2 = h.logAll entries := by
  induction stages generalizing h first with
  | nil => exact ⟨[], rfl⟩
  | cons stage rest ih =>
      rw [prepareStages]
      split
      · exact ⟨[], rfl⟩
      · rename_i s h₁ hs
        obtain ⟨path, message, -, -, rfl⟩ := prepareStage_eq_ok hs
        obtain ⟨entries, hrest⟩ := ih (h.log .info message) (first + 1)
        refine ⟨(.info, message) :: entries, ?_⟩
        split
        · rename_i heq
          rwa [heq] at hrest
        · rename_i heq
          rwa [heq] at hrest

/-! ## Pipes -/

/-- A pipe was made, with its ends at two descriptors. -/
structure Piped (h : Host) (reader writer : Fd) (h' : Host) : Prop where
  extends_ : h.Extends h'
  reader_free : reader ∉ h.shell.slots
  writer_free : writer ∉ h.shell.slots
  ne : reader ≠ writer
  reader : h'.endpoint? reader = some (.pipeReader h.world.pipes.size)
  writer : h'.endpoint? writer = some (.pipeWriter h.world.pipes.size)
  pipes : h'.world.pipes.size = h.world.pipes.size + 1
  tree : h'.world.tree = h.world.tree

theorem piped_of_makePipe {reader writer : Fd} (hok : h.makePipe = .ok ((reader, writer), h')) :
    h.Piped reader writer h' := by
  have hpipes := World.pipes_addPipe h.world
  unfold makePipe at hok
  generalize h.world.addPipe = added at hok hpipes
  obtain ⟨readerFile, writerFile, world⟩ := added
  obtain ⟨⟨first, slots⟩, hreader, hok⟩ := Except.bind_eq_ok_iff.mp hok
  obtain ⟨⟨second, slots'⟩, hwriter, hok⟩ := Except.bind_eq_ok_iff.mp hok
  obtain ⟨hfds, rfl⟩ := Prod.mk.inj (Except.ok.inj hok)
  obtain ⟨rfl, rfl⟩ := Prod.mk.inj hfds
  have hgrows := Slots.grows_of_allocate hreader
  have hgrows' := Slots.grows_of_allocate hwriter
  have hget := Slots.getElem?_of_allocate hreader
  have hget' := Slots.getElem?_of_allocate hwriter
  have hfree := (Slots.eq_insert_of_allocate hreader).1
  have hfree' := (Slots.eq_insert_of_allocate hwriter).1
  exact
    { extends_ := ⟨hpipes.keeps, rfl, hgrows.trans hgrows'⟩
      reader_free := hfree
      writer_free := fun hmem => hfree' (hgrows.mem hmem)
      ne := by
        rintro rfl
        exact hfree' (Slots.mem_iff_exists.mpr ⟨_, hget⟩)
      reader := by
        rw [endpoint?, hgrows'.kept _ _ hget]
        exact hpipes.reader
      writer := by
        rw [endpoint?, hget']
        exact hpipes.writer
      pipes := hpipes.pipes
      tree := hpipes.tree }

/-- Pipes were made one after the other, with these read and write ends. -/
inductive Connected : Host → List (Fd × Fd) → Host → Prop
  | nil (h : Host) : Connected h [] h
  | cons {h h' h'' : Host} {reader writer : Fd} {rest : List (Fd × Fd)}
      (hpipe : h.makePipe = .ok ((reader, writer), h')) (hrest : Connected h' rest h'') :
      Connected h ((reader, writer) :: rest) h''

namespace Connected

variable {ends : List (Fd × Fd)}

theorem extends_ (hconnected : h.Connected ends h') : h.Extends h' := by
  induction hconnected with
  | nil h => exact .refl h
  | cons hpipe _ ih => exact (piped_of_makePipe hpipe).extends_.trans ih

theorem pipes (hconnected : h.Connected ends h') :
    h'.world.pipes.size = h.world.pipes.size + ends.length := by
  induction hconnected with
  | nil => rfl
  | cons hpipe _ ih =>
      rw [ih, (piped_of_makePipe hpipe).pipes, List.length_cons]
      omega

theorem tree (hconnected : h.Connected ends h') : h'.world.tree = h.world.tree := by
  induction hconnected with
  | nil => rfl
  | cons hpipe _ ih => exact ih.trans (piped_of_makePipe hpipe).tree

/-- Each end is at its descriptor. -/
theorem endpoint {i : Nat} {reader writer : Fd} (hconnected : h.Connected ends h')
    (hend : ends[i]? = some (reader, writer)) :
    h'.endpoint? reader = some (.pipeReader (h.world.pipes.size + i))
      ∧ h'.endpoint? writer = some (.pipeWriter (h.world.pipes.size + i)) := by
  induction hconnected generalizing i with
  | nil => cases hend
  | @cons h h₁ h' first second rest hpipe hrest ih =>
      have hpiped := piped_of_makePipe hpipe
      cases i with
      | zero =>
          obtain ⟨rfl, rfl⟩ := Prod.mk.inj (Option.some.inj hend)
          have hext := hrest.extends_
          exact ⟨hext.endpoint?_eq hpiped.reader, hext.endpoint?_eq hpiped.writer⟩
      | succ i =>
          have hlater := ih hend
          rwa [hpiped.pipes, Nat.add_right_comm, Nat.add_assoc] at hlater

/-- All ends are at different descriptors, which were free. -/
theorem fresh (hconnected : h.Connected ends h') :
    (∀ fd ∈ ends.map Prod.fst ++ ends.map Prod.snd, fd ∉ h.shell.slots)
      ∧ (ends.map Prod.fst ++ ends.map Prod.snd).Nodup := by
  induction hconnected with
  | nil => simp
  | @cons h h₁ h' reader writer rest hpipe _ ih =>
      have hpiped := piped_of_makePipe hpipe
      obtain ⟨hfree, hnodup⟩ := ih
      have hperm : (((reader, writer) :: rest).map Prod.fst
          ++ ((reader, writer) :: rest).map Prod.snd).Perm
          (reader :: writer :: (rest.map Prod.fst ++ rest.map Prod.snd)) :=
        List.perm_middle.cons reader
      have hnot : ∀ fd ∈ h₁.shell.slots, fd ∉ rest.map Prod.fst ++ rest.map Prod.snd :=
        fun fd hmem hfd => hfree fd hfd hmem
      constructor
      · intro fd hfd hmem
        rcases List.mem_cons.mp (hperm.mem_iff.mp hfd) with rfl | hfd
        · exact hpiped.reader_free hmem
        rcases List.mem_cons.mp hfd with rfl | hfd
        · exact hpiped.writer_free hmem
        · exact hfree fd hfd (hpiped.extends_.slots.mem hmem)
      · rw [hperm.nodup_iff, List.nodup_cons, List.nodup_cons, List.mem_cons, not_or]
        exact ⟨⟨hpiped.ne, hnot _ (mem_of_endpoint? hpiped.reader)⟩,
          hnot _ (mem_of_endpoint? hpiped.writer), hnodup⟩

end Connected

/-- The input of a stage at some place, and its output, if the first stage
has `first` as its input. -/
def inputAt (first : Descriptor) (ends : List (Fd × Fd)) : Nat → Descriptor
  | 0 => first
  | i + 1 => ((ends[i]?).map fun e => .pipe e.1).getD .inherit

def outputAt (ends : List (Fd × Fd)) (i : Nat) : Descriptor :=
  ((ends[i]?).map fun e => .pipe e.2).getD .inherit

/-- Pipes are made until one can not be. If none fails, every stage has the
ends next to it. -/
theorem connected_of_connectFrom {left : PreparedStage} {rest stages : List PreparedStage}
    {failed : Option Failure} (hok : h.connectFrom left rest = (failed, stages, h')) :
    ∃ ends, h.Connected ends h' ∧ match failed with
      | none => ends.length = rest.length ∧ stages.length = rest.length + 1
        ∧ ∀ (i : Nat) (s : PreparedStage), (left :: rest)[i]? = some s → s.stdout = .inherit →
          stages[i]? = some { s with
            stdin := inputAt left.stdin ends i
            stdout := outputAt ends i }
      | some failure => ∃ cause, failure = .pipe cause := by
  induction rest generalizing h left stages with
  | nil =>
      obtain ⟨rfl, hpair⟩ := Prod.mk.inj hok
      obtain ⟨rfl, rfl⟩ := Prod.mk.inj hpair
      refine ⟨[], .nil h, rfl, rfl, fun i s hs hout => ?_⟩
      cases i with
      | zero =>
          obtain rfl := Option.some.inj hs
          rw [show outputAt [] 0 = left.stdout from hout.symm]
          rfl
      | succ i => cases hs
  | cons right rest ih =>
      unfold connectFrom at hok
      split at hok
      · rename_i cause _
        obtain ⟨rfl, hpair⟩ := Prod.mk.inj hok
        obtain ⟨-, rfl⟩ := Prod.mk.inj hpair
        exact ⟨[], .nil h, cause, rfl⟩
      · rename_i reader writer h₁ hpipe
        cases hrest : h₁.connectFrom { right with stdin := .pipe reader } rest with
        | mk result pair =>
        rw [hrest] at hok
        obtain ⟨rfl, hpair⟩ := Prod.mk.inj hok
        obtain ⟨rfl, rfl⟩ := Prod.mk.inj hpair
        obtain ⟨ends, hconnected, hresult⟩ := ih hrest
        refine ⟨(reader, writer) :: ends, .cons hpipe hconnected, ?_⟩
        cases result with
        | some failure => exact hresult
        | none =>
            obtain ⟨hends, hlength, hstages⟩ := hresult
            refine ⟨congrArg (· + 1) hends, congrArg (· + 1) hlength, fun i s hs hout => ?_⟩
            cases i with
            | zero =>
                obtain rfl := Option.some.inj hs
                rfl
            | succ i =>
                cases i with
                | zero =>
                    obtain rfl := Option.some.inj hs
                    exact hstages 0 { right with stdin := .pipe reader } rfl hout
                | succ i => exact hstages (i + 1) s hs hout

/-! ## Files -/

/-- The node that opening the file of a redirection leads to. -/
def nodeOf? (h : Host) (directory : NodeId) (r : Redirection) : Option NodeId :=
  ((h.tree directory).openPath directory r.path r.direction.mode).toOption.map Prod.fst

/-- A redirection was applied: its file has a new descriptor, and if it is
for output the file is empty now. -/
structure Redirected (h : Host) (directory : NodeId) (o : OpenedFile) (h' : Host) : Prop where
  extends_ : h.Extends h'
  redirectable : DescriptorTable.isRedirectable o.redirection.fd = true
  free : o.fd ∉ h.shell.slots
  mem : o.fd ∈ h'.shell.slots
  pipes : h'.world.pipes.size = h.world.pipes.size
  node : h.nodeOf? directory o.redirection = some o.node
  tree : Tree.Emptied (fun id => o.redirection.direction = .output ∧ o.node = id)
    h.world.tree h'.world.tree

/-- What opening a file for the shell is made of. -/
theorem parts_of_openFile {path : Bytes} {mode : OpenMode} {fd : Fd}
    (hok : h.openFile directory path mode = .ok (fd, h')) :
    ∃ file world slots, h.world.openEndpoint h.shell h.shell.pid directory path mode
        = .ok (file, world)
      ∧ h.shell.slots.allocate h.slotLimit 0 ⟨(world.addFile file).1, true⟩ = .ok (fd, slots)
      ∧ h' = { h with
          world := (world.addFile file).2
          shell := { h.shell with slots } } := by
  unfold openFile at hok
  split at hok
  · cases hok
  split at hok
  · cases hok
  obtain ⟨⟨file, world⟩, hopen, hok⟩ := Except.bind_eq_ok_iff.mp hok
  obtain ⟨⟨new, slots⟩, hslots, hok⟩ := Except.bind_eq_ok_iff.mp hok
  obtain ⟨rfl, rfl⟩ := Prod.mk.inj (Except.ok.inj hok)
  exact ⟨file, world, slots, hopen, hslots, rfl⟩

theorem openRedirection_eq (h : Host) (directory : NodeId) (r : Redirection) :
    h.openRedirection directory r
      = if DescriptorTable.isRedirectable r.fd then
          (h.openFile directory r.path r.direction.mode).mapError (.redirection r.path)
        else .error (.redirection r.path (.unredirectable r.fd)) := by
  obtain ⟨fd, direction, path⟩ := r
  unfold openRedirection
  cases hredirectable : DescriptorTable.isRedirectable fd with
  | false => rfl
  | true =>
      cases direction with
      | input =>
          cases hfile : h.openFile directory path .input <;>
            simp [Direction.mode, hfile, Except.mapError]
      | output =>
          cases hfile : h.openFile directory path .output <;>
            simp [Direction.mode, hfile, Except.mapError]

theorem redirected_of_openRedirection {r : Redirection} {fd : Fd}
    (hok : h.openRedirection directory r = .ok (fd, h')) :
    ∃ node, h.Redirected directory ⟨r, fd, node⟩ h' := by
  rw [openRedirection_eq] at hok
  split at hok
  case isFalse => cases hok
  rename_i hredirectable
  obtain ⟨file, world, slots, hopen, hslots, rfl⟩ :=
    parts_of_openFile (Except.mapError_eq_ok_iff.mp hok)
  obtain ⟨node, t, tree, hpath, rfl, hemptied⟩ := World.emptied_of_openEndpoint hopen
  have hkeeps : h.world.Keeps { h.world with tree } := ⟨rfl, rfl, fun _ _ he => he⟩
  exact ⟨node,
    { extends_ := ⟨hkeeps.trans (World.keeps_addFile ..), rfl, Slots.grows_of_allocate hslots⟩
      redirectable := hredirectable
      free := (Slots.eq_insert_of_allocate hslots).1
      mem := Slots.mem_iff_exists.mpr ⟨_, Slots.getElem?_of_allocate hslots⟩
      pipes := rfl
      node := by
        rw [nodeOf?, Host.tree, hpath]
        rfl
      tree := hemptied }⟩

/-- The redirections were applied one after the other. -/
inductive Opened (directory : NodeId) : Host → List OpenedFile → Host → Prop
  | nil (h : Host) : Opened directory h [] h
  | cons {h h' h'' : Host} {o : OpenedFile} {rest : List OpenedFile}
      (hopen : h.openRedirection directory o.redirection = .ok (o.fd, h'))
      (hnode : h.nodeOf? directory o.redirection = some o.node)
      (hrest : Opened directory h' rest h'') : Opened directory h (o :: rest) h''

namespace Opened

variable {opened more : List OpenedFile}

theorem append (hfirst : h.Opened directory opened h') (hrest : h'.Opened directory more h'') :
    h.Opened directory (opened ++ more) h'' := by
  induction hfirst with
  | nil => exact hrest
  | cons hopen hnode _ ih => exact .cons hopen hnode (ih hrest)

/-- One redirection of a sequence, with the host that it was applied to. -/
theorem redirected_head {o : OpenedFile}
    (hopen : h.openRedirection directory o.redirection = .ok (o.fd, h'))
    (hnode : h.nodeOf? directory o.redirection = some o.node) :
    h.Redirected directory o h' := by
  obtain ⟨node, hredirected⟩ := redirected_of_openRedirection hopen
  obtain rfl : node = o.node := Option.some.inj (hredirected.node.symm.trans hnode)
  exact hredirected

theorem extends_ (hopened : h.Opened directory opened h') : h.Extends h' := by
  induction hopened with
  | nil h => exact .refl h
  | cons hopen hnode _ ih => exact (redirected_head hopen hnode).extends_.trans ih

theorem pipes (hopened : h.Opened directory opened h') :
    h'.world.pipes.size = h.world.pipes.size := by
  induction hopened with
  | nil => rfl
  | cons hopen hnode _ ih => exact ih.trans (redirected_head hopen hnode).pipes

theorem redirectable (hopened : h.Opened directory opened h') :
    ∀ o ∈ opened, DescriptorTable.isRedirectable o.redirection.fd = true := by
  induction hopened with
  | nil => simp
  | cons hopen hnode _ ih =>
      exact List.forall_mem_cons.mpr ⟨(redirected_head hopen hnode).redirectable, ih⟩

/-- The files are open at numbers that were free. -/
theorem fresh (hopened : h.Opened directory opened h') :
    (∀ o ∈ opened, o.fd ∉ h.shell.slots ∧ o.fd ∈ h'.shell.slots)
      ∧ (opened.map OpenedFile.fd).Nodup := by
  induction hopened with
  | nil => simp
  | @cons h h₁ h' o rest hopen hnode hrest ih =>
      have hhead := redirected_head hopen hnode
      obtain ⟨hfresh, hnodup⟩ := ih
      constructor
      · refine List.forall_mem_cons.mpr ⟨⟨hhead.free, hrest.extends_.slots.mem hhead.mem⟩, ?_⟩
        intro o' ho'
        exact ⟨fun hmem => (hfresh o' ho').1 (hhead.extends_.slots.mem hmem), (hfresh o' ho').2⟩
      · rw [List.map_cons, List.nodup_cons]
        refine ⟨fun hmem => ?_, hnodup⟩
        obtain ⟨o', ho', heq⟩ := List.mem_map.mp hmem
        exact (hfresh o' ho').1 (heq ▸ hhead.mem)

/-- The nodes that some redirections opened for output. -/
def Outputs (opened : List OpenedFile) (id : NodeId) : Prop :=
  ∃ o ∈ opened, o.redirection.direction = .output ∧ o.node = id

/-- The output files among them are empty now, and no other file was created
or truncated. -/
theorem emptied (hopened : h.Opened directory opened h') :
    Tree.Emptied (Outputs opened) h.world.tree h'.world.tree := by
  induction hopened with
  | nil h => exact .refl (fun _ _ _ ⟨_, ho, _⟩ => nomatch ho) fun _ ⟨_, ho, _⟩ => nomatch ho
  | @cons h h₁ h' o rest hopen hnode _ ih =>
      have hhead := (redirected_head hopen hnode).tree.trans ih
      have houtputs : Outputs (o :: rest)
          = fun id => (o.redirection.direction = .output ∧ o.node = id) ∨ Outputs rest id := by
        funext id
        simp [Outputs]
      rwa [houtputs]

end Opened

/-! ## The passes over redirections -/

/-- The redirections that were applied, and the one at which this ended, if
there is one. -/
inductive Applied (directory : NodeId) (h : Host) (redirections : List Redirection) :
    List OpenedFile → Option Failure → Host → Prop
  | all {h' : Host} {opened : List OpenedFile} (hopened : h.Opened directory opened h')
      (hall : opened.map OpenedFile.redirection = redirections) :
      Applied directory h redirections opened none h'
  | upTo {h' : Host} {opened : List OpenedFile} {r : Redirection} {back : List Redirection}
      {failure : Failure} (hopened : h.Opened directory opened h')
      (hfront : opened.map OpenedFile.redirection ++ r :: back = redirections)
      (hfailed : h'.openRedirection directory r = .error failure) :
      Applied directory h redirections opened (some failure) h'

theorem applied_of_redirectAll {t t' : DescriptorTable} {redirections : List Redirection}
    {failed : Option Failure} (hok : h.redirectAll directory t redirections = (failed, t', h')) :
    ∃ opened, Applied directory h redirections opened failed h' ∧ t' = t.redirectEach opened := by
  induction redirections generalizing h t with
  | nil =>
      obtain ⟨rfl, hpair⟩ := Prod.mk.inj hok
      obtain ⟨rfl, rfl⟩ := Prod.mk.inj hpair
      exact ⟨[], .all (.nil h) rfl, rfl⟩
  | cons r rest ih =>
      unfold redirectAll at hok
      split at hok
      · rename_i failure hfailed
        obtain ⟨rfl, hpair⟩ := Prod.mk.inj hok
        obtain ⟨rfl, rfl⟩ := Prod.mk.inj hpair
        exact ⟨[], .upTo (.nil h) rfl hfailed, rfl⟩
      · rename_i fd h₁ hopen
        obtain ⟨node, hredirected⟩ := redirected_of_openRedirection hopen
        obtain ⟨opened, happlied, ht⟩ := ih hok
        refine ⟨⟨r, fd, node⟩ :: opened, ?_, ht⟩
        cases happlied with
        | all hopened hall =>
            exact .all (.cons hopen hredirected.node hopened) (congrArg (r :: ·) hall)
        | upTo hopened hfront hfailed =>
            exact .upTo (.cons hopen hredirected.node hopened) (congrArg (r :: ·) hfront) hfailed

namespace Applied

variable {front back : List Redirection} {opened more : List OpenedFile}

theorem append {failed : Option Failure} (hopened : h.Opened directory opened h')
    (hall : opened.map OpenedFile.redirection = front)
    (happlied : Applied directory h' back more failed h'') :
    Applied directory h (front ++ back) (opened ++ more) failed h'' := by
  cases happlied with
  | all hmore hrest =>
      exact .all (hopened.append hmore) (by rw [List.map_append, hall, hrest])
  | @upTo _ _ r after _ hmore hrest hfailed =>
      have hfront : (opened ++ more).map OpenedFile.redirection ++ r :: after = front ++ back := by
        rw [List.map_append, hall, List.append_assoc, hrest]
      exact .upTo (hopened.append hmore) hfront hfailed

/-- What comes after a redirection that fails does not matter. -/
theorem extend {failure : Failure} (happlied : Applied directory h front opened (some failure) h')
    (back : List Redirection) : Applied directory h (front ++ back) opened (some failure) h' := by
  cases happlied with
  | @upTo _ _ r after _ hopened hfront hfailed =>
      have hextended : opened.map OpenedFile.redirection ++ r :: (after ++ back)
          = front ++ back := by
        rw [← hfront, List.append_assoc, List.cons_append]
      exact .upTo hopened hextended hfailed

end Applied

theorem applied_of_buildTable {stdin stdout : Descriptor} {redirections : List Redirection}
    {result : Except Failure DescriptorTable}
    (hok : h.buildTable directory stdin stdout redirections = (result, h')) :
    ∃ opened failed h₁, Applied directory h redirections opened failed h₁
      ∧ match failed with
        | none =>
          result = .ok ((DescriptorTable.standard stdin stdout).redirectEach opened) ∧ h' = h₁
        | some failure => result = .error failure ∧ ∃ fds, h' = h₁.closeAll fds := by
  unfold buildTable at hok
  split at hok
  · rename_i t h₁ hredirect
    obtain ⟨rfl, rfl⟩ := Prod.mk.inj hok
    obtain ⟨opened, happlied, rfl⟩ := applied_of_redirectAll hredirect
    exact ⟨opened, none, h₁, happlied, rfl, rfl⟩
  · rename_i failure t h₁ hredirect
    obtain ⟨rfl, rfl⟩ := Prod.mk.inj hok
    obtain ⟨opened, happlied, -⟩ := applied_of_redirectAll hredirect
    exact ⟨opened, some failure, h₁, happlied, rfl, t.fds, rfl⟩

/-- A stage with the table that its redirections make. -/
def withTable (s : PreparedStage) (opened : List OpenedFile) : PreparedStage :=
  { s with
    stdin := .inherit
    stdout := .inherit
    table? := some ((DescriptorTable.standard s.stdin s.stdout).redirectEach opened) }

theorem applied_of_buildStage {s s' : PreparedStage} {failed : Option Failure}
    (hok : h.buildStage directory s = (failed, s', h')) :
    ∃ opened h₁, Applied directory h s.stage.redirections opened failed h₁
      ∧ match failed with
        | none => s' = withTable s opened ∧ h' = h₁
        | some _ => ∃ fds, h' = h₁.closeAll fds := by
  unfold buildStage at hok
  split at hok
  · rename_i t h₁ htable
    obtain ⟨rfl, hpair⟩ := Prod.mk.inj hok
    obtain ⟨rfl, rfl⟩ := Prod.mk.inj hpair
    obtain ⟨opened, failed, h₂, happlied, hresult⟩ := applied_of_buildTable htable
    cases failed with
    | none =>
        obtain ⟨ht, rfl⟩ := hresult
        obtain rfl := Except.ok.inj ht
        exact ⟨opened, h₁, happlied, rfl, rfl⟩
    | some failure => cases hresult.1
  · rename_i failure h₁ htable
    obtain ⟨rfl, hpair⟩ := Prod.mk.inj hok
    obtain ⟨rfl, rfl⟩ := Prod.mk.inj hpair
    obtain ⟨opened, failed, h₂, happlied, hresult⟩ := applied_of_buildTable htable
    cases failed with
    | none => cases hresult.1
    | some failure' =>
        obtain ⟨hfailure, hclosed⟩ := hresult
        obtain rfl := Except.error.inj hfailure
        exact ⟨opened, h₂, happlied, hclosed⟩

/-- The redirections of all stages are applied as if they were those of one.
When one of them fails, only descriptors are closed after it. -/
theorem applied_of_buildStages {stages built : List PreparedStage} {failed : Option Failure}
    (hok : h.buildStages directory stages = (failed, built, h')) :
    ∃ opened h₁,
      Applied directory h (stages.flatMap (·.stage.redirections)) opened failed h₁
        ∧ ∃ fds, h' = h₁.closeAll fds := by
  induction stages generalizing h built with
  | nil =>
      obtain ⟨rfl, hpair⟩ := Prod.mk.inj hok
      obtain ⟨-, rfl⟩ := Prod.mk.inj hpair
      exact ⟨[], h, .all (.nil h) rfl, [], rfl⟩
  | cons s rest ih =>
      unfold buildStages at hok
      split at hok
      · rename_i failure s' h₁ hstage
        obtain ⟨rfl, hpair⟩ := Prod.mk.inj hok
        obtain ⟨-, rfl⟩ := Prod.mk.inj hpair
        obtain ⟨opened, h₂, happlied, hclosed⟩ := applied_of_buildStage hstage
        exact ⟨opened, h₂, happlied.extend _, hclosed⟩
      · rename_i s' h₁ hstage
        obtain ⟨opened, h₂, happlied, rfl, rfl⟩ := applied_of_buildStage hstage
        obtain ⟨rfl, hpair⟩ := Prod.mk.inj hok
        obtain ⟨-, rfl⟩ := Prod.mk.inj hpair
        obtain ⟨more, h₃, hrest, hclosed⟩ := ih (Prod.ext rfl (Prod.ext rfl rfl))
        cases happlied with
        | all hopened hall => exact ⟨opened ++ more, h₃, .append hopened hall hrest, hclosed⟩

/-- Where no redirection fails, each table is made of those of its stage. -/
theorem tables_of_buildStages {stages built : List PreparedStage}
    (hok : h.buildStages directory stages = (none, built, h')) :
    ∃ traces : List (List OpenedFile),
      traces.map (·.map OpenedFile.redirection) = stages.map (·.stage.redirections)
        ∧ h.Opened directory traces.flatten h'
        ∧ built = List.zipWith withTable stages traces := by
  induction stages generalizing h built with
  | nil =>
      obtain ⟨rfl, rfl⟩ := Prod.mk.inj (Prod.mk.inj hok).2
      exact ⟨[], rfl, .nil h, rfl⟩
  | cons s rest ih =>
      unfold buildStages at hok
      split at hok
      · cases hok
      · rename_i s' h₁ hstage
        obtain ⟨opened, h₂, happlied, rfl, rfl⟩ := applied_of_buildStage hstage
        obtain ⟨hnone, hpair⟩ := Prod.mk.inj hok
        obtain ⟨rfl, rfl⟩ := Prod.mk.inj hpair
        obtain ⟨traces, hredirections, hrest, hbuilt⟩ := ih (Prod.ext hnone (Prod.ext rfl rfl))
        cases happlied with
        | all hopened hall =>
            refine ⟨opened :: traces, ?_, hopened.append hrest, ?_⟩
            · rw [List.map_cons, List.map_cons, hall, hredirections]
            · exact congrArg _ hbuilt

/-! ## A small machine -/

/-- A machine with the file `/a`, and a shell that has its three streams. -/
def small : Host where
  world :=
    { library := fun _ => none
      tree :=
        { nodes :=
            #[.directory Tree.root (((∅ : Std.TreeMap Bytes NodeId).insert [97] 1).insert [110] 2),
              .file [] true, .device .null] }
      files := #[{ endpoint := .node 2, mode := { reads := true, writes := true } }]
      nextPid := 2 }
  shell :=
    { pid := 1, group := 1, foreground := none, ignored := []
      slots := (((∅ : Slots).insert 0 ⟨0, false⟩).insert 1 ⟨0, false⟩).insert 2 ⟨0, false⟩ }

end Host

end JobShell
