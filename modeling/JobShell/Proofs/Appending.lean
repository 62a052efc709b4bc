import JobShell.Proofs.Growth

/-!
# Lines at the end of files

A descriptor that appends puts what is written to it behind what is in its
file, and no other file is different then. So when lines are written one after
the other, each file has in the end what it had before and the lines for it, in
their order (`contents_writeAll`). Which descriptors the lines go through does
not matter.

Writing records to the logs is writing such lines (`foldl_record`).
-/

namespace JobShell

open Machine (NodeId Node Endpoint OpenFile OpenMode Tree World Outside Pid Process FileId)

namespace Machine

namespace Tree

theorem contents_write_self {t : Tree} {id : NodeId} {old : Bytes} {executable : Bool}
    (hlt : id < firstMadeUp) (hnode : t.node? id = some (.file old executable)) (data : Bytes) :
    (t.write id old.length data).kept.contents id = old ++ data := by
  have hdata : old.take old.length ++ List.replicate (old.length - old.length) 0 ++ data
      ++ old.drop (old.length + data.length) = old ++ data := by
    simp [List.drop_eq_nil_of_le]
  simp only [write, hnode]
  rw [contents, node?_kept_setNode t _ (by rw [hnode]; rfl), if_pos ⟨rfl, hlt⟩]
  exact hdata

theorem contents_write_of_ne (t : Tree) {id other : NodeId} (hne : other ≠ id) (offset : Nat)
    (data : Bytes) : (t.write id offset data).kept.contents other = t.kept.contents other := by
  unfold write
  split
  · rename_i hnode
    dsimp only
    unfold contents
    rw [node?_kept_setNode t _ (by rw [hnode]; rfl), if_neg fun hand => hne hand.1]
  · rfl

end Tree

end Machine

namespace Host

variable {h h' : Host} {fd : Fd} {id : NodeId}

/-! ## One line -/

/-- What is in a file; nothing is in any other node. -/
def contents (h : Host) (id : NodeId) : Bytes := h.world.tree.kept.contents id

/-- Whether a node is a file that the machine keeps. -/
def IsFile (h : Host) (id : NodeId) : Prop :=
  ∃ data executable, h.world.tree.kept.node? id = some (.file data executable)

/-- Whether what is written to a descriptor goes to the end of its file. -/
def Appends (h : Host) (fd : Fd) : Prop :=
  ∃ mode, h.mode? fd = some mode ∧ mode.writes = true ∧ mode.appends = true

theorem IsFile.of_grows (hfile : h.IsFile id) (hgrows : h.Grows h') : h'.IsFile id := by
  obtain ⟨data, executable, hnode⟩ := hfile
  obtain ⟨data', hnode'⟩ := hgrows.tree.file hnode
  exact ⟨data', executable, hnode'⟩

theorem Writes.endpoint?_eq (hwrites : h.Writes h') (fd : Fd) :
    h'.endpoint? fd = h.endpoint? fd := by
  unfold endpoint?
  rw [hwrites.shell]
  simp only [hwrites.world.endpoint]

theorem Writes.mode?_eq (hwrites : h.Writes h') (fd : Fd) : h'.mode? fd = h.mode? fd := by
  unfold mode?
  rw [hwrites.shell]
  simp only [hwrites.world.mode]

theorem endpoint?_eq_map (h : Host) (fd : Fd) :
    h.endpoint? fd = (h.world.fileAt? h.asProcess fd).map (·.2.endpoint) := by
  rw [endpoint?, World.fileAt?, asProcess, Option.map_bind]
  simp [Function.comp_def]

theorem mode?_eq_map (h : Host) (fd : Fd) :
    h.mode? fd = (h.world.fileAt? h.asProcess fd).map (·.2.mode) := by
  rw [mode?, World.fileAt?, asProcess, Option.map_bind]
  simp [Function.comp_def]

/-- What is written to something else does not get into a file. -/
theorem contents_write_of_ne (hne : h.endpoint? fd ≠ some (.node id)) (data : Bytes) :
    (h.write fd data).contents id = h.contents id := by
  rw [endpoint?_eq_map] at hne
  unfold write
  split
  case h_2 => rfl
  rename_i world hanswer
  unfold World.performWrite at hanswer
  split at hanswer
  · cases hanswer
  rename_i file opened hat
  rw [hat] at hne
  split at hanswer
  · cases hanswer
  split at hanswer
  · rename_i node hendpoint
    have hother : id ≠ node := by
      rintro rfl
      exact hne (congrArg some hendpoint)
    split at hanswer
    · obtain ⟨-, rfl⟩ := Machine.Outcome.answered.inj hanswer
      exact Tree.contents_write_of_ne _ hother _ _
    · cases hanswer
    · obtain ⟨-, rfl⟩ := Machine.Outcome.answered.inj hanswer
      rfl
    · cases hanswer
  · unfold World.writePipe at hanswer
    split at hanswer
    · cases hanswer
    dsimp only at hanswer
    split at hanswer
    · cases hanswer
    · obtain ⟨-, rfl⟩ := Machine.Outcome.answered.inj hanswer
      rfl
  · cases hanswer

/-- What is appended to a file stands at its end. -/
theorem contents_write_of_appends (hfile : h.IsFile id)
    (hendpoint : h.endpoint? fd = some (.node id)) (happends : h.Appends fd) (data : Bytes) :
    (h.write fd data).contents id = h.contents id ++ data := by
  obtain ⟨old, executable, hkept⟩ := hfile
  obtain ⟨mode, hmode, hwrites, hends⟩ := happends
  rw [endpoint?_eq_map] at hendpoint
  rw [mode?_eq_map] at hmode
  obtain ⟨⟨file, opened⟩, hat, hnode⟩ := Option.map_eq_some_iff.mp hendpoint
  rw [hat] at hmode
  obtain rfl : opened.mode = mode := Option.some.inj hmode
  have hlt : id < Tree.firstMadeUp := by
    refine Decidable.byContradiction fun hlt => ?_
    rw [Tree.node?_kept_of_not_lt _ hlt] at hkept
    cases hkept
  have hthere := (Tree.node?_eq_kept_of_lt h.world.tree hlt).trans hkept
  have hcontents : h.contents id = old := by
    rw [contents, Tree.contents, hkept]
  have hanswer : ∃ n world, h.world.performWrite h.shell h.shell.pid h.asProcess fd data
      = .answered (.number n) world ∧ world.tree = h.world.tree.write id old.length data := by
    unfold World.performWrite
    rw [hat]
    dsimp only at hnode
    simp only [hwrites, hnode, hthere, hends]
    exact ⟨_, _, rfl, rfl⟩
  obtain ⟨n, world, hanswer, htree⟩ := hanswer
  unfold write
  rw [hanswer, hcontents, contents]
  dsimp only
  rw [htree, Tree.contents_write_self hlt hthere]

/-! ## Many lines -/

/-- Writes lines, each to its descriptor. -/
def writeAll (h : Host) (lines : List (Fd × String)) : Host :=
  lines.foldl (fun h line => h.write line.1 (.ofString line.2)) h

theorem writes_writeAll (h : Host) (lines : List (Fd × String)) : h.Writes (h.writeAll lines) :=
  writes_foldl (fun _ _ => writes_write ..) lines h

theorem writeAll_append (h : Host) (lines more : List (Fd × String)) :
    h.writeAll (lines ++ more) = (h.writeAll lines).writeAll more :=
  List.foldl_append

/-- **A file gets the lines for it**, behind what is in it. -/
theorem contents_writeAll (hfile : h.IsFile id) {lines : List (Fd × String)}
    (happends : ∀ line ∈ lines, h.endpoint? line.1 = some (.node id) → h.Appends line.1) :
    (h.writeAll lines).contents id
      = h.contents id ++ (lines.filter fun line => h.endpoint? line.1 = some (.node id)).flatMap
          fun line => Bytes.ofString line.2 := by
  induction lines generalizing h with
  | nil => simp [writeAll]
  | cons line rest ih =>
      have hwrites := writes_write h line.1 (.ofString line.2)
      have hrest : ∀ later ∈ rest,
          (h.write line.1 (.ofString line.2)).endpoint? later.1 = some (.node id) →
          (h.write line.1 (.ofString line.2)).Appends later.1 := by
        intro later hlater hendpoint
        rw [hwrites.endpoint?_eq] at hendpoint
        unfold Appends
        rw [hwrites.mode?_eq]
        exact happends later (List.mem_cons_of_mem _ hlater) hendpoint
      have hwritten := ih (hfile.of_grows hwrites.grows) hrest
      simp only [hwrites.endpoint?_eq] at hwritten
      rw [writeAll, List.foldl_cons]
      refine hwritten.trans ?_
      by_cases hendpoint : h.endpoint? line.1 = some (.node id)
      · rw [contents_write_of_appends hfile hendpoint (happends line List.mem_cons_self hendpoint)]
        simp [hendpoint]
      · rw [contents_write_of_ne hendpoint]
        simp [hendpoint]

end Host

/-! ## Records -/

namespace Log

/-- The descriptor that the lines of a sink are written to. -/
def Sink.fd : Sink → Int
  | .user _ => 2
  | .file fd => fd

/-- The lines a record causes, with their descriptors. -/
def Logger.lines (logger : Logger) (r : Record) : List (Int × String) :=
  (logger.filter (·.accepts r.target)).map fun route => (route.sink.fd, route.sink.line r)

end Log

namespace Host

theorem record_eq (h : Host) (r : Log.Record) : h.record r = h.writeAll (h.logger.lines r) := by
  rw [record, Log.Logger.deliveries, Log.Logger.lines, writeAll, List.foldl_map, List.foldl_map]
  congr 1
  funext h route
  cases route.sink <;> rfl

/-- Records are written one after the other, all to the same loggers. -/
theorem foldl_record (h : Host) (records : List Log.Record) :
    records.foldl record h = h.writeAll (records.flatMap h.logger.lines) := by
  induction records generalizing h with
  | nil => rfl
  | cons r rest ih =>
      rw [List.foldl_cons, ih, (writes_record h r).logger, record_eq, List.flatMap_cons,
        writeAll_append]

end Host

end JobShell
