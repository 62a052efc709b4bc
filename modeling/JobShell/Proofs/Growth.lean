import JobShell.Proofs.Maps
import JobShell.Proofs.Openings
import JobShell.Proofs.Utf8
import Std.Data.String.ToInt

/-!
# Paths in a tree that grows

A tree grows when files get contents and directories get entries under names
that were free. A path that led to a node leads to it still, and a path at
which a file was created leads to that file (`walk_of_grows`). So whoever opens
a path for appending once more opens what was opened the first time, whatever
was opened and written in between (`Host.opensAppending_of_openFile`).

The nodes that are made up grow as well: an open descriptor is a new entry in
one of their directories.
-/

namespace JobShell

open Machine (NodeId Node Endpoint OpenFile OpenMode FileId Tree World Outside Pid Slots Slot Spot
  Purpose InfoEntry)

namespace Machine

namespace Tree

variable {t t' t'' : Tree}

/-! ## Growing -/

/-- What can become of a node. -/
inductive Grown : Node → Node → Prop
  | same (node : Node) : Grown node node
  | written (data data' : Bytes) (executable : Bool) :
      Grown (.file data executable) (.file data' executable)
  | entered {parent : NodeId} {entries entries' : Std.TreeMap Bytes NodeId}
      (hentries : ∀ (name : Bytes) id, entries[name]? = some id → entries'[name]? = some id) :
      Grown (.directory parent entries) (.directory parent entries')

theorem Grown.trans {node node' node'' : Node} (h : Grown node node') (h' : Grown node' node'') :
    Grown node node'' := by
  cases h with
  | same => exact h'
  | written data =>
      cases h' with
      | same => exact .written ..
      | written => exact .written ..
  | entered hentries =>
      cases h' with
      | same => exact .entered hentries
      | entered hentries' => exact .entered fun name id h => hentries' name id (hentries name id h)

/-- Every node is there still, and none lost an entry. -/
def Grows (t t' : Tree) : Prop :=
  ∀ id node, t.node? id = some node → ∃ node', t'.node? id = some node' ∧ Grown node node'

namespace Grows

theorem refl (t : Tree) : t.Grows t := fun _ node hnode => ⟨node, hnode, .same node⟩

theorem trans (h : t.Grows t') (h' : t'.Grows t'') : t.Grows t'' := by
  intro id node hnode
  obtain ⟨node', hnode', hgrown⟩ := h id node hnode
  obtain ⟨node'', hnode'', hgrown'⟩ := h' id node' hnode'
  exact ⟨node'', hnode'', hgrown.trans hgrown'⟩

theorem directory {id parent : NodeId} {entries : Std.TreeMap Bytes NodeId} (h : t.Grows t')
    (hnode : t.node? id = some (.directory parent entries)) :
    ∃ entries', t'.node? id = some (.directory parent entries')
      ∧ ∀ (name : Bytes) child, entries[name]? = some child → entries'[name]? = some child := by
  obtain ⟨node', hnode', hgrown⟩ := h id _ hnode
  cases hgrown with
  | same => exact ⟨entries, hnode', fun _ _ h => h⟩
  | entered hentries => exact ⟨_, hnode', hentries⟩

theorem file {id : NodeId} {data : Bytes} {executable : Bool} (h : t.Grows t')
    (hnode : t.node? id = some (.file data executable)) :
    ∃ data', t'.node? id = some (.file data' executable) := by
  obtain ⟨node', hnode', hgrown⟩ := h id _ hnode
  cases hgrown with
  | same => exact ⟨data, hnode'⟩
  | written => exact ⟨_, hnode'⟩

end Grows

theorem Grows.kept (h : t.Grows t') : t.kept.Grows t'.kept := by
  intro id node hnode
  by_cases hlt : id < firstMadeUp
  · rw [← node?_eq_kept_of_lt t hlt] at hnode
    obtain ⟨node', hnode', hgrown⟩ := h id node hnode
    exact ⟨node', (node?_eq_kept_of_lt t' hlt).symm.trans hnode', hgrown⟩
  · rw [node?_kept_of_not_lt t hlt] at hnode
    cases hnode

theorem Alike.grows (h : t.Alike t') : t.Grows t' := by
  intro id node hnode
  rcases h.node id with hsame | ⟨data, data', executable, hfile, hfile'⟩
  · exact ⟨node, hsame.trans hnode, .same node⟩
  · obtain rfl := Option.some.inj (hnode.symm.trans hfile)
    exact ⟨_, hfile', .written ..⟩

/-- What is kept and what is made up can be compared apart from each other. -/
theorem grows_of_parts (hkept : t.kept.Grows t'.kept)
    (hmadeUp : ∀ id node, t.madeUp id = some node → ∃ node', t'.madeUp id = some node'
      ∧ Grown node node') : t.Grows t' := by
  intro id node hnode
  by_cases hlt : id < firstMadeUp
  · rw [node?_eq_kept_of_lt t hlt] at hnode
    obtain ⟨node', hnode', hgrown⟩ := hkept id node hnode
    exact ⟨node', (node?_eq_kept_of_lt t' hlt).trans hnode', hgrown⟩
  · rw [node?, if_neg hlt] at hnode
    obtain ⟨node', hnode', hgrown⟩ := hmadeUp id node hnode
    exact ⟨node', (if_neg hlt).trans hnode', hgrown⟩

/-! ## What growing keeps -/

theorem Emptied.grows {opened : NodeId → Prop} (h : Emptied opened t t') :
    t.kept.Grows t'.kept := by
  intro id node hnode
  obtain ⟨node', hnode', hchange⟩ := h.changed id node hnode
  refine ⟨node', hnode', ?_⟩
  cases hchange with
  | same => exact .same node
  | emptied => exact .written ..
  | entered hentries =>
      refine .entered fun name id hentry => ?_
      rcases hentries name with hsame | ⟨hfree, -⟩
      · rw [hsame, hentry]
      · rw [hfree] at hentry
        cases hentry

/-- Where a path led, `id` is found in the later tree: it was found there, or
it was entered under the name that was free. -/
def Leads (t t' : Tree) : Spot → NodeId → Prop
  | .found there, id => there = id ∧ (t.node? id).isSome
  | .vacant directory name, id =>
    (∃ parent entries, t'.node? directory = some (.directory parent entries)
      ∧ entries[name]? = some id)
    ∧ ∃ data executable, t'.node? id = some (.file data executable)

/-- A walk that goes on from a node, or ends at one that is there, has a node
to go on from. -/
theorem isSome_of_walk {purpose : Purpose} {links : Nat} {at_ id : NodeId} {names : List Bytes}
    {spot : Spot} (h : t.walk purpose links at_ names = .ok spot) (hleads : t.Leads t' spot id) :
    (t.node? at_).isSome := by
  cases names with
  | nil =>
      rw [walk] at h
      obtain rfl := Except.ok.inj h
      obtain ⟨rfl, hsome⟩ := hleads
      exact hsome
  | cons name rest =>
      rw [walk] at h
      split at h
      · rename_i hnode
        rw [hnode]
        rfl
      · cases h

/-- **A path leads where it led, or to what was created there.** The recursion
is that of the walk. -/
theorem walk_of_grows (hgrows : t.Grows t') (purpose : Purpose) {spot : Spot} {id : NodeId}
    (hleads : t.Leads t' spot id) : ∀ (links : Nat) (at_ : NodeId) (names : List Bytes),
      t.walk purpose links at_ names = .ok spot →
      t'.walk purpose links at_ names = .ok (.found id)
  | links, at_, [], h => by
      rw [walk] at h ⊢
      obtain rfl := Except.ok.inj h
      rw [hleads.1]
  | links, at_, name :: rest, h => by
      rw [walk] at h ⊢
      split at h
      case h_2 => cases h
      rename_i parent entries hnode
      obtain ⟨entries', hnode', hentries⟩ := hgrows.directory hnode
      simp only [hnode']
      split at h
      · cases h
      rename_i hlength
      rw [if_neg hlength]
      split at h
      · rename_i hhere
        rw [if_pos hhere]
        exact walk_of_grows hgrows purpose hleads links at_ rest h
      rename_i hhere
      rw [if_neg hhere]
      split at h
      · rename_i habove
        rw [if_pos habove]
        exact walk_of_grows hgrows purpose hleads links parent rest h
      rename_i habove
      rw [if_neg habove]
      split at h
      · cases h
      rename_i hslash
      rw [if_neg hslash]
      split at h
      · -- The name was free, so the file is what was created.
        split at h
        case isFalse => cases h
        rename_i hrest
        obtain rfl := Except.ok.inj h
        obtain ⟨⟨parent', entries'', hentered, hentry⟩, data, executable, hfile⟩ := hleads
        obtain ⟨-, rfl⟩ := Node.directory.inj (Option.some.inj (hnode'.symm.trans hentered))
        simp only [hentry, hfile, hrest, walk]
      · rename_i there hentry
        simp only [hentries name there hentry]
        have hgrown : ∀ node, t.node? there = some node →
            ∃ node', t'.node? there = some node' ∧ Grown node node' := hgrows there
        split at h
        · rename_i target hlink
          obtain ⟨_, hlink', hsame⟩ := hgrown _ hlink
          cases hsame
          simp only [hlink']
          split at h
          · rename_i hentryOnly
            rw [if_pos hentryOnly]
            obtain rfl := Except.ok.inj h
            rw [hleads.1]
          rename_i hentryOnly
          rw [if_neg hentryOnly]
          cases links with
          | zero => cases h
          | succ links =>
              exact walk_of_grows hgrows purpose hleads links _ (parts target ++ rest) h
        · rename_i target halias
          obtain ⟨_, halias', hsame⟩ := hgrown _ halias
          cases hsame
          simp only [halias']
          split at h
          · rename_i hentryOnly
            rw [if_pos hentryOnly]
            obtain rfl := Except.ok.inj h
            rw [hleads.1]
          rename_i hentryOnly
          rw [if_neg hentryOnly]
          exact walk_of_grows hgrows purpose hleads links target rest h
        · rename_i hlink halias
          obtain ⟨node, hthere⟩ := Option.isSome_iff_exists.mp (isSome_of_walk h hleads)
          obtain ⟨node', hthere', hbecame⟩ := hgrown node hthere
          have hrec := walk_of_grows hgrows purpose hleads links there rest h
          rw [hthere] at hlink halias
          cases hbecame <;> simpa only [hthere'] using hrec
termination_by links _ names => (links, names.length)

/-! ## Opening for appending -/

section Adding

variable {directory parent : NodeId} {name : Bytes} {entries : Std.TreeMap Bytes NodeId}
  (hlt : directory < firstMadeUp) (hnode : t.node? directory = some (.directory parent entries))

include hlt hnode

theorem grows_add (hfree : entries[name]? = none) :
    t.Grows (t.add directory name (.file [] false)).2 := by
  refine grows_of_parts (emptied_add hlt hnode hfree).grows fun id node hmadeUp => ?_
  rw [add_eq_setNode hlt hnode]
  exact ⟨node, hmadeUp, .same node⟩

theorem contents_kept_add (executable : Bool) (id : NodeId) :
    (t.add directory name (.file [] executable)).2.kept.contents id = t.kept.contents id := by
  have hkept : t.kept.node? directory = some (.directory parent entries) :=
    (node?_eq_kept_of_lt t hlt).symm.trans hnode
  have hget := node?_kept_add hlt hnode name (.file [] executable) id
  unfold contents
  rw [hget]
  by_cases heq : id = directory
  · rw [if_pos heq, heq, hkept]
  rw [if_neg heq]
  by_cases hnew : id = t.nodes.size ∧ id < firstMadeUp
  · rw [if_pos hnew, node?_kept_of_lt t hnew.2, hnew.1, Array.getElem?_size]
  · rw [if_neg hnew]

/-- The new file is found under its name from then on. -/
theorem leads_add (hsize : t.nodes.size < firstMadeUp)
    (hgrows : (t.add directory name (.file [] false)).2.Grows t') :
    t.Leads t' (.vacant directory name) t.nodes.size := by
  have hne : t.nodes.size ≠ directory := Nat.ne_of_gt (directory_lt_size hlt hnode)
  have hentered : (t.add directory name (.file [] false)).2.node? directory
      = some (.directory parent (entries.insert name t.nodes.size)) := by
    rw [node?_eq_kept_of_lt _ hlt, node?_kept_add hlt hnode, if_pos rfl]
  have hfile : (t.add directory name (.file [] false)).2.node? t.nodes.size
      = some (.file [] false) := by
    rw [node?_eq_kept_of_lt _ hsize, node?_kept_add hlt hnode, if_neg hne, if_pos ⟨rfl, hsize⟩]
  obtain ⟨entries', hnode', hentries⟩ := hgrows.directory hentered
  obtain ⟨data, hfile'⟩ := hgrows.file hfile
  refine ⟨⟨parent, entries', hnode', hentries name _ ?_⟩, data, false, hfile'⟩
  rw [getElem?_insert_key, if_pos rfl]

end Adding

theorem Opening.grows_append {id : NodeId} (h : t.Opening .append id t') : t.Grows t' := by
  cases h with
  | found => exact .refl t
  | emptied hmode => cases hmode
  | created _ hlt _ hnode hfree => exact grows_add hlt hnode hfree

theorem Opening.contents_append {id : NodeId} (h : t.Opening .append id t') (other : NodeId) :
    t'.kept.contents other = t.kept.contents other := by
  cases h with
  | found => rfl
  | emptied hmode => cases hmode
  | created _ hlt _ hnode => exact contents_kept_add hlt hnode false other

theorem Opening.madeUp_eq {mode : OpenMode} {id : NodeId} (h : t.Opening mode id t') :
    t'.madeUp = t.madeUp := by
  cases h with
  | found => rfl
  | emptied => rfl
  | created _ hlt _ hnode =>
      rw [add_eq_setNode hlt hnode]
      rfl

theorem Opening.exists_node_append {id : NodeId} (h : t.Opening .append id t') :
    ∃ node, t'.node? id = some node := by
  cases h with
  | found hnode => exact ⟨_, hnode⟩
  | emptied hmode => cases hmode
  | created _ hlt hsize hnode =>
      obtain ⟨-, data, executable, hfile⟩ := leads_add hlt hnode hsize (.refl _)
      exact ⟨_, hfile⟩

/-- Whether a node can be opened for appending. -/
def isAppendable : Node → Bool
  | .directory .. | .tool _ => false
  | _ => true

theorem Grown.isAppendable_eq {node node' : Node} (h : Grown node node') :
    isAppendable node' = isAppendable node := by
  cases h <;> rfl

theorem openFound_append_eq_ok_iff {id : NodeId} {result : NodeId × Tree} :
    t.openFound id .append = .ok result
      ↔ result = (id, t) ∧ ∃ node, t.node? id = some node ∧ isAppendable node = true := by
  unfold openFound
  cases t.node? id with
  | none => simp
  | some node => cases node <;> simp [OpenMode.append, isAppendable, @eq_comm _ _ result]

/-- **A path that was opened for appending is opened once more**, in any tree
that the first opening's tree grew to. -/
theorem openPath_of_grows {base id : NodeId} {path : Bytes} {t₁ : Tree}
    (h : t.openPath base path .append = .ok (id, t₁)) (hgrows : t₁.Grows t') :
    t'.openPath base path .append = .ok (id, t') := by
  have hwhole : t.Grows t' := (opening_of_openPath h).grows_append.trans hgrows
  obtain ⟨spot, hspot, h⟩ := located_of_openPath h
  obtain ⟨hleads, happendable⟩ : t.Leads t' spot id
      ∧ ∃ node, t'.node? id = some node ∧ isAppendable node = true := by
    cases spot with
    | found there =>
        obtain ⟨hresult, node, hnode, happendable⟩ := openFound_append_eq_ok_iff.mp h
        obtain ⟨rfl, rfl⟩ := Prod.mk.inj hresult
        obtain ⟨node', hnode', hgrown⟩ := hgrows id node hnode
        exact ⟨⟨rfl, by rw [hnode]; rfl⟩, node', hnode', hgrown.isAppendable_eq.trans happendable⟩
    | vacant directory name =>
        obtain ⟨-, hlt, hsize, rfl, rfl⟩ := h
        obtain ⟨parent, entries, hnode, -⟩ := free_of_locate hspot
        have hleads := leads_add hlt hnode hsize hgrows
        obtain ⟨data, executable, hfile⟩ := hleads.2
        exact ⟨hleads, _, hfile, rfl⟩
  have hspot' : t'.locate base path .creation = .ok (.found id) := by
    unfold locate at hspot ⊢
    split at hspot
    · cases hspot
    rename_i hne
    split at hspot
    · cases hspot
    rename_i hlength
    rw [if_neg hne, if_neg hlength]
    exact walk_of_grows hwhole _ hleads _ _ _ hspot
  refine Except.bind_eq_ok_iff.mpr ⟨.found id, hspot', ?_⟩
  exact openFound_append_eq_ok_iff.mpr ⟨rfl, happendable⟩

end Tree

/-! ## Nodes that are made up -/

namespace World

variable {w w' : World} {outside outside' : Outside}

theorem fileNode?_of_keeps (hworld : w.Keeps w') {file : FileId} {node : Node}
    (h : w.fileNode? file = some node) : w'.fileNode? file = some node := by
  obtain ⟨endpoint, hendpoint, hnode⟩ := Option.map_eq_some_iff.mp h
  exact Option.map_eq_some_iff.mpr ⟨endpoint, hworld.endpoint file endpoint hendpoint, hnode⟩

/-- The directory of descriptors has an entry for each of them. -/
theorem grown_descriptors {s s' : Slots} (hslots : s.Grows 0 s') (pid : Pid) (parent : NodeId) :
    Tree.Grown
      (infoDirectory parent (s.keys.map fun fd => (toString fd, .descriptor pid fd.toNat)))
      (infoDirectory parent (s'.keys.map fun fd => (toString fd, .descriptor pid fd.toNat))) := by
  have hkey : ∀ fd fd' : Fd, Bytes.ofString (toString fd) = .ofString (toString fd') → fd = fd' :=
    fun fd fd' h => Int.repr_inj.mp (Bytes.ofString_inj.mp h)
  unfold infoDirectory
  refine .entered fun name id hentry => ?_
  rw [List.foldl_map] at hentry ⊢
  rw [getElem?_foldl_insert_eq_some_iff hkey fun fd => (InfoEntry.descriptor pid fd.toNat).toNode]
    at hentry ⊢
  rcases hentry with ⟨fd, hfd, hnamed⟩ | ⟨hnone, -⟩
  · refine Or.inl ⟨fd, ?_, hnamed⟩
    rw [Std.TreeMap.mem_keys] at hfd ⊢
    exact hslots.mem hfd
  · simp at hnone

theorem view?_of_keeps (hworld : w.Keeps w')
    (hshell : outside' = { outside with slots := outside'.slots })
    (hslots : outside.slots.Grows 0 outside'.slots) {pid : Pid} {v : ProcessView}
    (h : w.view? outside pid = some v) :
    ∃ slots, v.slots.Grows 0 slots ∧ w'.view? outside' pid = some { v with slots } := by
  rw [hshell]
  unfold view? at h ⊢
  split at h
  · rename_i hpid
    obtain rfl := Option.some.inj h
    exact ⟨outside'.slots, hslots, if_pos hpid⟩
  · rename_i hpid
    refine ⟨v.slots, .refl 0 _, (if_neg hpid).trans ?_⟩
    unfold process? at h ⊢
    rw [hworld.processes]
    exact h

/-- What is told about a process does not change, but that it has more
descriptors. -/
theorem infoNode?_grows (hworld : w.Keeps w')
    (hshell : outside' = { outside with slots := outside'.slots })
    (hslots : outside.slots.Grows 0 outside'.slots) (self : Pid) (here : NodeId)
    (entry : InfoEntry) {node : Node} (h : w.infoNode? outside self here entry = some node) :
    ∃ node', w'.infoNode? outside' self here entry = some node' ∧ Tree.Grown node node' := by
  have hpid : outside'.pid = outside.pid := (congrArg Outside.pid hshell :)
  have hgroup : outside'.group = outside.group := (congrArg Outside.group hshell :)
  have hforeground : outside'.foreground = outside.foreground :=
    (congrArg Outside.foreground hshell :)
  have hprocess : ∀ pid, w'.process? pid = w.process? pid := fun pid => by
    unfold process?
    rw [hworld.processes]
  unfold infoNode? at h ⊢
  cases entry with
  | top =>
      refine ⟨node, ?_, .same node⟩
      dsimp only at h ⊢
      rw [hpid, hworld.processes]
      exact h
  | self => exact ⟨node, h, .same node⟩
  | workingDirectory pid =>
      refine ⟨node, ?_, .same node⟩
      dsimp only [directoryOf?] at h ⊢
      rw [hprocess]
      exact h
  | directory pid | command pid | status pid =>
      obtain ⟨v, hview, rfl⟩ := Option.map_eq_some_iff.mp h
      obtain ⟨slots, -, hview'⟩ := view?_of_keeps hworld hshell hslots hview
      exact ⟨_, Option.map_eq_some_iff.mpr ⟨_, hview', rfl⟩, .same _⟩
  | stat pid =>
      obtain ⟨v, hview, rfl⟩ := Option.map_eq_some_iff.mp h
      obtain ⟨slots, -, hview'⟩ := view?_of_keeps hworld hshell hslots hview
      rw [← hgroup, ← hforeground]
      exact ⟨_, Option.map_eq_some_iff.mpr ⟨_, hview', rfl⟩, .same _⟩
  | descriptors pid =>
      obtain ⟨v, hview, rfl⟩ := Option.map_eq_some_iff.mp h
      obtain ⟨slots, hgrows, hview'⟩ := view?_of_keeps hworld hshell hslots hview
      exact ⟨_, Option.map_eq_some_iff.mpr ⟨_, hview', rfl⟩, grown_descriptors hgrows pid _⟩
  | descriptor pid fd =>
      obtain ⟨slot, hslot, hnode⟩ := Option.bind_eq_some_iff.mp h
      obtain ⟨v, hview, hslot⟩ := Option.bind_eq_some_iff.mp hslot
      obtain ⟨slots, hgrows, hview'⟩ := view?_of_keeps hworld hshell hslots hview
      refine ⟨node, Option.bind_eq_some_iff.mpr ⟨slot, ?_, fileNode?_of_keeps hworld hnode⟩,
        .same node⟩
      exact Option.bind_eq_some_iff.mpr ⟨_, hview', hgrows.kept _ slot hslot⟩

/-! ## Opening for appending -/

theorem kept_seenBy (w : World) (outside : Outside) (pid : Pid) (here : NodeId) :
    (w.seenBy outside pid here).kept = w.tree.kept := by
  rw [seenBy, Tree.kept, Tree.kept]

/-- Opening for appending leaves the tree that opening the path leaves. -/
theorem kept_of_openEndpoint {pid : Pid} {here : NodeId} {path : Bytes} {file : OpenFile}
    (h : w.openEndpoint outside pid here path .append = .ok (file, w')) :
    ∃ id t tree, (w.seenBy outside pid here).openPath here path .append = .ok (id, t)
      ∧ w' = { w with tree } ∧ file.mode = .append ∧ tree.kept = t.kept := by
  obtain ⟨id, t, tree, hopen, hw', hmode, htree⟩ := openPath_of_openEndpoint h
  refine ⟨id, t, tree, hopen, hw', hmode, ?_⟩
  rcases htree with rfl | ⟨rfl, hnot⟩
  · rfl
  · cases Tree.opening_of_openPath hopen with
    | found => exact (kept_seenBy w outside pid here).symm
    | emptied hmode => cases hmode
    | created _ hlt hsize hnode =>
        obtain ⟨-, data, executable, hfile⟩ := Tree.leads_add hlt hnode hsize (.refl _)
        exact (hnot data executable hfile).elim

theorem reopen_of_keeps {file : FileId} {mode : OpenMode} {opened : OpenFile}
    (hworld : w.Keeps w') (h : w.reopen file mode = .ok opened) :
    w'.reopen file mode = .ok opened := by
  have hsame : (w'.file? file).map OpenFile.endpoint = (w.file? file).map OpenFile.endpoint := by
    cases hendpoint : (w.file? file).map OpenFile.endpoint with
    | none =>
        unfold reopen at h
        rw [hendpoint] at h
        cases h
    | some endpoint => exact hworld.endpoint file endpoint hendpoint
  unfold reopen at h ⊢
  rwa [hsame]

/-- **A path that was opened for appending gives access to the same thing
later.** -/
theorem openEndpoint_of_grows {pid : Pid} {here id : NodeId} {path : Bytes} {file : OpenFile}
    {t : Tree} {w₁ : World} (h : w.openEndpoint outside pid here path .append = .ok (file, w₁))
    (hopen : (w.seenBy outside pid here).openPath here path .append = .ok (id, t))
    (hworld : w.Keeps w') (hforeground : outside'.foreground = outside.foreground)
    (hgrows : t.Grows (w'.seenBy outside' pid here)) :
    ∃ w₂, w'.openEndpoint outside' pid here path .append = .ok (file, w₂) := by
  have hagain := Tree.openPath_of_grows hopen hgrows
  obtain ⟨node, hnode⟩ := (Tree.opening_of_openPath hopen).exists_node_append
  obtain ⟨node', hnode', hgrown⟩ := hgrows id node hnode
  obtain ⟨_, hopen', h⟩ := Except.bind_eq_ok_iff.mp h
  obtain rfl := Except.ok.inj (hopen.symm.trans hopen')
  have hbind : ∀ rest : NodeId × Tree → Except OsError (OpenFile × World),
      (w'.seenBy outside' pid here).openPath here path .append >>= rest
        = rest (id, w'.seenBy outside' pid here) := fun rest => by
    rw [hagain]
    rfl
  unfold openEndpoint
  rw [hbind]
  dsimp only at h ⊢
  rw [hnode']
  rw [hnode] at h
  split at h
  · rename_i text htext
    obtain rfl := Option.some.inj htext
    cases hgrown
    obtain ⟨rfl, -⟩ := Prod.mk.inj (Except.ok.inj h)
    exact ⟨_, rfl⟩
  · rename_i opened hopened
    obtain rfl := Option.some.inj hopened
    cases hgrown
    obtain ⟨file', hreopen, h⟩ := Except.bind_eq_ok_iff.mp h
    obtain ⟨rfl, -⟩ := Prod.mk.inj (Except.ok.inj h)
    exact ⟨w', Except.bind_eq_ok_iff.mpr ⟨_, reopen_of_keeps hworld hreopen, rfl⟩⟩
  · rename_i hterminal
    obtain rfl := Option.some.inj hterminal
    cases hgrown
    simp only [hforeground]
    split at h
    · cases h
    · rename_i hforeground
      rw [if_neg hforeground]
      obtain ⟨rfl, -⟩ := Prod.mk.inj (Except.ok.inj h)
      exact ⟨w', rfl⟩
  · -- A node of this kind stays one, so the same branch is taken.
    obtain ⟨rfl, -⟩ := Prod.mk.inj (Except.ok.inj h)
    cases hgrown <;> simp_all

end World

end Machine

namespace Host

variable {h h' h'' : Host} {directory : NodeId} {path : Bytes} {fd : Fd}

/-! ## The shell's files -/

/-- What opening a path for appending gives access to. -/
def leadsTo? (h : Host) (directory : NodeId) (path : Bytes) : Option Endpoint :=
  (h.world.openEndpoint h.shell h.shell.pid directory path .append).toOption.map (·.1.endpoint)

/-- What a descriptor of the shell was opened for. -/
def mode? (h : Host) (fd : Fd) : Option OpenMode :=
  (h.shell.slots[fd]?).bind fun slot => (h.world.file? slot.file).map OpenFile.mode

/-- The shell has what it had, and its files and directories may have got
more. -/
structure Grows (h h' : Host) : Prop where
  extends_ : h.Extends h'
  mode : ∀ (id : FileId) (m : OpenMode), (h.world.file? id).map OpenFile.mode = some m →
    (h'.world.file? id).map OpenFile.mode = some m
  tree : h.world.tree.kept.Grows h'.world.tree.kept

theorem Writes.grows (hwrites : h.Writes h') : h.Grows h' where
  extends_ := hwrites.extends_
  mode id _ hmode := (hwrites.world.mode id).trans hmode
  tree := hwrites.world.tree.grows.kept

namespace Grows

theorem refl (h : Host) : h.Grows h := (Writes.refl h).grows

theorem trans (hfirst : h.Grows h') (hrest : h'.Grows h'') : h.Grows h'' where
  extends_ := hfirst.extends_.trans hrest.extends_
  mode id m hmode := hrest.mode id m (hfirst.mode id m hmode)
  tree := hfirst.tree.trans hrest.tree

theorem mode?_eq {m : OpenMode} (hgrows : h.Grows h') (hmode : h.mode? fd = some m) :
    h'.mode? fd = some m := by
  obtain ⟨slot, hslot, hfile⟩ := Option.bind_eq_some_iff.mp hmode
  rw [mode?, hgrows.extends_.slots.kept fd slot hslot]
  exact hgrows.mode slot.file m hfile

/-- A directory is seen with more entries, if what is kept of it grew. -/
theorem seen {t : Tree} (hgrows : h.Grows h') (hkept : t.kept.Grows h'.world.tree.kept)
    (hmadeUp : t.madeUp = (h.tree directory).madeUp) : t.Grows (h'.tree directory) := by
  have hpid : h'.shell.pid = h.shell.pid := (congrArg Outside.pid hgrows.extends_.shell :)
  refine Tree.grows_of_parts ?_ fun id node hnode => ?_
  · rwa [Host.tree, World.kept_seenBy]
  · rw [hmadeUp] at hnode
    have hgrown := World.infoNode?_grows hgrows.extends_.world hgrows.extends_.shell
      hgrows.extends_.slots h.shell.pid directory (InfoEntry.ofNode id) hnode
    rwa [← hpid] at hgrown

end Grows

/-- What opening a file for appending does: a new descriptor gives access to
what the path leads to, now and whatever is opened and written later. -/
structure OpensAppending (h : Host) (directory : NodeId) (path : Bytes) (fd : Fd) (h' : Host) :
    Prop where
  grows : h.Grows h'
  mode : h'.mode? fd = some .append
  contents : ∀ id, h'.world.tree.kept.contents id = h.world.tree.kept.contents id
  leads : ∀ h'', h'.Grows h'' → ∃ endpoint,
    h''.endpoint? fd = some endpoint ∧ h''.leadsTo? directory path = some endpoint

theorem opensAppending_of_openFile (hok : h.openFile directory path .append = .ok (fd, h')) :
    h.OpensAppending directory path fd h' := by
  obtain ⟨file, world, slots, hopen, hslots, rfl⟩ := parts_of_openFile hok
  obtain ⟨id, t, tree, hpath, rfl, hmode, hkept⟩ := World.kept_of_openEndpoint hopen
  have hopening := Tree.opening_of_openPath hpath
  have hseen := World.kept_seenBy h.world h.shell h.shell.pid directory
  have hkeeps : h.world.Keeps { h.world with tree } := ⟨rfl, rfl, fun _ _ he => he⟩
  have hslot := Slots.getElem?_of_allocate hslots
  have hfile := World.file?_addFile { h.world with tree } file
  have hgrows : h.Grows
      { h with
        world := (World.addFile { h.world with tree } file).2
        shell := { h.shell with slots } } :=
    { extends_ := ⟨hkeeps.trans (World.keeps_addFile ..), rfl, Slots.grows_of_allocate hslots⟩
      mode := fun other m hmode => by
        obtain ⟨f, hf, rfl⟩ := Option.map_eq_some_iff.mp hmode
        exact Option.map_eq_some_iff.mpr ⟨f, World.file?_addFile_of_some file hf, rfl⟩
      tree := by
        have hgrown := hopening.grows_append.kept
        rwa [hseen, ← hkept] at hgrown }
  exact
    { grows := hgrows
      mode := by
        rw [mode?, hslot, ← hmode]
        exact congrArg (Option.map OpenFile.mode) hfile
      contents := fun other => by
        have hcontents := hopening.contents_append other
        rwa [hseen, ← hkept] at hcontents
      leads := fun h'' hlater => by
        have hwhole := hgrows.trans hlater
        have hpid : h''.shell.pid = h.shell.pid := (congrArg Outside.pid hwhole.extends_.shell :)
        have hseen' : t.Grows (h''.world.seenBy h''.shell h.shell.pid directory) := by
          rw [← hpid]
          refine hwhole.seen ?_ hopening.madeUp_eq
          rw [← hkept]
          exact hlater.tree
        obtain ⟨w, hagain⟩ := World.openEndpoint_of_grows hopen hpath hwhole.extends_.world
          hwhole.extends_.foreground hseen'
        refine ⟨file.endpoint, hlater.extends_.endpoint?_eq ?_, ?_⟩
        · rw [endpoint?, hslot]
          exact congrArg (Option.map OpenFile.endpoint) hfile
        · rw [leadsTo?, hpid, hagain]
          rfl }

end Host

end JobShell
