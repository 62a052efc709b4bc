import JobShell.Machine.Tree
import JobShell.Proofs.Results
import Std.Data.TreeMap.Lemmas

/-!
# What changes a tree and what does not

Two relations between a tree and a later one. In trees that are `Alike` only
files have other contents, and paths lead to the same places
(`locate_eq`). A tree is `Emptied` at some nodes if these are the files that
were opened for output in between: each of them is empty, those that are new
were entered under names that were free, and nothing else changed.

Opening a file is taken apart once (`opening_of_openPath`); that it empties
what it opens follows from the three ways in which it can go.
-/

namespace JobShell.Machine.Tree

variable {t t' t'' : Tree} {base id : NodeId} {path : Bytes}

/-! ## Other contents -/

/-- Both nodes are the same, or they are files of one kind. -/
def AlikeNodes (n n' : Option Node) : Prop :=
  n' = n ∨ ∃ data data' executable,
    n = some (.file data executable) ∧ n' = some (.file data' executable)

/-- The second tree differs from the first one in the contents of files. -/
structure Alike (t t' : Tree) : Prop where
  size : t'.nodes.size = t.nodes.size
  node : ∀ id, AlikeNodes (t.node? id) (t'.node? id)

theorem AlikeNodes.trans {n n' n'' : Option Node} (h : AlikeNodes n n') (h' : AlikeNodes n' n'') :
    AlikeNodes n n'' := by
  rcases h with rfl | ⟨data, data', executable, rfl, rfl⟩
  · exact h'
  · rcases h' with rfl | ⟨_, data'', _, heq, rfl⟩
    · exact Or.inr ⟨data, data', executable, rfl, rfl⟩
    · obtain ⟨-, rfl⟩ := Node.file.inj (Option.some.inj heq)
      exact Or.inr ⟨data, data'', _, rfl, rfl⟩

namespace Alike

theorem refl (t : Tree) : t.Alike t := ⟨rfl, fun _ => Or.inl rfl⟩

theorem trans (h : t.Alike t') (h' : t'.Alike t'') : t.Alike t'' where
  size := h'.size.trans h.size
  node id := (h.node id).trans (h'.node id)

/-- Paths lead to the same places. Of the nodes on the way only those that are
no files matter. -/
theorem walk_eq (h : t.Alike t') (purpose : Purpose) : ∀ (links : Nat) (at_ : NodeId)
    (names : List Bytes), t'.walk purpose links at_ names = t.walk purpose links at_ names
  | links, at_, [] => by rw [walk, walk]
  | links, at_, name :: rest => by
      rw [walk, walk]
      rcases h.node at_ with heq | ⟨_, _, _, hfile, hfile'⟩
      case inr => rw [hfile, hfile']
      rw [heq]
      split
      case h_2 => rfl
      rename_i parent entries _
      split
      · rfl
      split
      · exact walk_eq h purpose links at_ rest
      split
      · exact walk_eq h purpose links parent rest
      split
      · rfl
      cases entries[name]? with
      | none => rfl
      | some id =>
          dsimp only
          rcases h.node id with heq | ⟨_, _, _, hfile, hfile'⟩
          case inr =>
            rw [hfile, hfile']
            exact walk_eq h purpose links id rest
          rw [heq]
          split
          case h_1 target _ =>
            split
            · rfl
            cases links with
            | zero => rfl
            | succ links => exact walk_eq h purpose links _ (parts target ++ rest)
          case h_2 target _ =>
            split
            · rfl
            · exact walk_eq h purpose links target rest
          case h_3 => exact walk_eq h purpose links id rest
termination_by links _ names => (links, names.length)

theorem find_eq (h : t.Alike t') (base : NodeId) (path : Bytes) (purpose : Purpose) :
    t'.find base path purpose = t.find base path purpose := by
  unfold find locate
  rw [h.walk_eq]

theorem isRegularFile_eq (h : t.Alike t') (base : NodeId) (path : Bytes) :
    t'.isRegularFile base path = t.isRegularFile base path := by
  unfold isRegularFile
  rw [h.find_eq]
  congr 1
  split
  · rename_i id _
    rcases h.node id with heq | ⟨_, _, _, hfile, hfile'⟩
    · rw [heq]
    · rw [hfile, hfile']
  · rfl

theorem nameOf?_eq (h : t.Alike t') (directory id : NodeId) :
    t'.nameOf? directory id = t.nameOf? directory id := by
  unfold nameOf?
  rcases h.node directory with heq | ⟨_, _, _, hfile, hfile'⟩
  · rw [heq]
  · rw [hfile, hfile']

theorem namesTo_eq (h : t.Alike t') (depth : Nat) (id : NodeId) :
    t'.namesTo depth id = t.namesTo depth id := by
  induction depth generalizing id with
  | zero => rfl
  | succ depth ih =>
      unfold namesTo
      rcases h.node id with heq | ⟨_, _, _, hfile, hfile'⟩
      · rw [heq]
        simp only [h.nameOf?_eq, ih]
      · rw [hfile, hfile']

theorem pathTo_eq (h : t.Alike t') (id : NodeId) : t'.pathTo id = t.pathTo id := by
  unfold pathTo
  rw [h.namesTo_eq, h.size]

end Alike

/-! ## What a tree keeps -/

theorem node?_kept_of_lt (t : Tree) {id : NodeId} (h : id < firstMadeUp) :
    t.kept.node? id = t.nodes[id]? := if_pos h

theorem node?_kept_of_not_lt (t : Tree) {id : NodeId} (h : ¬id < firstMadeUp) :
    t.kept.node? id = none := if_neg h

theorem node?_of_lt (t : Tree) {id : NodeId} (h : id < firstMadeUp) :
    t.node? id = t.nodes[id]? := if_pos h

theorem node?_eq_kept_of_lt (t : Tree) {id : NodeId} (h : id < firstMadeUp) :
    t.node? id = t.kept.node? id := by
  rw [node?_of_lt t h, node?_kept_of_lt t h]

theorem node?_kept_setNode (t : Tree) {id : NodeId} (node : Node) (h : (t.node? id).isSome)
    (other : NodeId) :
    (t.setNode id node).kept.node? other
      = if other = id ∧ id < firstMadeUp then some node else t.kept.node? other := by
  by_cases hlt : other < firstMadeUp
  · rw [node?_kept_of_lt _ hlt, node?_kept_of_lt _ hlt, setNode, Array.getElem?_setIfInBounds]
    by_cases heq : other = id
    · subst heq
      rw [node?_eq_kept_of_lt t hlt, node?_kept_of_lt _ hlt] at h
      obtain ⟨old, hold⟩ := Option.isSome_iff_exists.mp h
      rw [if_pos rfl, if_pos (Array.getElem?_eq_some_iff.mp hold).1, if_pos ⟨rfl, hlt⟩]
    · rw [if_neg (Ne.symm heq), if_neg fun hand => heq hand.1]
  · rw [node?_kept_of_not_lt _ hlt, node?_kept_of_not_lt _ hlt, if_neg]
    rintro ⟨rfl, hid⟩
    exact hlt hid

/-! ## Opening a file -/

/-- Where a path ends at a free name, that name is free in a directory. -/
theorem free_of_walk (t : Tree) (purpose : Purpose) {directory : NodeId} {free : Bytes} :
    ∀ (links : Nat) (at_ : NodeId) (names : List Bytes),
      t.walk purpose links at_ names = .ok (.vacant directory free) →
      ∃ parent entries, t.node? directory = some (.directory parent entries)
        ∧ entries[free]? = none
  | links, at_, [], h => by
      rw [walk] at h
      cases h
  | links, at_, name :: rest, h => by
      rw [walk] at h
      split at h
      case h_2 => cases h
      rename_i parent entries hnode
      split at h
      · cases h
      split at h
      · exact free_of_walk t purpose links at_ rest h
      split at h
      · exact free_of_walk t purpose links parent rest h
      split at h
      · cases h
      split at h
      · rename_i hfree
        split at h
        · obtain ⟨rfl, rfl⟩ := Spot.vacant.inj (Except.ok.inj h)
          exact ⟨parent, entries, hnode, hfree⟩
        · cases h
      · rename_i id _
        split at h
        · rename_i target _
          split at h
          · cases h
          · cases links with
            | zero => cases h
            | succ links => exact free_of_walk t purpose links _ (parts target ++ rest) h
        · rename_i target _
          split at h
          · cases h
          · exact free_of_walk t purpose links target rest h
        · exact free_of_walk t purpose links id rest h
termination_by links _ names => (links, names.length)

/-- The ways in which opening a file can go: the node that was opened, and
the tree that is left. -/
inductive Opening (t : Tree) (mode : OpenMode) : NodeId → Tree → Prop
  | found {id : NodeId} {node : Node} (hnode : t.node? id = some node)
      (hnot : mode.truncates = true → ∀ data executable,
        t.node? id ≠ some (.file data executable)) :
      Opening t mode id t
  | emptied {id : NodeId} {data : Bytes} {executable : Bool} (hmode : mode.truncates = true)
      (hnode : t.node? id = some (.file data executable)) :
      Opening t mode id (t.setNode id (.file [] executable))
  | created {directory parent : NodeId} {name : Bytes} {entries : Std.TreeMap Bytes NodeId}
      (hmode : mode.creates = true) (hlt : directory < firstMadeUp)
      (hsize : t.nodes.size < firstMadeUp)
      (hnode : t.node? directory = some (.directory parent entries))
      (hfree : entries[name]? = none) :
      Opening t mode t.nodes.size (t.add directory name (.file [] false)).2

theorem opening_of_openFound {mode : OpenMode} (h : t.openFound id mode = .ok (base, t')) :
    t.Opening mode base t' := by
  unfold openFound at h
  split at h
  · rename_i hnode
    split at h
    · cases h
    · obtain ⟨rfl, rfl⟩ := Prod.mk.inj (Except.ok.inj h)
      exact .found hnode fun _ => by simp [hnode]
  · rename_i hnode
    split at h
    · rename_i hmode
      obtain ⟨rfl, rfl⟩ := Prod.mk.inj (Except.ok.inj h)
      exact .emptied hmode hnode
    · rename_i hmode
      obtain ⟨rfl, rfl⟩ := Prod.mk.inj (Except.ok.inj h)
      exact .found hnode fun h => (hmode h).elim
  · rename_i hnode
    split at h
    · cases h
    · obtain ⟨rfl, rfl⟩ := Prod.mk.inj (Except.ok.inj h)
      exact .found hnode fun _ => by simp [hnode]
  · rename_i node _ hfile _ hnode
    obtain ⟨rfl, rfl⟩ := Prod.mk.inj (Except.ok.inj h)
    refine .found hnode fun _ data executable heq => ?_
    rw [hnode] at heq
    exact hfile data executable (Option.some.inj heq)
  · cases h

theorem free_of_locate {purpose : Purpose} {directory : NodeId} {name : Bytes}
    (h : t.locate base path purpose = .ok (.vacant directory name)) :
    ∃ parent entries, t.node? directory = some (.directory parent entries)
      ∧ entries[name]? = none := by
  unfold locate at h
  split at h
  · cases h
  split at h
  · cases h
  exact free_of_walk t _ _ _ _ h

/-- Where the path of a file leads that was opened: to what was opened, or to
a name that is free in a directory that takes it. -/
theorem located_of_openPath {mode : OpenMode} (h : t.openPath base path mode = .ok (id, t')) :
    ∃ spot, t.locate base path (if mode.creates then .creation else .target) = .ok spot
      ∧ match spot with
        | .found there => t.openFound there mode = .ok (id, t')
        | .vacant directory name => mode.creates = true ∧ directory < firstMadeUp
          ∧ t.nodes.size < firstMadeUp
          ∧ id = t.nodes.size ∧ t' = (t.add directory name (.file [] false)).2 := by
  obtain ⟨spot, hspot, h⟩ := Except.bind_eq_ok_iff.mp h
  refine ⟨spot, hspot, ?_⟩
  cases spot with
  | found there => exact h
  | vacant directory name =>
      dsimp only at h ⊢
      split at h
      · cases h
      rename_i hmode
      split at h
      · cases h
      rename_i hsize
      rw [Bool.not_eq_true, Bool.not_eq_false', Bool.and_eq_true] at hmode
      have htakes := hmode.2
      rw [takesEntries, Bool.and_eq_true] at htakes
      obtain ⟨rfl, rfl⟩ := Prod.mk.inj (Except.ok.inj h)
      exact ⟨hmode.1, of_decide_eq_true htakes.1, Nat.lt_of_not_le hsize, rfl, rfl⟩

theorem opening_of_openPath {mode : OpenMode} (h : t.openPath base path mode = .ok (id, t')) :
    t.Opening mode id t' := by
  obtain ⟨spot, hspot, h⟩ := located_of_openPath h
  cases spot with
  | found there => exact opening_of_openFound h
  | vacant directory name =>
      obtain ⟨hmode, hlt, hsize, rfl, rfl⟩ := h
      obtain ⟨parent, entries, hnode, hfree⟩ := free_of_locate hspot
      exact .created hmode hlt hsize hnode hfree

/-! ## Files that were opened for output -/

/-- What can become of a node: a file that is opened loses its contents, and
a directory gets new entries under names that were free. -/
inductive Change (opened : Prop) (isNew : NodeId → Prop) : Node → Node → Prop
  | same (node : Node) : Change opened isNew node node
  | emptied (hopened : opened) (data : Bytes) (executable : Bool) :
      Change opened isNew (.file data executable) (.file [] executable)
  | entered {parent : NodeId} {entries entries' : Std.TreeMap Bytes NodeId}
      (hentries : ∀ name : Bytes, entries'[name]? = entries[name]?
        ∨ entries[name]? = none ∧ ∃ new, isNew new ∧ entries'[name]? = some new) :
      Change opened isNew (.directory parent entries) (.directory parent entries')

namespace Change

variable {opened opened' : Prop} {isNew isNew' : NodeId → Prop} {node node' node'' : Node}

theorem mono (h : Change opened isNew node node') (hopened : opened → opened')
    (hnew : ∀ id, isNew id → isNew' id) : Change opened' isNew' node node' := by
  cases h with
  | same => exact .same node
  | emptied h data executable => exact .emptied (hopened h) data executable
  | entered hentries =>
      refine .entered fun name => (hentries name).imp_right ?_
      rintro ⟨hfree, new, h, hentry⟩
      exact ⟨hfree, new, hnew new h, hentry⟩

theorem trans (h : Change opened isNew node node') (h' : Change opened isNew node' node'') :
    Change opened isNew node node'' := by
  cases h with
  | same => exact h'
  | emptied hopened data executable =>
      cases h' with
      | same => exact .emptied hopened data executable
      | emptied => exact .emptied hopened data executable
  | @entered parent entries entries' hentries =>
      cases h' with
      | same => exact .entered hentries
      | entered hentries' =>
          refine .entered fun name => ?_
          rcases hentries' name with hsame' | ⟨hfree', hentry'⟩
          · rw [hsame']
            exact hentries name
          · rcases hentries name with hsame | ⟨-, new, -, hentry⟩
            · exact Or.inr ⟨hsame ▸ hfree', hentry'⟩
            · rw [hfree'] at hentry
              cases hentry

/-- A file with contents is one that had them before and was not opened. -/
theorem of_file {data : Bytes} {executable : Bool}
    (h : Change opened isNew node (.file data executable)) (hdata : data ≠ []) :
    node = .file data executable := by
  cases h with
  | same => rfl
  | emptied => exact (hdata rfl).elim

end Change

/-- The files at the nodes `opened`, and no others, were created or truncated
in between. -/
structure Emptied (opened : NodeId → Prop) (t t' : Tree) : Prop where
  size : t.nodes.size ≤ t'.nodes.size
  /-- Of the files that were opened none has contents. -/
  empty : ∀ id data executable, opened id →
    t'.kept.node? id = some (.file data executable) → data = []
  present : ∀ id, opened id → id < firstMadeUp → ∃ node, t'.kept.node? id = some node
  changed : ∀ id node, t.kept.node? id = some node → ∃ node', t'.kept.node? id = some node'
    ∧ Change (opened id) (fun new => opened new ∧ t.nodes.size ≤ new) node node'
  /-- Nodes that are new are files that were opened. -/
  created : ∀ id, t.kept.node? id = none →
    t'.kept.node? id = none ∨ opened id ∧ t'.kept.node? id = some (.file [] false)

namespace Emptied

variable {opened opened' : NodeId → Prop}

/-- Nothing was created or truncated. -/
theorem of_kept_eq (hsize : t'.nodes.size = t.nodes.size)
    (hkept : ∀ id, t'.kept.node? id = t.kept.node? id)
    (hempty : ∀ id data executable, opened id →
      t.kept.node? id = some (.file data executable) → data = [])
    (hpresent : ∀ id, opened id → id < firstMadeUp → ∃ node, t.kept.node? id = some node) :
    Emptied opened t t' where
  size := Nat.le_of_eq hsize.symm
  empty id data executable hid hnode := hempty id data executable hid (hkept id ▸ hnode)
  present id hid hlt := hkept id ▸ hpresent id hid hlt
  changed id node hnode := ⟨node, (hkept id).trans hnode, .same node⟩
  created id hnone := Or.inl ((hkept id).trans hnone)

theorem refl (hempty : ∀ id data executable, opened id →
      t.kept.node? id = some (.file data executable) → data = [])
    (hpresent : ∀ id, opened id → id < firstMadeUp → ∃ node, t.kept.node? id = some node) :
    Emptied opened t t :=
  of_kept_eq rfl (fun _ => rfl) hempty hpresent

theorem trans (h : Emptied opened t t') (h' : Emptied opened' t' t'') :
    Emptied (fun id => opened id ∨ opened' id) t t'' where
  size := Nat.le_trans h.size h'.size
  empty id data executable hid hnode := by
    rcases hid with hid | hid
    · refine Decidable.byContradiction fun hdata => ?_
      cases hbetween : t'.kept.node? id with
      | none =>
          rcases h'.created id hbetween with hnone | ⟨-, hnew⟩
          · rw [hnone] at hnode
            cases hnode
          · rw [hnew] at hnode
            exact hdata (Node.file.inj (Option.some.inj hnode)).1.symm
      | some node =>
          obtain ⟨node', hnode', hchange⟩ := h'.changed id node hbetween
          obtain rfl := Option.some.inj (hnode'.symm.trans hnode)
          obtain rfl := hchange.of_file hdata
          exact hdata (h.empty id data executable hid hbetween)
    · exact h'.empty id data executable hid hnode
  present id hid hlt := by
    rcases hid with hid | hid
    · obtain ⟨node, hnode⟩ := h.present id hid hlt
      obtain ⟨node', hnode', -⟩ := h'.changed id node hnode
      exact ⟨node', hnode'⟩
    · exact h'.present id hid hlt
  changed id node hnode := by
    obtain ⟨node', hnode', hchange⟩ := h.changed id node hnode
    obtain ⟨node'', hnode'', hchange'⟩ := h'.changed id node' hnode'
    refine ⟨node'', hnode'', (hchange.mono Or.inl ?_).trans (hchange'.mono Or.inr ?_)⟩
    · exact fun new hnew => ⟨Or.inl hnew.1, hnew.2⟩
    · exact fun new hnew => ⟨Or.inr hnew.1, Nat.le_trans h.size hnew.2⟩
  created id hnone := by
    rcases h.created id hnone with hnone | ⟨hid, hnew⟩
    · exact (h'.created id hnone).imp_right fun hnew => ⟨Or.inr hnew.1, hnew.2⟩
    · obtain ⟨node', hnode', hchange⟩ := h'.changed id _ hnew
      refine Or.inr ⟨Or.inl hid, ?_⟩
      cases hchange with
      | same => exact hnode'
      | emptied => exact hnode'

end Emptied

theorem Emptied.of_nodes_eq {opened : NodeId → Prop} {u u' : Tree} (h : Emptied opened t t')
    (hnodes : u.nodes = t.nodes) (hnodes' : u'.nodes = t'.nodes) : Emptied opened u u' := by
  have hkept : u.kept = t.kept := by rw [kept, kept, hnodes]
  have hkept' : u'.kept = t'.kept := by rw [kept, kept, hnodes']
  obtain ⟨hsize, hempty, hpresent, hchanged, hcreated⟩ := h
  rw [← hnodes, ← hnodes'] at hsize
  rw [← hkept'] at hempty hpresent
  rw [← hkept, ← hkept', ← hnodes] at hchanged
  rw [← hkept, ← hkept'] at hcreated
  exact ⟨hsize, hempty, hpresent, hchanged, hcreated⟩

theorem node?_kept_addLoose (t : Tree) (node : Node) (id : NodeId) :
    (t.addLoose node).2.kept.node? id
      = if id = t.nodes.size ∧ id < firstMadeUp then some node else t.kept.node? id := by
  by_cases hlt : id < firstMadeUp
  · rw [node?_kept_of_lt _ hlt, node?_kept_of_lt _ hlt, addLoose, Array.getElem?_push]
    by_cases heq : id = t.nodes.size
    · rw [if_pos heq, if_pos ⟨heq, hlt⟩]
    · rw [if_neg heq, if_neg fun hand => heq hand.1]
  · rw [node?_kept_of_not_lt _ hlt, node?_kept_of_not_lt _ hlt, if_neg fun hand => hlt hand.2]

/-- A file that was there is empty now, and all else is the same. -/
theorem emptied_setNode {data : Bytes} {executable : Bool}
    (hnode : t.node? id = some (.file data executable)) :
    Emptied (· = id) t (t.setNode id (.file [] executable)) := by
  have hget := node?_kept_setNode t (.file [] executable) (by rw [hnode]; rfl)
  have hsize : (t.setNode id (.file [] executable)).nodes.size = t.nodes.size :=
    Array.size_setIfInBounds ..
  by_cases hlt : id < firstMadeUp
  · have hkept : t.kept.node? id = some (.file data executable) :=
      (node?_eq_kept_of_lt t hlt).symm.trans hnode
    exact
      { size := Nat.le_of_eq hsize.symm
        empty := by
          rintro _ data' executable' rfl hfile
          rw [hget, if_pos ⟨rfl, hlt⟩] at hfile
          exact (Node.file.inj (Option.some.inj hfile)).1.symm
        present := by
          rintro _ rfl -
          exact ⟨_, (hget _).trans (if_pos ⟨rfl, hlt⟩)⟩
        changed := fun other node hother => by
          by_cases heq : other = id
          · subst heq
            obtain rfl := Option.some.inj (hkept.symm.trans hother)
            exact ⟨_, (hget other).trans (if_pos ⟨rfl, hlt⟩), .emptied rfl data executable⟩
          · exact ⟨node, (hget other).trans ((if_neg fun hand => heq hand.1).trans hother),
              .same node⟩
        created := fun other hnone => by
          refine Or.inl ((hget other).trans ((if_neg ?_).trans hnone))
          rintro ⟨rfl, -⟩
          rw [hkept] at hnone
          cases hnone }
  · refine .of_kept_eq hsize (fun other => ?_) ?_ ?_
    · rw [hget, if_neg fun hand => hlt hand.2]
    · rintro _ data' executable' rfl hfile
      rw [node?_kept_of_not_lt t hlt] at hfile
      cases hfile
    · rintro _ rfl hid
      exact (hlt hid).elim

section Adding

variable {directory parent : NodeId} {entries : Std.TreeMap Bytes NodeId}
  (hlt : directory < firstMadeUp) (hnode : t.node? directory = some (.directory parent entries))

include hlt hnode

theorem directory_lt_size : directory < t.nodes.size := by
  rw [node?_of_lt t hlt] at hnode
  exact (Array.getElem?_eq_some_iff.mp hnode).1

theorem node?_addLoose_directory (node : Node) :
    (t.addLoose node).2.node? directory = some (.directory parent entries) := by
  have hne : directory ≠ t.nodes.size := Nat.ne_of_lt (directory_lt_size hlt hnode)
  rw [node?_eq_kept_of_lt _ hlt, node?_kept_addLoose, if_neg fun hand => hne hand.1,
    ← node?_eq_kept_of_lt t hlt, hnode]

theorem add_eq_setNode (name : Bytes) (node : Node) :
    (t.add directory name node).2
      = (t.addLoose node).2.setNode directory
          (.directory parent (entries.insert name t.nodes.size)) := by
  simp only [add, enter, node?_addLoose_directory hlt hnode node]
  rfl

theorem node?_kept_add (name : Bytes) (node : Node) (id : NodeId) :
    (t.add directory name node).2.kept.node? id
      = if id = directory then some (.directory parent (entries.insert name t.nodes.size))
        else if id = t.nodes.size ∧ id < firstMadeUp then some node
        else t.kept.node? id := by
  have hthere := node?_addLoose_directory hlt hnode node
  rw [add_eq_setNode hlt hnode, node?_kept_setNode _ _ (by rw [hthere]; rfl), node?_kept_addLoose]
  simp only [hlt, and_true]

/-- There is a new file now under a name that was free, and all else is the
same. -/
theorem emptied_add {name : Bytes} (hfree : entries[name]? = none) :
    Emptied (· = t.nodes.size) t (t.add directory name (.file [] false)).2 := by
  have hkept : t.kept.node? directory = some (.directory parent entries) :=
    (node?_eq_kept_of_lt t hlt).symm.trans hnode
  have hdirectory := directory_lt_size hlt hnode
  have hget := node?_kept_add hlt hnode name (.file [] false)
  have hsize : (t.add directory name (.file [] false)).2.nodes.size = t.nodes.size + 1 := by
    rw [add_eq_setNode hlt hnode]
    exact (Array.size_setIfInBounds ..).trans (Array.size_push ..)
  have hnew : t.kept.node? t.nodes.size = none := by
    by_cases hlt : t.nodes.size < firstMadeUp
    · rw [node?_kept_of_lt t hlt, Array.getElem?_size]
    · exact node?_kept_of_not_lt t hlt
  exact
    { size := Nat.le_of_lt (Nat.lt_of_lt_of_eq (Nat.lt_succ_self _) hsize.symm)
      empty := by
        rintro _ data executable rfl hfile
        rw [hget, if_neg (Nat.ne_of_gt hdirectory)] at hfile
        split at hfile
        · exact (Node.file.inj (Option.some.inj hfile)).1.symm
        · rw [hnew] at hfile
          cases hfile
      present := by
        rintro _ rfl hid
        rw [hget, if_neg (Nat.ne_of_gt hdirectory), if_pos ⟨rfl, hid⟩]
        exact ⟨_, rfl⟩
      changed := fun other node hother => by
        by_cases heq : other = directory
        · subst heq
          obtain rfl := Option.some.inj (hkept.symm.trans hother)
          refine ⟨_, (hget other).trans (if_pos rfl), .entered fun entry => ?_⟩
          rw [Std.TreeMap.getElem?_insert]
          split
          · rename_i hsame
            obtain rfl := Std.LawfulEqCmp.eq_of_compare hsame
            exact Or.inr ⟨hfree, _, ⟨rfl, Nat.le_refl _⟩, rfl⟩
          · exact Or.inl rfl
        · refine ⟨node, ?_, .same node⟩
          rw [hget, if_neg heq, if_neg, hother]
          rintro ⟨rfl, -⟩
          rw [hnew] at hother
          cases hother
      created := fun other hnone => by
        have hother : other ≠ directory := by
          rintro rfl
          rw [hkept] at hnone
          cases hnone
        rw [hget, if_neg hother]
        split
        · rename_i heq
          exact Or.inr ⟨heq.1, rfl⟩
        · exact Or.inl hnone }

end Adding

/-- Opening a file for output empties what it opens. -/
theorem Opening.emptied_output {t t' : Tree} {id : NodeId} (h : t.Opening .output id t') :
    Emptied (· = id) t t' := by
  cases h with
  | found hnode hnot =>
      refine .refl ?_ ?_
      · rintro other data executable rfl hfile
        by_cases hlt : other < firstMadeUp
        · rw [← node?_eq_kept_of_lt t hlt] at hfile
          exact (hnot rfl data executable hfile).elim
        · rw [node?_kept_of_not_lt t hlt] at hfile
          cases hfile
      · rintro other rfl hlt
        exact ⟨_, (node?_eq_kept_of_lt t hlt).symm.trans hnode⟩
  | emptied hmode hnode => exact emptied_setNode hnode
  | created hmode hlt hsize hnode hfree => exact emptied_add hlt hnode hfree

/-- Where that does not lead to a file, nothing had to be emptied. -/
theorem Opening.emptied_self {t t' : Tree} {id : NodeId} (h : t.Opening .output id t')
    (hnot : ∀ data executable, t'.node? id ≠ some (.file data executable)) :
    Emptied (· = id) t t := by
  have houtput := h.emptied_output
  refine .refl ?_ ?_
  · rintro other data executable rfl hfile
    have hlt : other < firstMadeUp := by
      refine Decidable.byContradiction fun hlt => ?_
      rw [node?_kept_of_not_lt t hlt] at hfile
      cases hfile
    obtain ⟨node, hnode, hchange⟩ := houtput.changed other _ hfile
    rw [← node?_eq_kept_of_lt t' hlt] at hnode
    cases hchange with
    | same => exact (hnot _ _ hnode).elim
    | emptied => exact (hnot _ _ hnode).elim
  · rintro other rfl hlt
    cases hbefore : t.kept.node? other with
    | some node => exact ⟨node, rfl⟩
    | none =>
        obtain ⟨node, hnode⟩ := houtput.present other rfl hlt
        rcases houtput.created other hbefore with hnone | ⟨-, hfile⟩
        · rw [hnone] at hnode
          cases hnode
        · rw [← node?_eq_kept_of_lt t' hlt] at hfile
          exact (hnot _ _ hfile).elim

/-- Opening a file for input changes nothing. -/
theorem Opening.eq_of_input {t t' : Tree} {id : NodeId} (h : t.Opening .input id t') : t' = t := by
  cases h with
  | found => rfl
  | emptied hmode => cases hmode
  | created hmode => cases hmode

end JobShell.Machine.Tree
