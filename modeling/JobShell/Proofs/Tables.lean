import JobShell.Descriptor
import JobShell.Machine.Tree
import JobShell.Proofs.Renumbering
import Mathlib.Data.List.Induction

/-!
# What a table of descriptors holds

A table is made by one redirection after the other. It holds everything that
was ever put into it, each thing as often as it was put there
(`held_redirectEach`). Behind a number is what was put there last or was there
from the beginning (`getElem?_redirectEach`), and what it took the place of is
kept in the order in which that happened (`shadowed_redirectEach`). The
descriptors above the standard streams go to their numbers in ascending order
(`targets_eq`).
-/

namespace JobShell

open Machine (NodeId)

/-- A redirection whose file was opened. -/
structure OpenedFile where
  redirection : Redirection
  /-- Where the file is open in the shell. -/
  fd : Fd
  /-- The node that the path led to. -/
  node : NodeId

/-- What a stage finds behind the descriptor that was redirected. -/
def OpenedFile.descriptor (o : OpenedFile) : Descriptor := .file o.redirection.path o.fd

namespace DescriptorTable

variable {t : DescriptorTable} {fd : Fd} {d : Descriptor}

theorem isRedirectable_iff : isRedirectable fd = true ↔ 0 ≤ fd ∧ fd ≤ 9 := by
  rw [isRedirectable, Bool.and_eq_true, decide_eq_true_iff, decide_eq_true_iff]
  rfl

/-! ## One redirection -/

theorem values_eq (slots : Std.TreeMap Fd Descriptor) : slots.values = slots.toList.map (·.2) := by
  show slots.inner.inner.values
    = (Std.DTreeMap.Internal.Impl.Const.toList slots.inner.inner).map (·.2)
  rw [Std.DTreeMap.Internal.Impl.values_eq_map_snd,
    Std.DTreeMap.Internal.Impl.Const.toList_eq_toListModel_map, List.map_map]
  rfl

theorem nodup_toList (slots : Std.TreeMap Fd Descriptor) : slots.toList.Nodup := by
  refine List.Nodup.of_map Prod.fst ?_
  rw [Std.TreeMap.map_fst_toList_eq_keys]
  exact Std.TreeMap.nodup_keys

/-- The entries of a table after one of them was replaced. -/
theorem toList_insert_perm (slots : Std.TreeMap Fd Descriptor) (fd : Fd) (d : Descriptor) :
    (slots.insert fd d).toList.Perm ((fd, d) :: (slots.erase fd).toList) := by
  have hnot : (fd, d) ∉ (slots.erase fd).toList := by
    rw [Std.TreeMap.mem_toList_iff_getElem?_eq_some, getElem?_erase_key, if_pos rfl]
    nofun
  refine (List.perm_ext_iff_of_nodup (nodup_toList _)
    (List.nodup_cons.mpr ⟨hnot, nodup_toList _⟩)).mpr ?_
  rintro ⟨fd', d'⟩
  rw [List.mem_cons, Std.TreeMap.mem_toList_iff_getElem?_eq_some,
    Std.TreeMap.mem_toList_iff_getElem?_eq_some, getElem?_insert_key, getElem?_erase_key,
    Prod.mk.injEq]
  by_cases h : fd' = fd <;> simp [h, eq_comm]

theorem toList_perm_of_getElem?_eq {slots slots' : Std.TreeMap Fd Descriptor}
    (h : ∀ fd : Fd, slots[fd]? = slots'[fd]?) : slots.toList.Perm slots'.toList := by
  refine (List.perm_ext_iff_of_nodup (nodup_toList _) (nodup_toList _)).mpr ?_
  rintro ⟨fd, d⟩
  rw [Std.TreeMap.mem_toList_iff_getElem?_eq_some, Std.TreeMap.mem_toList_iff_getElem?_eq_some, h]

/-- Putting back what is there changes nothing. -/
theorem toList_perm_of_getElem? {slots : Std.TreeMap Fd Descriptor} (h : slots[fd]? = some d) :
    slots.toList.Perm ((fd, d) :: (slots.erase fd).toList) := by
  refine (toList_perm_of_getElem?_eq fun fd' => ?_).trans (toList_insert_perm slots fd d)
  rw [getElem?_insert_key]
  split
  · rename_i heq
    rw [heq, h]
  · rfl

theorem toList_perm_of_getElem?_none {slots : Std.TreeMap Fd Descriptor} (h : slots[fd]? = none) :
    slots.toList.Perm (slots.erase fd).toList := by
  refine toList_perm_of_getElem?_eq fun fd' => ?_
  rw [getElem?_erase_key]
  split
  · rename_i heq
    rw [heq, h]
  · rfl

/-- A table keeps what a redirection displaces. -/
theorem held_redirect (t : DescriptorTable) (fd : Fd) (d : Descriptor) :
    (t.redirect fd d).held.Perm (d :: t.held) := by
  have hafter := (toList_insert_perm t.slots fd d).map Prod.snd
  unfold held redirect
  dsimp only
  rw [values_eq, values_eq]
  cases hbefore : t.slots[fd]? with
  | none =>
      have hslots := (toList_perm_of_getElem?_none hbefore).map Prod.snd
      exact (hafter.trans (hslots.symm.cons d)).append_right t.shadowed
  | some displaced =>
      have hslots := (toList_perm_of_getElem? hbefore).map Prod.snd
      calc (t.slots.insert fd d).toList.map Prod.snd ++ (t.shadowed ++ [displaced])
        _ |>.Perm (d :: ((t.slots.erase fd).toList.map Prod.snd ++ (t.shadowed ++ [displaced]))) :=
            hafter.append_right _
        _ |>.Perm (d :: displaced :: ((t.slots.erase fd).toList.map Prod.snd ++ t.shadowed)) := by
            rw [← List.append_assoc]
            exact (List.perm_append_singleton ..).cons d
        _ |>.Perm (d :: (t.slots.toList.map Prod.snd ++ t.shadowed)) :=
            (hslots.symm.append_right t.shadowed).cons d

theorem mem_fds_of_getElem? {source : Fd} (hslot : t.slots[fd]? = some d)
    (hfd : d.fd? = some source) : source ∈ t.fds := by
  have hmem : d ∈ t.held := by
    rw [held, values_eq]
    exact List.mem_append_left _
      (List.mem_map_of_mem (Std.TreeMap.mem_toList_iff_getElem?_eq_some.mpr hslot))
  exact List.mem_filterMap.mpr ⟨d, hmem, hfd⟩

theorem toList_standard (stdin stdout : Descriptor) :
    (standard stdin stdout).slots.toList = [(0, stdin), (1, stdout), (2, .inherit)] := rfl

theorem range_of_standard {stdin stdout : Descriptor}
    (h : (standard stdin stdout).slots[fd]? = some d) : 0 ≤ fd ∧ fd ≤ 2 := by
  rw [← Std.TreeMap.mem_toList_iff_getElem?_eq_some, toList_standard] at h
  simp only [List.mem_cons, Prod.mk.injEq, List.not_mem_nil, or_false] at h
  rcases h with ⟨rfl, -⟩ | ⟨rfl, -⟩ | ⟨rfl, -⟩ <;> decide

theorem held_standard (stdin stdout : Descriptor) :
    (standard stdin stdout).held = [stdin, stdout, .inherit] := by
  rw [held, values_eq, toList_standard]
  rfl

theorem fds_standard (stdin stdout : Descriptor) :
    (standard stdin stdout).fds = stdin.fd?.toList ++ stdout.fd?.toList := by
  rw [fds, held_standard]
  cases stdin <;> cases stdout <;> rfl

theorem getElem?_redirect (t : DescriptorTable) (fd other : Fd) (d : Descriptor) :
    (t.redirect fd d).slots[other]? = if other = fd then some d else t.slots[other]? :=
  getElem?_insert_key ..

theorem shadowed_redirect (t : DescriptorTable) (fd : Fd) (d : Descriptor) :
    (t.redirect fd d).shadowed = t.shadowed ++ t.slots[fd]?.toList := by
  unfold redirect
  dsimp only
  cases t.slots[fd]? with
  | none => exact (List.append_nil _).symm
  | some displaced => rfl

/-! ## All redirections of a stage -/

/-- The table after some redirections, from left to right. -/
def redirectEach (t : DescriptorTable) (opened : List OpenedFile) : DescriptorTable :=
  opened.foldl (fun t o => t.redirect o.redirection.fd o.descriptor) t

theorem redirectEach_concat (t : DescriptorTable) (opened : List OpenedFile) (o : OpenedFile) :
    t.redirectEach (opened ++ [o])
      = (t.redirectEach opened).redirect o.redirection.fd o.descriptor :=
  List.foldl_concat ..

/-- The files that were opened for a number, in their order. -/
def filesFor (opened : List OpenedFile) (fd : Fd) : List Descriptor :=
  (opened.filter (·.redirection.fd = fd)).map OpenedFile.descriptor

/-- What is behind a number after some redirections: the last file that was
opened for it, else what was there to begin with. -/
def behind? (t : DescriptorTable) (opened : List OpenedFile) (fd : Fd) : Option Descriptor :=
  (filesFor opened fd).getLast?.or t.slots[fd]?

/-- What every redirection takes the place of, with its number: what the ones
before it have left there. -/
def displacements (t : DescriptorTable) (opened : List OpenedFile) : List (Fd × Descriptor) :=
  (List.range opened.length).filterMap fun i => opened[i]?.bind fun o =>
    (t.behind? (opened.take i) o.redirection.fd).map (o.redirection.fd, ·)

theorem filesFor_concat (opened : List OpenedFile) (o : OpenedFile) (fd : Fd) :
    filesFor (opened ++ [o]) fd
      = filesFor opened fd ++ if o.redirection.fd = fd then [o.descriptor] else [] := by
  unfold filesFor
  rw [List.filter_append, List.map_append, List.filter_singleton]
  by_cases h : o.redirection.fd = fd <;> simp [h]

theorem mem_filesFor_iff {opened : List OpenedFile} :
    d ∈ filesFor opened fd ↔ ∃ o ∈ opened, o.redirection.fd = fd ∧ o.descriptor = d := by
  simp [filesFor, and_assoc]

theorem behind?_concat (t : DescriptorTable) (opened : List OpenedFile) (o : OpenedFile) (fd : Fd) :
    t.behind? (opened ++ [o]) fd
      = if fd = o.redirection.fd then some o.descriptor else t.behind? opened fd := by
  rw [behind?, filesFor_concat, behind?]
  by_cases h : fd = o.redirection.fd
  · simp [h]
  · simp [h, Ne.symm h]

theorem displacements_concat (t : DescriptorTable) (opened : List OpenedFile) (o : OpenedFile) :
    t.displacements (opened ++ [o])
      = t.displacements opened
        ++ ((t.behind? opened o.redirection.fd).map (o.redirection.fd, ·)).toList := by
  have hbefore : ∀ i ∈ List.range opened.length,
      ((opened ++ [o])[i]?.bind fun o' =>
        (t.behind? ((opened ++ [o]).take i) o'.redirection.fd).map (o'.redirection.fd, ·))
      = opened[i]?.bind fun o' =>
        (t.behind? (opened.take i) o'.redirection.fd).map (o'.redirection.fd, ·) := by
    intro i hi
    have hi := List.mem_range.mp hi
    rw [List.getElem?_append_left hi, List.take_append_of_le_length (Nat.le_of_lt hi)]
  unfold displacements
  rw [List.length_append, List.length_singleton, List.range_succ, List.filterMap_append,
    List.filterMap_congr hbefore]
  congr 1
  simp only [List.filterMap_cons, List.filterMap_nil, List.getElem?_concat_length,
    List.take_left, Option.bind_some]
  cases t.behind? opened o.redirection.fd <;> rfl

/-- **The last redirection of a number counts.** -/
theorem getElem?_redirectEach (t : DescriptorTable) (opened : List OpenedFile) (fd : Fd) :
    (t.redirectEach opened).slots[fd]? = t.behind? opened fd := by
  induction opened using List.reverseRecOn with
  | nil => rfl
  | append_singleton opened o ih =>
      rw [redirectEach_concat, getElem?_redirect, behind?_concat, ih]

/-- **What is displaced is kept in the order in which it was.** -/
theorem shadowed_redirectEach (t : DescriptorTable) (opened : List OpenedFile) :
    (t.redirectEach opened).shadowed
      = t.shadowed ++ (t.displacements opened).map Prod.snd := by
  induction opened using List.reverseRecOn with
  | nil => exact (List.append_nil _).symm
  | append_singleton opened o ih =>
      rw [redirectEach_concat, shadowed_redirect, ih, getElem?_redirectEach,
        displacements_concat, List.map_append, List.append_assoc]
      cases t.behind? opened o.redirection.fd <;> rfl

/-- Of what was ever behind a number all but the last is displaced. -/
theorem displacements_of (t : DescriptorTable) (opened : List OpenedFile) (fd : Fd) :
    ((t.displacements opened).filter (·.1 = fd)).map Prod.snd
      = (t.slots[fd]?.toList ++ filesFor opened fd).dropLast := by
  induction opened using List.reverseRecOn with
  | nil =>
      cases h : t.slots[fd]? with
      | none => simp [displacements, filesFor]
      | some d => simp [displacements, filesFor]
  | append_singleton opened o ih =>
      rw [displacements_concat, List.filter_append, List.map_append, ih, filesFor_concat]
      by_cases h : o.redirection.fd = fd
      · -- The new file is the last one now, and the one before it is displaced.
        rw [if_pos h, h, ← List.append_assoc, List.dropLast_concat]
        have hlast : t.behind? opened fd
            = (t.slots[fd]?.toList ++ filesFor opened fd).getLast? := by
          rw [behind?, List.getLast?_append]
          cases t.slots[fd]? <;> rfl
        rw [hlast]
        generalize t.slots[fd]?.toList ++ filesFor opened fd = all
        cases hall : all.getLast? with
        | none =>
            rw [List.getLast?_eq_none_iff.mp hall]
            rfl
        | some d =>
            obtain ⟨front, rfl⟩ := List.getLast?_eq_some_iff.mp hall
            simp
      · rw [if_neg h, List.append_nil]
        cases t.behind? opened o.redirection.fd <;> simp [h]

/-- A table keeps everything that was ever put into it. -/
theorem held_redirectEach (t : DescriptorTable) (opened : List OpenedFile) :
    (t.redirectEach opened).held.Perm (opened.map OpenedFile.descriptor ++ t.held) := by
  induction opened using List.reverseRecOn with
  | nil => exact .refl _
  | append_singleton opened o ih =>
      rw [redirectEach_concat, List.map_append, List.append_assoc]
      exact (held_redirect ..).trans ((ih.cons o.descriptor).trans List.perm_middle.symm)

theorem fds_redirectEach (t : DescriptorTable) (opened : List OpenedFile) :
    (t.redirectEach opened).fds.Perm (opened.map OpenedFile.fd ++ t.fds) := by
  have hheld := (held_redirectEach t opened).filterMap Descriptor.fd?
  have hfiles : (opened.map OpenedFile.descriptor).filterMap Descriptor.fd?
      = opened.map OpenedFile.fd := by
    rw [List.filterMap_map]
    exact congrFun List.filterMap_eq_map opened
  rwa [List.filterMap_append, hfiles] at hheld

theorem getElem?_redirectEach_of_ne {opened : List OpenedFile}
    (h : ∀ o ∈ opened, o.redirection.fd ≠ fd) (t : DescriptorTable) :
    (t.redirectEach opened).slots[fd]? = t.slots[fd]? := by
  have hnone : filesFor opened fd = [] := List.eq_nil_iff_forall_not_mem.mpr fun d hd => by
    obtain ⟨o, ho, hfd, -⟩ := mem_filesFor_iff.mp hd
    exact h o ho hfd
  rw [getElem?_redirectEach, behind?, hnone]
  rfl

theorem of_getElem?_redirectEach {opened : List OpenedFile}
    (h : (t.redirectEach opened).slots[fd]? = some d) :
    t.slots[fd]? = some d ∨ ∃ o ∈ opened, o.redirection.fd = fd ∧ d = o.descriptor := by
  rw [getElem?_redirectEach, behind?] at h
  cases hlast : (filesFor opened fd).getLast? with
  | none => exact Or.inl (by rwa [hlast] at h)
  | some last =>
      rw [hlast] at h
      obtain rfl := Option.some.inj h
      obtain ⟨o, ho, hfd, heq⟩ := mem_filesFor_iff.mp (List.mem_of_getLast? hlast)
      exact Or.inr ⟨o, ho, hfd, heq.symm⟩

/-- What was behind a number that is redirected is displaced. -/
theorem mem_shadowed_of_getElem? {opened : List OpenedFile} (hslot : t.slots[fd]? = some d)
    (h : ∃ o ∈ opened, o.redirection.fd = fd) : d ∈ (t.redirectEach opened).shadowed := by
  obtain ⟨o, ho, hfd⟩ := h
  have hfile : o.descriptor ∈ filesFor opened fd := mem_filesFor_iff.mpr ⟨o, ho, hfd, rfl⟩
  have hdisplaced : d ∈ ((t.displacements opened).filter (·.1 = fd)).map Prod.snd := by
    rw [displacements_of, hslot]
    show d ∈ (d :: filesFor opened fd).dropLast
    rw [List.dropLast_cons_of_ne_nil (List.ne_nil_of_mem hfile)]
    exact List.mem_cons_self ..
  obtain ⟨p, hp, rfl⟩ := List.mem_map.mp hdisplaced
  rw [shadowed_redirectEach]
  exact List.mem_append_right _ (List.mem_map_of_mem (List.mem_of_mem_filter hp))

/-! ## Where the descriptors are open -/

/-- The descriptors with certain numbers: where they are open in the shell,
and the numbers. -/
def sources (t : DescriptorTable) (wanted : Fd → Prop) [DecidablePred wanted] : List (Fd × Fd) :=
  t.slots.toList.filterMap fun (target, d) =>
    if wanted target then d.fd?.map fun fd => (fd, target) else none

theorem streams_eq (t : DescriptorTable) : t.streams = t.sources (· ≤ 2) := rfl

theorem moves_eq (t : DescriptorTable) : t.moves = t.sources (¬· ≤ 2) := by
  unfold moves sources
  simp only [ite_not]

variable {wanted : Fd → Prop} [DecidablePred wanted]

theorem mem_sources_iff {source target : Fd} :
    (source, target) ∈ t.sources wanted
      ↔ ∃ d, t.slots[target]? = some d ∧ wanted target ∧ d.fd? = some source := by
  unfold sources
  rw [List.mem_filterMap]
  constructor
  · rintro ⟨⟨target', d⟩, hmem, h⟩
    dsimp only at h
    split at h
    · rename_i hwanted
      obtain ⟨fd, hfd, heq⟩ := Option.map_eq_some_iff.mp h
      obtain ⟨rfl, rfl⟩ := Prod.mk.inj heq
      exact ⟨d, Std.TreeMap.mem_toList_iff_getElem?_eq_some.mp hmem, hwanted, hfd⟩
    · cases h
  · rintro ⟨d, hslot, hwanted, hfd⟩
    refine ⟨(target, d), Std.TreeMap.mem_toList_iff_getElem?_eq_some.mpr hslot, ?_⟩
    dsimp only
    rw [if_pos hwanted, hfd]
    rfl

/-- The numbers come in ascending order. -/
theorem targets_eq (t : DescriptorTable) :
    (t.sources wanted).map Prod.snd = t.slots.keys.filter fun fd =>
      wanted fd ∧ ((t.slots[fd]?).bind Descriptor.fd?).isSome := by
  have hall : ∀ entries : List (Fd × Descriptor),
      (∀ entry ∈ entries, t.slots[entry.1]? = some entry.2) →
      (entries.filterMap fun (target, d) =>
          if wanted target then d.fd?.map fun fd => (fd, target) else none).map Prod.snd
        = (entries.map Prod.fst).filter fun fd =>
            wanted fd ∧ ((t.slots[fd]?).bind Descriptor.fd?).isSome := by
    intro entries hentries
    induction entries with
    | nil => rfl
    | cons entry rest ih =>
        obtain ⟨hentry, hrest⟩ := List.forall_mem_cons.mp hentries
        rw [List.filterMap_cons, List.map_cons, List.filter_cons, hentry]
        by_cases hwanted : wanted entry.1
        · cases hfd : entry.2.fd? <;> simp [hwanted, hfd, ih hrest]
        · simp [hwanted, ih hrest]
  rw [← Std.TreeMap.map_fst_toList_eq_keys]
  exact hall _ fun entry hmem => Std.TreeMap.mem_toList_iff_getElem?_eq_some.mp hmem

theorem nodup_targets (t : DescriptorTable) : ((t.sources wanted).map Prod.snd).Nodup := by
  rw [targets_eq]
  exact Std.TreeMap.nodup_keys.filter _

/-- If every wanted descriptor is open in the shell, none is left out. -/
theorem targets_eq_of_isSome (h : ∀ fd d, t.slots[fd]? = some d → wanted fd → d.fd?.isSome) :
    (t.sources wanted).map Prod.snd = t.slots.keys.filter (wanted ·) := by
  rw [targets_eq]
  refine List.filter_congr fun fd hfd => ?_
  rw [Std.TreeMap.mem_keys, Std.TreeMap.mem_iff_isSome_getElem?] at hfd
  obtain ⟨d, hd⟩ := Option.isSome_iff_exists.mp hfd
  by_cases hwanted : wanted fd
  · simp [hd, hwanted, h fd d hd hwanted]
  · simp [hwanted]

end DescriptorTable

end JobShell
