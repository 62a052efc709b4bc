import Mathlib
import JobShell.Proofs.Processes
import JobShell.Proofs.Starting

/-!
# What a started process finds behind its descriptors

A table says what a stage is to find behind its descriptors, and a process
that executes its command finds exactly that (`installed_of_buildTable`).

The streams come first and the other descriptors after them, and neither gets
in the way of the other: the duplicates made for the streams are above them,
and what is moved later was opened above them too, because the shell has
streams of its own. Moving is `Slots.moved_of_remap`, which needs that the
list is not too long: only seven numbers above the streams can be redirected.
-/

namespace JobShell

open Machine (NodeId Slots Slot Pid FileId Process World Tree)

namespace Machine.Slots

variable {s s' : Slots} {limit : Nat}

/-- The descriptors of a new process: streams at their places, and every other
descriptor where the table has it. -/
theorem getElem?_childSlots {streams moves : List (Fd × Fd)}
    (habove : ∀ p ∈ streams, 2 < p.1) (hstreams : ∀ p ∈ streams, p.2 ≤ 2)
    (hnodup : (streams.map Prod.snd).Nodup) (hlength : moves.length ≤ maxMoves)
    (hopen : ∀ p ∈ moves, p.1 ∈ s ∧ 2 < p.1) (htargets : ∀ p ∈ moves, 2 < p.2 ∧ p.2 < firstScratch)
    (hnodup' : (moves.map Prod.snd).Nodup)
    (h : Host.childSlots s limit streams moves = (none, s')) :
    (∀ p ∈ streams ++ moves, ∃ slot, s[p.1]? = some slot ∧ s'[p.2]? = some ⟨slot.file, false⟩)
      ∧ ∀ (fd : Fd), fd ≤ 2 → fd ∉ streams.map Prod.snd → s'[fd]? = s[fd]? := by
  unfold Host.childSlots at h
  split at h
  · cases h
  rename_i s₁ hplace
  have hapart : ∀ p ∈ streams, ∀ q ∈ streams, p.1 ≠ q.2 := fun p hp q hq heq =>
    absurd (habove p hp) (Int.not_lt.mpr (heq ▸ hstreams q hq))
  obtain ⟨hplaced, hothers⟩ := getElem?_place hapart hnodup hplace
  have hkept : ∀ (fd : Fd), 2 < fd → s₁[fd]? = s[fd]? := by
    intro fd hfd
    refine hothers fd fun hmem => ?_
    obtain ⟨p, hp, rfl⟩ := List.mem_map.mp hmem
    exact absurd hfd (Int.not_lt.mpr (hstreams p hp))
  have hopen' : ∀ p ∈ moves, p.1 ∈ s₁ := by
    intro p hp
    obtain ⟨hmem, hlow⟩ := hopen p hp
    rw [mem_iff_exists] at hmem ⊢
    rwa [hkept _ hlow]
  have hmoved := moved_of_remap hlength hopen' (fun p hp => (htargets p hp).2) hnodup' h
  have hlow : ∀ (fd : Fd), fd ≤ 2 → s'[fd]? = s₁[fd]? := by
    intro fd hfd
    refine hmoved.low fd (Int.lt_of_le_of_lt hfd (by decide)) fun hmem => ?_
    obtain ⟨p, hp, rfl⟩ := List.mem_map.mp hmem
    exact absurd (htargets p hp).1 (Int.not_lt.mpr hfd)
  constructor
  · intro p hp
    rcases List.mem_append.mp hp with hp | hp
    · obtain ⟨slot, hslot, htarget⟩ := hplaced p hp
      exact ⟨slot, hslot, (hlow _ (hstreams p hp)).trans htarget⟩
    · obtain ⟨slot, hslot, htarget⟩ := hmoved.target p hp
      rw [hkept _ (hopen p hp).2] at hslot
      exact ⟨slot, hslot, htarget⟩
  · intro fd hfd hnot
    rw [hlow fd hfd, hothers fd hnot]

theorem getElem?_afterExec {fd : Fd} {file : FileId} (h : s[fd]? = some ⟨file, false⟩) :
    s.afterExec[fd]? = some ⟨file, false⟩ := by
  rw [afterExec, Std.TreeMap.getElem?_filter', h]
  rfl

end Machine.Slots

namespace Host

variable {h h' : Host}

/-! ## Descriptors opened for a start -/

/-- Every stream is duplicated above the standard streams. -/
theorem copied_of_duplicateStreams {streams copies : List (Fd × Fd)}
    (hopen : ∀ p ∈ streams, p.1 ∈ h.shell.slots)
    (hok : h.duplicateStreams streams = .ok (copies, h')) :
    h.shell.slots.Grows 3 h'.shell.slots
      ∧ List.Forall₂ (fun p q => q.2 = p.2
          ∧ Slots.Copied 3 h.shell.slots h'.shell.slots p.1 q.1) streams copies := by
  induction streams generalizing h copies with
  | nil =>
      obtain ⟨rfl, rfl⟩ := Prod.mk.inj (Except.ok.inj hok)
      exact ⟨.refl 3 _, .nil⟩
  | cons stream rest ih =>
      obtain ⟨fd, target⟩ := stream
      obtain ⟨hfd, hrest⟩ := List.forall_mem_cons.mp hopen
      obtain ⟨⟨copy, h₁⟩, hduplicate, hok⟩ := Except.bind_eq_ok_iff.mp hok
      obtain ⟨⟨others, h₂⟩, hothers, hok⟩ := Except.bind_eq_ok_iff.mp hok
      obtain ⟨rfl, rfl⟩ := Prod.mk.inj (Except.ok.inj hok)
      obtain ⟨slots, hslots, rfl⟩ := duplicate_eq_ok hduplicate
      obtain ⟨hgrows, hcopied⟩ := Slots.copied_of_duplicate hslots
      obtain ⟨hgrows', hcopies⟩ := ih (fun p hp => hgrows.mem (hrest p hp)) hothers
      refine ⟨hgrows.trans hgrows', .cons ⟨rfl, hcopied.grows hgrows'⟩ ?_⟩
      refine List.forall₂_iff_get.mpr ⟨hcopies.length_eq, fun i hi hi' => ?_⟩
      obtain ⟨htarget, hcopy⟩ := hcopies.get hi hi'
      exact ⟨htarget, hcopy.of_grows hgrows (hrest _ (List.get_mem ..))⟩

theorem grows_of_openReport {fds : Fd × Fd} (hok : h.openReport = .ok (fds, h')) :
    h.shell.slots.Grows 0 h'.shell.slots ∧ fds.1 ∉ h.shell.slots := by
  unfold openReport at hok
  dsimp only at hok
  obtain ⟨⟨own, slots⟩, hown, hok⟩ := Except.bind_eq_ok_iff.mp hok
  obtain ⟨⟨other, slots'⟩, hother, hok⟩ := Except.bind_eq_ok_iff.mp hok
  obtain ⟨rfl, rfl⟩ := Prod.mk.inj (Except.ok.inj hok)
  exact ⟨(Slots.grows_of_allocate hown).trans (Slots.grows_of_allocate hother),
    (Slots.eq_insert_of_allocate hown).1⟩

/-! ## The process that is started -/

/-- A process that reports a failure does not live. -/
theorem not_isAlive_of_reportFailure {p : Process} {reportFd : Fd} {cause : OsError} {pid : Pid}
    (hok : h.reportFailure p reportFd cause = (.ok pid, h')) :
    h'.world.isAlive pid = false := by
  have hfinished : ∀ (w : World) (status : WaitStatus),
      (w.finish h.shell pid status).isAlive pid = false := by
    intro w status
    rw [← Bool.not_eq_true]
    exact fun halive => (World.isAlive_finish halive).1 rfl
  unfold reportFailure at hok
  dsimp only at hok
  split at hok
  · cases hok
  · split at hok
    · obtain ⟨hpid, rfl⟩ := Prod.mk.inj hok
      obtain rfl := Except.ok.inj hpid
      exact hfinished ..
    · obtain ⟨hpid, rfl⟩ := Prod.mk.inj hok
      obtain rfl := Except.ok.inj hpid
      exact hfinished ..

/-- A process that lives after the split has set up its descriptors. -/
theorem slots_of_split {directory : NodeId} {r : StartRequest} {copies : List (Fd × Fd)}
    {reportFds : Fd × Fd} {pid : Pid} {p : Process}
    (hok : h.split directory r copies reportFds = (.ok pid, h'))
    (hp : h'.world.process? pid = some p) (halive : h'.world.isAlive pid = true) :
    ∃ slots, childSlots (h.shell.slots.erase reportFds.1) h.slotLimit copies r.table.moves
        = (none, slots)
      ∧ p.slots = slots.afterExec := by
  have hdead : ∀ {g : Host} {q : Process} {cause : OsError},
      g.reportFailure q reportFds.2 cause ≠ (.ok pid, h') := by
    intro g q cause heq
    rw [not_isAlive_of_reportFailure heq] at halive
    cases halive
  unfold split at hok
  dsimp only at hok
  generalize hterminal : (if r.takesTerminal = true then
    { h with shell := { h.shell with foreground := some (r.group.getD h.world.nextPid) } }
    else h) = g at hok
  have hslots : g.shell.slots = h.shell.slots ∧ g.slotLimit = h.slotLimit := by
    rw [← hterminal]
    split <;> exact ⟨rfl, rfl⟩
  rw [hslots.1, hslots.2] at hok
  cases hchild : childSlots (h.shell.slots.erase reportFds.1) h.slotLimit copies r.table.moves with
  | mk failed slots =>
  rw [hchild] at hok
  cases failed with
  | some cause => exact (hdead hok).elim
  | none =>
      refine ⟨slots, rfl, ?_⟩
      dsimp only at hok
      split at hok
      · exact (hdead hok).elim
      · obtain ⟨hpid, rfl⟩ := Prod.mk.inj hok
        obtain rfl := Except.ok.inj hpid
        obtain rfl := Option.some.inj ((World.process?_addProcess ..).symm.trans hp)
        rfl

theorem slots_of_start {directory : NodeId} {r : StartRequest} {pid : Pid} {p : Process}
    (hok : h.start directory r = (.ok pid, h'))
    (hp : h'.world.process? pid = some p) (halive : h'.world.isAlive pid = true) :
    ∃ copies opened reportFds connected slots,
      h.duplicateStreams r.table.streams = .ok (copies, opened)
        ∧ opened.openReport = .ok (reportFds, connected)
        ∧ childSlots (connected.shell.slots.erase reportFds.1) connected.slotLimit copies
            r.table.moves = (none, slots)
        ∧ p.slots = slots.afterExec := by
  unfold start at hok
  split at hok
  · cases hok
  rename_i copies opened hcopies
  split at hok
  · cases hok
  split at hok
  · cases hok
  rename_i reportFds connected hreport
  cases hsplit : connected.split directory r copies reportFds with
  | mk result after =>
  rw [hsplit] at hok
  obtain ⟨rfl, rfl⟩ := Prod.mk.inj hok
  rw [world_closeAll] at hp halive
  obtain ⟨slots, hchild, hslots⟩ := slots_of_split hsplit hp halive
  exact ⟨copies, opened, reportFds, connected, slots, hcopies, hreport, hchild, hslots⟩

end Host

/-! ## The descriptors of a table -/

/-- The standard streams of the shell are open, and a process it starts gets
them. -/
def Host.HasStreams (h : Host) : Prop :=
  ∀ fd : Fd, 0 ≤ fd → fd ≤ 2 → ∃ file, h.shell.slots[fd]? = some ⟨file, false⟩

/-- What becomes of a table when a process is started. -/
structure DescriptorTable.Installed (t : DescriptorTable) : Prop where
  /-- Each number above the streams is a target once, in ascending order. -/
  targets : t.moves.map Prod.snd = t.slots.keys.filter (2 < ·)
  ascending : (t.moves.map Prod.snd).Pairwise (· < ·)
  moves : ∀ source target : Fd, (source, target) ∈ t.moves ↔
    2 < target ∧ ∃ path, t.slots[target]? = some (.file path source)
  length : t.moves.length ≤ 7
  /-- Whatever numbers the files are open at, they are all moved at once. -/
  moved : ∀ (pairs : List (Fd × Fd)) (slots slots' : Slots) (limit : Nat),
    pairs.map Prod.snd = t.moves.map Prod.snd → (∀ p ∈ pairs, p.1 ∈ slots) →
    slots.remap limit pairs = (none, slots') → Slots.Moved pairs slots slots'
  /-- A process that executes its command has behind every descriptor of the
  table what the shell has there. -/
  child : ∀ (h h' : Host) (directory : NodeId) (r : StartRequest) (pid : Pid) (p : Process),
    r.table = t → (∀ fd ∈ t.fds, fd ∈ h.shell.slots) → (∀ m ∈ t.moves, 2 < m.1) → h.HasStreams →
    h.start directory r = (.ok pid, h') → h'.world.process? pid = some p →
    h'.world.isAlive pid = true →
    ∀ (fd : Fd) (d : Descriptor), t.slots[fd]? = some d →
      ∃ slot, h.shell.slots[d.fd?.getD fd]? = some slot ∧ p.slots[fd]? = some ⟨slot.file, false⟩

namespace DescriptorTable

variable {t : DescriptorTable} {source target : Fd}

theorem nodup_targets_moves (t : DescriptorTable) : (t.moves.map Prod.snd).Nodup := by
  rw [moves_eq]
  exact nodup_targets t

theorem nodup_streams (t : DescriptorTable) : (t.streams.map Prod.snd).Nodup := by
  rw [streams_eq]
  exact nodup_targets t

theorem mem_streams_iff : (source, target) ∈ t.streams ↔
    ∃ d, t.slots[target]? = some d ∧ target ≤ 2 ∧ d.fd? = some source := by
  rw [streams_eq, mem_sources_iff]

/-- The copies of the streams of a table that a process is started with: they
are in the shell, next to what it had. -/
structure Copies (t : DescriptorTable) (s s' : Slots) (copies : List (Fd × Fd)) : Prop where
  targets : copies.map Prod.snd = t.streams.map Prod.snd
  above : ∀ p ∈ copies, 2 < p.1
  file : ∀ source target, (source, target) ∈ t.streams → ∃ copy slot, (copy, target) ∈ copies
    ∧ s[source]? = some slot ∧ s'[copy]? = some ⟨slot.file, true⟩
  kept : ∀ (fd : Fd) (slot : Slot), s[fd]? = some slot → s'[fd]? = some slot

theorem copies_of_start {g opened connected : Host} {copies : List (Fd × Fd)}
    {reportFds : Fd × Fd} (hopen : ∀ fd ∈ t.fds, fd ∈ g.shell.slots)
    (hcopies : g.duplicateStreams t.streams = .ok (copies, opened))
    (hreport : opened.openReport = .ok (reportFds, connected)) :
    t.Copies g.shell.slots (connected.shell.slots.erase reportFds.1) copies := by
  have hsources : ∀ p ∈ t.streams, p.1 ∈ g.shell.slots := by
    intro p hp
    obtain ⟨d, hslot, -, hfd⟩ := mem_streams_iff.mp hp
    exact hopen _ (mem_fds_of_getElem? hslot hfd)
  obtain ⟨hgrows, hcopied⟩ := Host.copied_of_duplicateStreams hsources hcopies
  obtain ⟨hgrows', hfree⟩ := Host.grows_of_openReport hreport
  have hsame : ∀ {fd : Fd} {slot : Slot}, opened.shell.slots[fd]? = some slot →
      (connected.shell.slots.erase reportFds.1)[fd]? = some slot := by
    intro fd slot hbefore
    rw [getElem?_erase_key, if_neg, hgrows'.kept fd slot hbefore]
    rintro rfl
    exact hfree (Slots.mem_iff_exists.mpr ⟨slot, hbefore⟩)
  constructor
  case targets =>
    refine List.ext_getElem (by simpa using hcopied.length_eq.symm) fun i hi hi' => ?_
    rw [List.length_map] at hi hi'
    rw [List.getElem_map, List.getElem_map]
    exact (hcopied.get hi' hi).1
  case above =>
    intro p hp
    obtain ⟨i, hi, rfl⟩ := List.getElem_of_mem hp
    have hleast := (hcopied.get (hcopied.length_eq ▸ hi) hi).2.least
    exact Int.lt_of_lt_of_le (by decide) hleast
  case file =>
    intro source target hstream
    obtain ⟨i, hi, hget⟩ := List.getElem_of_mem hstream
    have hi' := hcopied.length_eq ▸ hi
    obtain ⟨htarget, hcopy⟩ := hcopied.get hi hi'
    obtain ⟨slot, hsource, hduplicate⟩ := hcopy.file
    rw [List.get_eq_getElem, hget] at hsource
    rw [List.get_eq_getElem, List.get_eq_getElem, hget] at htarget
    have hcopied : (copies[i].1, target) = copies[i] := Prod.ext rfl htarget.symm
    exact ⟨copies[i].1, slot, hcopied ▸ List.getElem_mem hi', hsource, hsame hduplicate⟩
  case kept => exact fun fd slot hbefore => hsame (hgrows.kept fd slot hbefore)

end DescriptorTable

/-- What a table that was built has behind its numbers. -/
def DescriptorTable.Sound (t : DescriptorTable) : Prop :=
  ∀ (fd : Fd) (d : Descriptor), t.slots[fd]? = some d →
    0 ≤ fd ∧ fd ≤ 9 ∧ (2 < fd → ∃ path source, d = .file path source)

namespace DescriptorTable.Sound

variable {t : DescriptorTable} {source target : Fd}

theorem mem_moves_iff (h : t.Sound) : (source, target) ∈ t.moves ↔
    2 < target ∧ ∃ path, t.slots[target]? = some (.file path source) := by
  rw [moves_eq, mem_sources_iff]
  constructor
  · rintro ⟨d, hslot, hlow, hfd⟩
    have hlow := Int.not_le.mp hlow
    obtain ⟨path, source', rfl⟩ := (h target d hslot).2.2 hlow
    obtain rfl := Option.some.inj hfd
    exact ⟨hlow, path, hslot⟩
  · rintro ⟨hlow, path, hslot⟩
    exact ⟨_, hslot, Int.not_le.mpr hlow, rfl⟩

theorem targets_moves (h : t.Sound) :
    t.moves.map Prod.snd = t.slots.keys.filter (2 < ·) := by
  have hsome : ∀ (fd : Fd) (d : Descriptor), t.slots[fd]? = some d → ¬fd ≤ 2 → d.fd?.isSome := by
    intro fd d hslot hlow
    obtain ⟨path, source, rfl⟩ := (h fd d hslot).2.2 (Int.not_le.mp hlow)
    rfl
  rw [moves_eq, targets_eq_of_isSome hsome]
  simp only [Int.not_le]

theorem range_of_mem_moves (h : t.Sound) (hmem : (source, target) ∈ t.moves) :
    2 < target ∧ target ≤ 9 := by
  obtain ⟨hlow, path, hslot⟩ := h.mem_moves_iff.mp hmem
  exact ⟨hlow, (h target _ hslot).2.1⟩

/-- There are only seven numbers above the streams. -/
theorem length_moves_le (h : t.Sound) : t.moves.length ≤ 7 := by
  have hseven : ∀ n : Int, 2 < n → n ≤ 9 → n ∈ [3, 4, 5, 6, 7, 8, 9] := by
    intro n hlow hmost
    simp only [List.mem_cons, List.not_mem_nil, or_false]
    omega
  have hsubset : t.moves.map Prod.snd ⊆ [3, 4, 5, 6, 7, 8, 9] := by
    intro target htarget
    obtain ⟨⟨source, target⟩, hmem, rfl⟩ := List.mem_map.mp htarget
    obtain ⟨hlow, hmost⟩ := h.range_of_mem_moves hmem
    exact hseven target hlow hmost
  have hle := ((nodup_targets_moves t).subperm hsubset).length_le
  rwa [List.length_map] at hle

theorem target_lt (h : t.Sound) : ∀ target ∈ t.moves.map Prod.snd, target < Slots.firstScratch := by
  intro target htarget
  obtain ⟨p, hp, rfl⟩ := List.mem_map.mp htarget
  exact Int.lt_of_le_of_lt (h.range_of_mem_moves hp).2 (by decide)

theorem length_moves_le_max (h : t.Sound) : t.moves.length ≤ Slots.maxMoves :=
  Nat.le_trans h.length_moves_le (by decide)

theorem moved_of_remap (h : t.Sound) {pairs : List (Fd × Fd)} {slots slots' : Slots} {limit : Nat}
    (htargets : pairs.map Prod.snd = t.moves.map Prod.snd) (hopen : ∀ p ∈ pairs, p.1 ∈ slots)
    (hremap : slots.remap limit pairs = (none, slots')) : Slots.Moved pairs slots slots' := by
  have hlength : pairs.length ≤ Slots.maxMoves := by
    have heq := congrArg List.length htargets
    rw [List.length_map, List.length_map] at heq
    exact heq ▸ h.length_moves_le_max
  have hnodup : (pairs.map Prod.snd).Nodup := htargets ▸ nodup_targets_moves t
  refine Slots.moved_of_remap hlength hopen (fun p hp => ?_) hnodup hremap
  exact h.target_lt p.2 (htargets ▸ List.mem_map_of_mem hp)

/-- A number of the table is that of a stream, one that the shell's own stream
is behind, or one that a file is moved to. -/
theorem getElem?_child (h : t.Sound) {s before after : Slots} {limit : Nat}
    {copies : List (Fd × Fd)} (hopen : ∀ fd ∈ t.fds, fd ∈ s) (hhigh : ∀ m ∈ t.moves, 2 < m.1)
    (hstreams : ∀ fd : Fd, 0 ≤ fd → fd ≤ 2 → ∃ file, s[fd]? = some ⟨file, false⟩)
    (hcopies : t.Copies s before copies)
    (hchild : Host.childSlots before limit copies t.moves = (none, after)) {fd : Fd}
    {d : Descriptor} (hslot : t.slots[fd]? = some d) :
    ∃ slot, s[d.fd?.getD fd]? = some slot ∧ after[fd]? = some ⟨slot.file, false⟩ := by
  have hsource : ∀ {source : Fd}, d.fd? = some source → ∃ slot, s[source]? = some slot :=
    fun hfd => Slots.mem_iff_exists.mp (hopen _ (mem_fds_of_getElem? hslot hfd))
  have htargets : ∀ target ∈ copies.map Prod.snd, ∃ source, (source, target) ∈ t.streams := by
    intro target hmem
    rw [hcopies.targets] at hmem
    obtain ⟨⟨source, target⟩, hp, rfl⟩ := List.mem_map.mp hmem
    exact ⟨source, hp⟩
  have hlowTargets : ∀ p ∈ copies, p.2 ≤ 2 := by
    intro p hp
    obtain ⟨source, hstream⟩ := htargets p.2 (List.mem_map_of_mem hp)
    obtain ⟨-, -, hlow, -⟩ := mem_streams_iff.mp hstream
    exact hlow
  have hmoves : ∀ p ∈ t.moves, p.1 ∈ before ∧ 2 < p.1 := by
    intro p hp
    obtain ⟨-, path, hslot⟩ := h.mem_moves_iff.mp hp
    obtain ⟨slot, hslot⟩ := Slots.mem_iff_exists.mp (hopen _ (mem_fds_of_getElem? hslot rfl))
    exact ⟨Slots.mem_iff_exists.mpr ⟨slot, hcopies.kept _ _ hslot⟩, hhigh p hp⟩
  have hmoveTargets : ∀ p ∈ t.moves, 2 < p.2 ∧ p.2 < Slots.firstScratch := fun p hp =>
    ⟨(h.range_of_mem_moves hp).1, h.target_lt p.2 (List.mem_map_of_mem hp)⟩
  obtain ⟨hplaced, hinherited⟩ := Slots.getElem?_childSlots hcopies.above hlowTargets
    (hcopies.targets ▸ nodup_streams t) h.length_moves_le_max hmoves hmoveTargets
    (nodup_targets_moves t) hchild
  obtain ⟨hleast, -, hfile⟩ := h fd d hslot
  by_cases hlow : fd ≤ 2
  · cases hfd : d.fd? with
    | none =>
        have hnot : fd ∉ copies.map Prod.snd := by
          intro hmem
          obtain ⟨source, hstream⟩ := htargets fd hmem
          obtain ⟨d', hslot', -, hfd'⟩ := mem_streams_iff.mp hstream
          obtain rfl := Option.some.inj (hslot.symm.trans hslot')
          rw [hfd] at hfd'
          cases hfd'
        obtain ⟨file, hown⟩ := hstreams fd hleast hlow
        refine ⟨_, hown, ?_⟩
        rw [hinherited fd hlow hnot, hcopies.kept _ _ hown]
    | some source =>
        obtain ⟨copy, slot, hcopy, hslot, hcopySlot⟩ :=
          hcopies.file source fd (mem_streams_iff.mpr ⟨d, hslot, hlow, hfd⟩)
        obtain ⟨slot', hslot', hplace⟩ := hplaced _ (List.mem_append_left _ hcopy)
        obtain rfl := Option.some.inj (hcopySlot.symm.trans hslot')
        exact ⟨slot, hslot, hplace⟩
  · obtain ⟨path, source, rfl⟩ := hfile (Int.not_le.mp hlow)
    have hmove := h.mem_moves_iff.mpr ⟨Int.not_le.mp hlow, path, hslot⟩
    obtain ⟨slot, hslot⟩ := hsource rfl
    obtain ⟨slot', hslot', hplace⟩ := hplaced _ (List.mem_append_right _ hmove)
    obtain rfl := Option.some.inj ((hcopies.kept _ _ hslot).symm.trans hslot')
    exact ⟨slot, hslot, hplace⟩

end DescriptorTable.Sound

namespace Host

variable {h h' : Host} {directory : NodeId} {stdin stdout : Descriptor}
  {redirections : List Redirection} {t : DescriptorTable}

theorem opened_of_buildTable
    (hok : h.buildTable directory stdin stdout redirections = (.ok t, h')) :
    ∃ opened, h.Opened directory opened h' ∧ opened.map OpenedFile.redirection = redirections
      ∧ t = (DescriptorTable.standard stdin stdout).redirectEach opened := by
  obtain ⟨opened, failed, h₁, happlied, hresult⟩ := applied_of_buildTable hok
  cases happlied with
  | upTo => cases hresult.1
  | all hopened hall =>
      obtain ⟨ht, rfl⟩ := hresult
      exact ⟨opened, hopened, hall, Except.ok.inj ht⟩

theorem sound_of_buildTable
    (hok : h.buildTable directory stdin stdout redirections = (.ok t, h')) : t.Sound := by
  intro fd d hslot
  obtain ⟨opened, hopened, -, rfl⟩ := opened_of_buildTable hok
  rcases DescriptorTable.of_getElem?_redirectEach hslot with hstandard | ⟨o, ho, rfl, rfl⟩
  · obtain ⟨hleast, hmost⟩ := DescriptorTable.range_of_standard hstandard
    exact ⟨hleast, Int.le_trans hmost (by decide), fun h => absurd h (Int.not_lt.mpr hmost)⟩
  · obtain ⟨hleast, hmost⟩ := DescriptorTable.isRedirectable_iff.mp (hopened.redirectable o ho)
    exact ⟨hleast, hmost, fun _ => ⟨o.redirection.path, o.fd, rfl⟩⟩

/-- What a shell opens that has its streams is above them. -/
theorem source_gt_of_buildTable
    (hok : h.buildTable directory stdin stdout redirections = (.ok t, h'))
    (hstreams : ∀ fd : Fd, 0 ≤ fd → fd ≤ 2 → fd ∈ h.shell.slots) : ∀ m ∈ t.moves, 2 < m.1 := by
  rintro ⟨source, target⟩ hmem
  obtain ⟨hlow, path, hslot⟩ := (sound_of_buildTable hok).mem_moves_iff.mp hmem
  obtain ⟨opened, hopened, -, rfl⟩ := opened_of_buildTable hok
  rcases DescriptorTable.of_getElem?_redirectEach hslot with hstandard | ⟨o, ho, -, hd⟩
  · exact absurd hlow (Int.not_lt.mpr (DescriptorTable.range_of_standard hstandard).2)
  · obtain ⟨-, rfl⟩ := Descriptor.file.inj hd
    obtain ⟨hfree, hmem⟩ := hopened.fresh.1 o ho
    obtain ⟨slot, hslot⟩ := Slots.mem_iff_exists.mp hmem
    have hnonneg := (hopened.extends_.slots.added o.fd slot
      (Slots.getElem?_eq_none_of_not_mem hfree) hslot).1
    exact Int.not_le.mp fun hle => hfree (hstreams o.fd hnonneg hle)

/-- **Processes find what their table says.** -/
theorem installed_of_buildTable
    (hok : h.buildTable directory stdin stdout redirections = (.ok t, h')) :
    t.Installed ∧ ((∀ fd : Fd, 0 ≤ fd → fd ≤ 2 → fd ∈ h.shell.slots) → ∀ m ∈ t.moves, 2 < m.1) := by
  have hsound := sound_of_buildTable hok
  refine ⟨?_, source_gt_of_buildTable hok⟩
  exact
    { targets := hsound.targets_moves
      ascending := by
        rw [hsound.targets_moves]
        exact (Std.TreeMap.ordered_keys.imp fun hlt => Std.compare_eq_lt.mp hlt).filter _
      moves := fun source target => hsound.mem_moves_iff
      length := hsound.length_moves_le
      moved := fun pairs slots slots' limit htargets hopen hremap =>
        hsound.moved_of_remap htargets hopen hremap
      child := fun g g' directory r pid p htable hopen hhigh hstreams hstart hp halive fd d
          hslot => by
        subst htable
        obtain ⟨copies, opened, reportFds, connected, slots, hcopies, hreport, hchild, hslots⟩ :=
          slots_of_start hstart hp halive
        have hcopied := DescriptorTable.copies_of_start hopen hcopies hreport
        obtain ⟨slot, hsource, hchild⟩ :=
          hsound.getElem?_child hopen hhigh hstreams hcopied hchild hslot
        exact ⟨slot, hsource, hslots ▸ Slots.getElem?_afterExec hchild⟩ }

/-- Output goes to a new file, and another file is put behind a number above
the streams. -/
def twoRedirections : List Redirection := [⟨1, .output, [98]⟩, ⟨4, .input, [97]⟩]

theorem installed_twoRedirections : ∃ t h',
    small.buildTable Tree.root .inherit .inherit twoRedirections = (.ok t, h')
      ∧ t.moves.map Prod.snd = [4] ∧ t.Installed ∧ ∀ m ∈ t.moves, 2 < m.1 := by
  have hmoves : (small.buildTable Tree.root .inherit .inherit twoRedirections).1.toOption.map
      (fun t => t.moves.map Prod.snd) = some [4] := by cbv
  obtain ⟨t, ht, hmoves⟩ := Option.map_eq_some_iff.mp hmoves
  have hok : small.buildTable Tree.root .inherit .inherit twoRedirections
      = (.ok t, (small.buildTable Tree.root .inherit .inherit twoRedirections).2) :=
    Prod.ext (Except.eq_ok_of_toOption ht) rfl
  obtain ⟨hinstalled, hhigh⟩ := installed_of_buildTable hok
  refine ⟨t, _, hok, hmoves, hinstalled, hhigh fun fd hleast hmost => ?_⟩
  have hthree : ∀ n : Int, 0 ≤ n → n ≤ 2 → n = 0 ∨ n = 1 ∨ n = 2 := by omega
  rcases hthree fd hleast hmost with rfl | rfl | rfl <;> decide

end Host

end JobShell
