import JobShell.Proofs.Displacement
import JobShell.Proofs.Failing
import JobShell.Proofs.Installation
import JobShell.Proofs.Numbering

/-!
# Whether a failure to execute is reported

A process that can not execute its command tells the shell so over a
connection. Its end of it has the lowest number but one that was free when the
connection was opened, and nothing keeps a redirection from naming that
number: then the file of the redirection is put in its place, the report is
written there, and the shell takes the process for started. That is the one
way in which a report can be missed (`reports_iff`).

What setting up the descriptors does to the end of the connection is said by
`Slots.Puts`, which holds of each of its steps: the numbers that are targets
get files of the table, and every other number in use keeps what it has.
-/

namespace JobShell

open Machine (NodeId Slots Slot Pid FileId Process World Tree Image Endpoint OpenFile OpenMode)

/-- The file is an end of a connection for a report. -/
def Machine.World.IsReport (w : World) (file : FileId) : Prop :=
  (w.file? file).map OpenFile.endpoint = some .report

theorem Machine.World.isReport_addFile (w : World) (mode : OpenMode) :
    (w.addFile { endpoint := .report, mode }).2.IsReport
      (w.addFile { endpoint := .report, mode }).1 :=
  congrArg (Option.map OpenFile.endpoint) (file?_addFile ..)

namespace Machine.Slots

variable {s s' s'' : Slots} {limit : Nat} {wanted : FileId → Prop} {targets more : List Fd}
  {fd source target : Fd}

/-- There is such a file behind the number. -/
def Has (s : Slots) (wanted : FileId → Prop) (fd : Fd) : Prop :=
  ∃ slot, s[fd]? = some slot ∧ wanted slot.file

/-- The targets have such files now, and the other numbers that were in use
what they had. -/
structure Puts (wanted : FileId → Prop) (targets : List Fd) (s s' : Slots) : Prop where
  target : ∀ fd ∈ targets, s'.Has wanted fd
  kept : ∀ fd ∈ s, fd ∉ targets → s'[fd]? = s[fd]?

namespace Puts

theorem has (h : Puts wanted targets s s') (hfd : s.Has wanted fd) : s'.Has wanted fd := by
  by_cases hmem : fd ∈ targets
  · exact h.target fd hmem
  · obtain ⟨slot, hslot, hwanted⟩ := hfd
    exact ⟨slot, (h.kept fd (mem_iff_exists.mpr ⟨slot, hslot⟩) hmem).trans hslot, hwanted⟩

theorem trans (h : Puts wanted targets s s') (h' : Puts wanted more s' s'') :
    Puts wanted (targets ++ more) s s'' where
  target fd hfd := by
    rcases List.mem_append.mp hfd with hfd | hfd
    · exact h'.has (h.target fd hfd)
    · exact h'.target fd hfd
  kept fd hfd hnot := by
    rw [List.mem_append, not_or] at hnot
    have hsame := h.kept fd hfd hnot.1
    have hfd' : fd ∈ s' := by
      rw [mem_iff_exists] at hfd ⊢
      rwa [hsame]
    rw [h'.kept fd hfd' hnot.2, hsame]

end Puts

theorem puts_of_grows {least : Fd} (h : Grows least s s') : Puts wanted [] s s' where
  target _ hfd := (List.not_mem_nil hfd).elim
  kept _ hfd _ := h.getElem?_of_mem hfd

theorem puts_of_duplicateOnto (hsource : s.Has wanted source)
    (hok : s.duplicateOnto limit source target = .ok s') : Puts wanted [target] s s' := by
  by_cases heq : source = target
  · subst heq
    obtain ⟨slot, hslot, hwanted⟩ := hsource
    unfold duplicateOnto at hok
    rw [hslot] at hok
    dsimp only at hok
    split at hok
    · cases hok
    rw [if_pos rfl] at hok
    obtain rfl := Except.ok.inj hok
    exact ⟨fun fd hfd => List.mem_singleton.mp hfd ▸ ⟨slot, hslot, hwanted⟩, fun _ _ _ => rfl⟩
  · obtain ⟨slot, hslot, rfl⟩ := eq_insert_of_duplicateOnto heq hok
    obtain ⟨slot', hslot', hwanted⟩ := hsource
    obtain rfl := Option.some.inj (hslot.symm.trans hslot')
    constructor
    · intro fd hfd
      obtain rfl := List.mem_singleton.mp hfd
      exact ⟨⟨slot.file, false⟩, by rw [getElem?_insert_key, if_pos rfl], hwanted⟩
    · intro fd _ hnot
      rw [getElem?_insert_key, if_neg (mt List.mem_singleton.mpr hnot)]

theorem puts_of_place {pairs : List (Fd × Fd)} (hsources : ∀ p ∈ pairs, s.Has wanted p.1)
    (hok : s.place limit pairs = (none, s')) : Puts wanted (pairs.map Prod.snd) s s' := by
  induction pairs generalizing s with
  | nil =>
      obtain rfl := (Prod.mk.inj hok).2
      exact puts_of_grows (.refl 0 s)
  | cons pair rest ih =>
      obtain ⟨source, target⟩ := pair
      rw [List.forall_mem_cons] at hsources
      unfold place at hok
      split at hok
      · cases hok
      rename_i s₁ honto
      have hfirst := puts_of_duplicateOnto hsources.1 honto
      exact hfirst.trans (ih (fun p hp => hfirst.has (hsources.2 p hp)) hok)

theorem puts_of_remap {pairs : List (Fd × Fd)} (hlength : pairs.length ≤ maxMoves)
    (hsources : ∀ p ∈ pairs, s.Has wanted p.1) (hok : s.remap limit pairs = (none, s')) :
    Puts wanted (pairs.map Prod.snd) s s' := by
  unfold remap at hok
  rw [List.take_of_length_le hlength] at hok
  dsimp only at hok
  split at hok
  · cases hok
  rename_i scratches s₁ hstash
  have hopen : ∀ source ∈ pairs.map Prod.fst, source ∈ s := by
    intro source hsource
    obtain ⟨p, hp, rfl⟩ := List.mem_map.mp hsource
    obtain ⟨slot, hslot, -⟩ := hsources p hp
    exact mem_iff_exists.mpr ⟨slot, hslot⟩
  obtain ⟨hgrows, hcopies⟩ := copied_of_stash hopen hstash
  have htargets : (scratches.zip (pairs.map Prod.snd)).map Prod.snd = pairs.map Prod.snd := by
    refine List.map_snd_zip (Nat.le_of_eq ?_)
    rw [← hcopies.length_eq, List.length_map, List.length_map]
  rw [← htargets]
  refine (puts_of_grows hgrows).trans (puts_of_place (fun p hp => ?_) hok)
  -- A scratch duplicate has the file of its source.
  obtain ⟨i, hi, hget⟩ := List.getElem_of_mem (List.of_mem_zip hp).1
  have hi' : i < (pairs.map Prod.fst).length := hcopies.length_eq ▸ hi
  obtain ⟨slot, hslot, hcopy⟩ := (hcopies.get hi' hi).file
  obtain ⟨pair, hpair, hfst⟩ := List.mem_map.mp (List.get_mem (pairs.map Prod.fst) ⟨i, hi'⟩)
  obtain ⟨slot', hslot', hwanted⟩ := hsources pair hpair
  rw [hfst] at hslot'
  obtain rfl := Option.some.inj (hslot.symm.trans hslot')
  rw [List.get_eq_getElem, hget] at hcopy
  exact ⟨_, hcopy, hwanted⟩

theorem puts_of_childSlots {streams moves : List (Fd × Fd)} (hlength : moves.length ≤ maxMoves)
    (hstreams : ∀ p ∈ streams, s.Has wanted p.1) (hmoves : ∀ p ∈ moves, s.Has wanted p.1)
    (hok : Host.childSlots s limit streams moves = (none, s')) :
    Puts wanted (streams.map Prod.snd ++ moves.map Prod.snd) s s' := by
  unfold Host.childSlots at hok
  split at hok
  · cases hok
  rename_i s₁ hplace
  have hplaced := puts_of_place hstreams hplace
  exact hplaced.trans (puts_of_remap hlength (fun p hp => hplaced.has (hmoves p hp)) hok)

end Machine.Slots

/-! ## The numbers of a table -/

namespace DescriptorTable

variable {t : DescriptorTable} {fd : Fd}

/-- The table has something behind the number that is not the shell's own
stream. -/
def Replaces (t : DescriptorTable) (fd : Fd) : Prop :=
  ∃ d source, t.slots[fd]? = some d ∧ d.fd? = some source

theorem replaces_iff :
    t.Replaces fd ↔ fd ∈ t.streams.map Prod.snd ++ t.moves.map Prod.snd := by
  rw [List.mem_append, streams_eq, moves_eq]
  constructor
  · rintro ⟨d, source, hslot, hfd⟩
    by_cases hlow : fd ≤ 2
    · exact Or.inl (List.mem_map.mpr ⟨(source, fd), mem_sources_iff.mpr ⟨d, hslot, hlow, hfd⟩, rfl⟩)
    · exact Or.inr (List.mem_map.mpr ⟨(source, fd), mem_sources_iff.mpr ⟨d, hslot, hlow, hfd⟩, rfl⟩)
  · rintro (hmem | hmem)
    all_goals
      obtain ⟨⟨source, target⟩, hp, rfl⟩ := List.mem_map.mp hmem
      obtain ⟨d, hslot, -, hfd⟩ := mem_sources_iff.mp hp
      exact ⟨d, source, hslot, hfd⟩

theorem mem_fds_of_mem {p : Fd × Fd} (hp : p ∈ t.streams ++ t.moves) : p.1 ∈ t.fds := by
  obtain ⟨source, target⟩ := p
  rw [List.mem_append, streams_eq, moves_eq] at hp
  rcases hp with hp | hp
  all_goals
    obtain ⟨d, hslot, -, hfd⟩ := mem_sources_iff.mp hp
    exact mem_fds_of_getElem? hslot hfd

/-- The descriptors of the table are open in the shell, and none of them is an
end of a connection for a report: such a connection is closed again before
anything else is opened. -/
def IsOpenIn (t : DescriptorTable) (h : Host) : Prop :=
  ∀ fd ∈ t.fds, ∃ e, h.endpoint? fd = some e ∧ e ≠ .report

end DescriptorTable

/-- Above the streams it is the redirections that replace numbers. -/
theorem Host.replaces_iff_of_buildTable {g g' : Host} {directory : NodeId}
    {stdin stdout : Descriptor} {redirections : List Redirection} {t : DescriptorTable} {fd : Fd}
    (hok : g.buildTable directory stdin stdout redirections = (.ok t, g')) (hfd : 2 < fd) :
    t.Replaces fd ↔ ∃ redirection ∈ redirections, redirection.fd = fd := by
  have hsound := sound_of_buildTable hok
  obtain ⟨opened, -, hall, rfl⟩ := opened_of_buildTable hok
  have hnamed : fd ∈ ((DescriptorTable.standard stdin stdout).redirectEach opened).slots
      ↔ ∃ redirection ∈ redirections, redirection.fd = fd := by
    rw [DescriptorTable.mem_slots_redirectEach_iff, ← hall]
    have hlow : ¬(fd = 0 ∨ fd = 1 ∨ fd = 2) := by
      rintro (rfl | rfl | rfl) <;> exact absurd hfd (by decide)
    rw [or_iff_right hlow]
    simp only [List.mem_map, exists_exists_and_eq_and]
  rw [← hnamed, Std.TreeMap.mem_iff_isSome_getElem?, Option.isSome_iff_exists]
  constructor
  · rintro ⟨d, source, hslot, -⟩
    exact ⟨d, hslot⟩
  · rintro ⟨d, hslot⟩
    obtain ⟨path, source, rfl⟩ := (hsound fd d hslot).2.2 hfd
    exact ⟨_, source, hslot, rfl⟩

namespace Supervisor

variable {s : Supervisor} {directory : NodeId} {environment : Environment} {e : Execution}
  {next : StageRun} {count : Nat}

theorem startStages_succ (hnext : e.next? = some next) :
    s.startStages directory environment e (count + 1)
      = match s.host.start directory (s.wanted environment e next.prepared) with
        | (.ok pid, host) =>
          ({ s with host }.apply e (.started pid)).2.startStages directory environment
            ({ s with host }.apply e (.started pid)).1 count
        | (.error cause, host) =>
          { s with host }.apply e (.failedToStart (.spawn next.prepared.path cause)) := by
  rw [startStages, hnext]
  rfl

end Supervisor

namespace Host

variable {h h' : Host} {directory : NodeId} {r : StartRequest} {cause : OsError}
  {own reportFd : Fd}

/-! ## The connection -/

theorem eq_of_duplicateStreams {streams copies : List (Fd × Fd)}
    (hok : h.duplicateStreams streams = .ok (copies, h')) :
    h' = { h with shell := { h.shell with slots := h'.shell.slots } } := by
  induction streams generalizing h copies with
  | nil =>
      obtain ⟨-, rfl⟩ := Prod.mk.inj (Except.ok.inj hok)
      rfl
  | cons stream rest ih =>
      obtain ⟨⟨copy, h₁⟩, hduplicate, hok⟩ := Except.bind_eq_ok_iff.mp hok
      obtain ⟨⟨others, h₂⟩, hothers, hok⟩ := Except.bind_eq_ok_iff.mp hok
      obtain ⟨-, rfl⟩ := Prod.mk.inj (Except.ok.inj hok)
      obtain ⟨slots, -, rfl⟩ := duplicate_eq_ok hduplicate
      have hrest := ih hothers
      exact hrest

/-- The copies of the streams take the numbers that are free first. -/
theorem takes_duplicateStreams {streams copies : List (Fd × Fd)} {s : Slots} {k : Nat}
    (hlow : ∀ n : Fd, 0 ≤ n → n < 3 → n ∈ s) (htakes : s.Takes h.shell.slots k)
    (hok : h.duplicateStreams streams = .ok (copies, h')) :
    s.Takes h'.shell.slots (k + streams.length) := by
  induction streams generalizing h copies k with
  | nil =>
      obtain ⟨-, rfl⟩ := Prod.mk.inj (Except.ok.inj hok)
      exact htakes
  | cons stream rest ih =>
      obtain ⟨⟨copy, h₁⟩, hduplicate, hok⟩ := Except.bind_eq_ok_iff.mp hok
      obtain ⟨⟨others, h₂⟩, hothers, hok⟩ := Except.bind_eq_ok_iff.mp hok
      obtain ⟨-, rfl⟩ := Prod.mk.inj (Except.ok.inj hok)
      obtain ⟨slots, hslots, rfl⟩ := duplicate_eq_ok hduplicate
      unfold Slots.duplicate at hslots
      split at hslots
      · cases hslots
      have hrest := ih (htakes.allocate (by decide) hlow hslots).2 hothers
      rwa [List.length_cons, Nat.add_comm rest.length, ← Nat.add_assoc]

/-- The connection was opened, with the end of the process at `reportFd`. What
was open before is still there when the shell's own end is closed again, as it
is in the process. -/
structure Connects (h : Host) (own reportFd : Fd) (h' : Host) : Prop where
  world : h'.world
    = (h.world.addFile { endpoint := .report, mode := { writes := true } }).2
  free : reportFd ∉ h.shell.slots
  kept : ∀ fd ∈ h.shell.slots, (h'.shell.slots.erase own)[fd]? = h.shell.slots[fd]?
  report : Slots.Has (h'.shell.slots.erase own) h'.world.IsReport reportFd
  numbers : ∀ s : Slots, ∀ k, s.Takes h.shell.slots k → s.IsFreeAt (k + 1) reportFd

theorem connects_of_openReport (hok : h.openReport = .ok ((own, reportFd), h')) :
    h.Connects own reportFd h' := by
  unfold openReport at hok
  dsimp only at hok
  obtain ⟨⟨first, slots⟩, hfirst, hok⟩ := Except.bind_eq_ok_iff.mp hok
  obtain ⟨⟨second, slots'⟩, hsecond, hok⟩ := Except.bind_eq_ok_iff.mp hok
  obtain ⟨hfds, rfl⟩ := Prod.mk.inj (Except.ok.inj hok)
  obtain ⟨rfl, rfl⟩ := Prod.mk.inj hfds
  have hgrows := (Slots.grows_of_allocate hfirst).trans (Slots.grows_of_allocate hsecond)
  have hfree := (Slots.eq_insert_of_allocate hfirst).1
  obtain ⟨hfree', -, heq⟩ := Slots.eq_insert_of_allocate hsecond
  have hmem : first ∈ slots := Slots.mem_iff_exists.mpr ⟨_, Slots.getElem?_of_allocate hfirst⟩
  have hne : second ≠ first := by
    rintro rfl
    exact hfree' hmem
  exact
    { world := rfl
      free := fun hmem => hfree' ((Slots.grows_of_allocate hfirst).mem hmem)
      kept := fun fd hfd => by
        rw [getElem?_erase_key, if_neg, hgrows.getElem?_of_mem hfd]
        rintro rfl
        exact hfree hfd
      report := by
        rw [Slots.Has, getElem?_erase_key, if_neg hne]
        exact ⟨_, Slots.getElem?_of_allocate hsecond, World.isReport_addFile ..⟩
      numbers := fun s k htakes => by
        have hnone : ∀ n : Fd, 0 ≤ n → n < 0 → n ∈ s := fun n hnonneg hlt =>
          absurd hlt (Int.not_lt.mpr hnonneg)
        have htakes' := (htakes.allocate (Int.le_refl 0) hnone hfirst).2
        exact (htakes'.allocate (Int.le_refl 0) hnone hsecond).1 }

/-! ## The report -/

/-- The shell when the process has taken the terminal, if it does. -/
def handedOver (h : Host) (r : StartRequest) : Host :=
  if r.takesTerminal then
    { h with shell := { h.shell with foreground := some (r.group.getD h.world.nextPid) } }
  else h

/-- The process that is split off, with its descriptors set up. -/
def newcomer (h : Host) (directory : NodeId) (r : StartRequest) (slots : Slots) : Process where
  parent := h.shell.pid
  group := r.group.getD h.world.nextPid
  name := []
  slots := slots
  slotLimit := h.slotLimit
  directory := directory
  ignored := h.childIgnored
  activity := .running (.exit 1) none

/-- What it comes to when that process executes its command. -/
def execution (h : Host) (directory : NodeId) (r : StartRequest) (slots : Slots) :
    Except OsError Image :=
  let pid := h.world.nextPid
  let t := (h.world.setProcess pid (h.newcomer directory r slots)).seenBy h.shell pid directory
  h.world.executeCommand t directory r.path r.arguments r.environment

theorem handedOver_eq (h : Host) (r : StartRequest) :
    h.handedOver r = { h with
      shell := { h.shell with foreground := (h.handedOver r).shell.foreground } } := by
  unfold handedOver
  split <;> rfl

/-- Everything is set up for the command, with the end of the connection at
`reportFd` when the process is split off, and the command can not be
executed. -/
inductive Fails (h : Host) (directory : NodeId) (r : StartRequest) (reportFd : Fd)
    (cause : OsError) : Prop
  | intro {copies : List (Fd × Fd)} {opened connected : Host} {own : Fd} {slots : Slots}
      (hcopies : h.duplicateStreams r.table.streams = .ok (copies, opened))
      (hnul : r.hasNul = false)
      (hreport : opened.openReport = .ok ((own, reportFd), connected))
      (hchild : childSlots (connected.shell.slots.erase own) connected.slotLimit copies
        r.table.moves = (none, slots))
      (hexecution : (connected.handedOver r).execution directory r slots = .error cause)

theorem split_of_execution {copies : List (Fd × Fd)} {slots : Slots}
    (hchild : childSlots (h.shell.slots.erase own) h.slotLimit copies r.table.moves
      = (none, slots))
    (hexecution : (h.handedOver r).execution directory r slots = .error cause) :
    h.split directory r copies (own, reportFd)
      = (h.handedOver r).reportFailure ((h.handedOver r).newcomer directory r slots) reportFd
          cause := by
  unfold split
  dsimp only
  generalize hterminal : (if r.takesTerminal = true then
    { h with shell := { h.shell with foreground := some (r.group.getD h.world.nextPid) } }
    else h) = g
  obtain rfl : g = h.handedOver r := hterminal.symm
  have hslots : (h.handedOver r).shell.slots = h.shell.slots := by rw [handedOver_eq]
  have hlimit : (h.handedOver r).slotLimit = h.slotLimit := by rw [handedOver_eq]
  have hnext : (h.handedOver r).world.nextPid = h.world.nextPid := by rw [handedOver_eq]
  rw [hslots, hlimit, hchild]
  simp only [execution, newcomer, hnext, hlimit] at hexecution ⊢
  rw [hexecution]

/-- The end of the connection is still there: nobody but the shell learns of
the process. -/
theorem reportFailure_of_has {p : Process} (hhas : p.slots.Has h.world.IsReport reportFd) :
    h.reportFailure p reportFd cause
      = (.error cause, { h with world := { h.world with nextPid := h.world.nextPid + 1 } }) := by
  obtain ⟨slot, hslot, hreport⟩ := hhas
  have hreport : (h.world.file? slot.file).map OpenFile.endpoint = some .report := hreport
  unfold reportFailure
  simp only [hslot, Option.bind_some, hreport]

theorem reportFailure_of_not_has {p : Process} (cause : OsError)
    (hhas : p.slots.Has (fun file => ¬h.world.IsReport file) reportFd) :
    ∃ after, h.reportFailure p reportFd cause = (.ok h.world.nextPid, after) := by
  obtain ⟨slot, hslot, hreport⟩ := hhas
  unfold reportFailure
  dsimp only
  split
  · rename_i hend
    rw [hslot] at hend
    exact (hreport hend).elim
  · split
    · exact ⟨_, rfl⟩
    · exact ⟨_, rfl⟩

/-! ## Setting up the descriptors -/

/-- A descriptor of the table has a file behind it that is no end of a
connection, also when more files were opened. -/
theorem has_of_isOpenIn {t : DescriptorTable} {w : World} {fd : Fd} (hopen : t.IsOpenIn h)
    (hfd : fd ∈ t.fds) (hkeeps : h.world.Keeps w) :
    h.shell.slots.Has (fun file => ¬w.IsReport file) fd := by
  obtain ⟨e, he, hne⟩ := hopen fd hfd
  obtain ⟨slot, hslot, hfile⟩ := Option.bind_eq_some_iff.mp he
  refine ⟨slot, hslot, fun hreport => hne ?_⟩
  exact Option.some.inj ((hkeeps.endpoint slot.file e hfile).symm.trans hreport)

theorem mem_of_isOpenIn {t : DescriptorTable} (hopen : t.IsOpenIn h) :
    ∀ p ∈ t.streams, p.1 ∈ h.shell.slots := by
  intro p hp
  obtain ⟨e, he, -⟩ := hopen _ (DescriptorTable.mem_fds_of_mem (List.mem_append_left _ hp))
  exact mem_of_endpoint? he

/-- Nothing but the files of the table is put at the numbers that it replaces. -/
theorem puts_of_connects {t : DescriptorTable} {opened connected : Host}
    {copies : List (Fd × Fd)} {slots : Slots} (hsound : t.Sound) (hopen : t.IsOpenIn h)
    (hcopies : h.duplicateStreams t.streams = .ok (copies, opened))
    (hconnects : opened.Connects own reportFd connected)
    (hchild : childSlots (connected.shell.slots.erase own) connected.slotLimit copies t.moves
      = (none, slots)) :
    Slots.Puts (fun file => ¬connected.world.IsReport file)
      (t.streams.map Prod.snd ++ t.moves.map Prod.snd) (connected.shell.slots.erase own)
      slots := by
  have hworld : opened.world = h.world := by rw [eq_of_duplicateStreams hcopies]
  have hkeeps : h.world.Keeps connected.world := by
    rw [hconnects.world, hworld]
    exact World.keeps_addFile ..
  have hsources : ∀ p ∈ t.streams ++ t.moves,
      h.shell.slots.Has (fun file => ¬connected.world.IsReport file) p.1 := fun p hp =>
    has_of_isOpenIn hopen (DescriptorTable.mem_fds_of_mem hp) hkeeps
  obtain ⟨hgrows, hcopied⟩ := copied_of_duplicateStreams (mem_of_isOpenIn hopen) hcopies
  have htargets : copies.map Prod.snd = t.streams.map Prod.snd := by
    refine List.ext_getElem (by simpa using hcopied.length_eq.symm) fun i hi hi' => ?_
    rw [List.length_map] at hi hi'
    rw [List.getElem_map, List.getElem_map]
    exact (hcopied.get hi' hi).1
  have hkept : ∀ {fd : Fd} {slot : Slot}, opened.shell.slots[fd]? = some slot →
      (connected.shell.slots.erase own)[fd]? = some slot := fun {fd slot} hslot =>
    (hconnects.kept fd (Slots.mem_iff_exists.mpr ⟨slot, hslot⟩)).trans hslot
  rw [← htargets]
  refine Slots.puts_of_childSlots hsound.length_moves_le_max (fun p hp => ?_) (fun p hp => ?_)
    hchild
  · obtain ⟨i, hi, rfl⟩ := List.getElem_of_mem hp
    have hi' : i < t.streams.length := hcopied.length_eq ▸ hi
    obtain ⟨slot, hslot, hcopy⟩ := (hcopied.get hi' hi).2.file
    obtain ⟨slot', hslot', hnot⟩ :=
      hsources _ (List.mem_append_left _ (List.get_mem t.streams ⟨i, hi'⟩))
    obtain rfl := Option.some.inj (hslot.symm.trans hslot')
    exact ⟨_, hkept hcopy, hnot⟩
  · obtain ⟨slot, hslot, hnot⟩ := hsources p (List.mem_append_right _ hp)
    exact ⟨slot, hkept (hgrows.kept _ _ hslot), hnot⟩

/-! ## What the shell learns -/

/-- The shell learns of the failure, and nothing else has happened: no byte is
in any file or pipe that was not there, and no process is left. -/
structure Reports (h : Host) (directory : NodeId) (r : StartRequest) (cause : OsError) : Prop where
  answer : (h.start directory r).1 = .error cause
  tree : (h.start directory r).2.world.tree = h.world.tree
  pipes : (h.start directory r).2.world.pipes = h.world.pipes
  processes : (h.start directory r).2.world.processes = h.world.processes
  /-- The job that wanted the stage started takes it for one that was not. -/
  stages : ∀ (s : Supervisor) (environment : Environment) (e : Execution) (next : StageRun)
    (count : Nat), s.host = h → e.next? = some next → s.wanted environment e next.prepared = r →
    s.startStages directory environment e (count + 1)
      = { s with host := (h.start directory r).2 }.apply e
          (.failedToStart (.spawn r.path cause))

/-- The shell takes the process for started. -/
structure Misses (h : Host) (directory : NodeId) (r : StartRequest) : Prop where
  answer : (h.start directory r).1 = .ok h.world.nextPid
  dead : (h.start directory r).2.world.isAlive h.world.nextPid = false
  stages : ∀ (s : Supervisor) (environment : Environment) (e : Execution) (next : StageRun)
    (count : Nat), s.host = h → e.next? = some next → s.wanted environment e next.prepared = r →
    s.startStages directory environment e (count + 1)
      = ({ s with host := (h.start directory r).2 }.apply e (.started h.world.nextPid)).2.startStages
          directory environment
          ({ s with host := (h.start directory r).2 }.apply e (.started h.world.nextPid)).1 count

theorem Misses.not_reports (h' : h.Misses directory r) : ¬h.Reports directory r cause := by
  intro hreports
  have hanswer := hreports.answer
  rw [h'.answer] at hanswer
  cases hanswer

theorem start_of_split {copies : List (Fd × Fd)} {opened connected after : Host}
    {result : Except OsError Pid} (hcopies : h.duplicateStreams r.table.streams = .ok (copies, opened))
    (hnul : r.hasNul = false) (hreport : opened.openReport = .ok ((own, reportFd), connected))
    (hsplit : connected.split directory r copies (own, reportFd) = (result, after)) :
    h.start directory r = (result, after.closeAll ([own, reportFd] ++ copies.map (·.1))) := by
  rw [start, hcopies]
  simp only [hnul, hreport, hsplit]
  rfl

theorem reports_of_not_replaces (hsound : r.table.Sound) (hopen : r.table.IsOpenIn h)
    (hfails : h.Fails directory r reportFd cause) (hnot : ¬r.table.Replaces reportFd) :
    h.Reports directory r cause := by
  obtain ⟨hcopies, hnul, hreport, hchild, hexecution⟩ := hfails
  rename_i copies opened connected own slots
  have hconnects := connects_of_openReport hreport
  have hputs := puts_of_connects hsound hopen hcopies hconnects hchild
  rw [DescriptorTable.replaces_iff] at hnot
  have hhas : slots.Has (connected.handedOver r).world.IsReport reportFd := by
    obtain ⟨slot, hslot, hend⟩ := hconnects.report
    have hmem : reportFd ∈ connected.shell.slots.erase own := Slots.mem_iff_exists.mpr ⟨slot, hslot⟩
    refine ⟨slot, (hputs.kept reportFd hmem hnot).trans hslot, ?_⟩
    rwa [handedOver_eq]
  have hsplit := (split_of_execution hchild hexecution).trans (reportFailure_of_has hhas)
  have hstart := start_of_split hcopies hnul hreport hsplit
  have hworld : (h.start directory r).2.world
      = { (h.world.addFile { endpoint := .report, mode := { writes := true } }).2 with
          nextPid := h.world.nextPid + 1 } := by
    rw [hstart, world_closeAll, handedOver_eq, hconnects.world, eq_of_duplicateStreams hcopies]
    rfl
  exact
    { answer := by rw [hstart]
      tree := by rw [hworld]; rfl
      pipes := by rw [hworld]; rfl
      processes := by rw [hworld]; rfl
      stages := by
        rintro s environment e next count rfl hnext rfl
        rw [Supervisor.startStages_succ hnext, hstart]
        rfl }

theorem misses_of_replaces (hsound : r.table.Sound) (hopen : r.table.IsOpenIn h)
    (hfails : h.Fails directory r reportFd cause) (hreplaces : r.table.Replaces reportFd) :
    h.Misses directory r := by
  obtain ⟨hcopies, hnul, hreport, hchild, hexecution⟩ := hfails
  rename_i copies opened connected own slots
  have hconnects := connects_of_openReport hreport
  have hputs := puts_of_connects hsound hopen hcopies hconnects hchild
  rw [DescriptorTable.replaces_iff] at hreplaces
  have hhas : slots.Has (fun file => ¬(connected.handedOver r).world.IsReport file) reportFd := by
    rw [handedOver_eq]
    exact hputs.target reportFd hreplaces
  have hpid : (connected.handedOver r).world.nextPid = h.world.nextPid := by
    rw [handedOver_eq, hconnects.world, eq_of_duplicateStreams hcopies]
    rfl
  obtain ⟨after, hafter⟩ := reportFailure_of_not_has
    (p := (connected.handedOver r).newcomer directory r slots) cause hhas
  have hsplit := (split_of_execution hchild hexecution).trans hafter
  have hstart := start_of_split hcopies hnul hreport hsplit
  have hanswer : (h.start directory r).1 = .ok h.world.nextPid := by rw [hstart, hpid]
  exact
    { answer := hanswer
      dead := by
        rw [hstart, world_closeAll, ← hpid]
        exact not_isAlive_of_reportFailure hafter
      stages := by
        rintro s environment e next count rfl hnext rfl
        have hstarted : s.host.start directory (s.wanted environment e next.prepared)
            = (.ok s.host.world.nextPid, _) := Prod.ext hanswer rfl
        rw [Supervisor.startStages_succ hnext, hstarted] }

/-- **When a failure to execute is reported.** The shell learns of it exactly if
nothing is put at the number of the process's end of the connection, and takes
the process for started otherwise. That number is one of the free ones: with
the shell's streams open, it comes behind one for each stream that is
duplicated and one for the shell's own end, and what can be put there is the
file of a redirection that names it. -/
theorem reports_iff {g g' : Host} {here : NodeId} {stdin stdout : Descriptor}
    {redirections : List Redirection}
    (hbuild : g.buildTable here stdin stdout redirections = (.ok r.table, g'))
    (hopen : r.table.IsOpenIn h) (hfails : h.Fails directory r reportFd cause) :
    (h.Reports directory r cause ↔ ¬r.table.Replaces reportFd)
      ∧ (r.table.Replaces reportFd → h.Misses directory r)
      ∧ reportFd ∉ h.shell.slots
      ∧ ((∀ fd : Fd, 0 ≤ fd → fd < 3 → fd ∈ h.shell.slots) →
        h.shell.slots.IsFreeAt (r.table.streams.length + 1) reportFd
          ∧ (r.table.Replaces reportFd ↔ ∃ redirection ∈ redirections, redirection.fd = reportFd)) := by
  have hsound := sound_of_buildTable hbuild
  have hmisses : r.table.Replaces reportFd → h.Misses directory r :=
    misses_of_replaces hsound hopen hfails
  have hiff : h.Reports directory r cause ↔ ¬r.table.Replaces reportFd :=
    ⟨fun hreports hreplaces => (hmisses hreplaces).not_reports hreports,
      reports_of_not_replaces hsound hopen hfails⟩
  obtain ⟨hcopies, -, hreport, -, -⟩ := hfails
  rename_i copies opened connected own slots
  have hconnects := connects_of_openReport hreport
  have hgrows := (copied_of_duplicateStreams (mem_of_isOpenIn hopen) hcopies).1
  have hfree : reportFd ∉ h.shell.slots := fun hmem => hconnects.free (hgrows.mem hmem)
  refine ⟨hiff, hmisses, hfree, fun hlow => ?_⟩
  have htakes := takes_duplicateStreams hlow (.refl _) hcopies
  rw [Nat.zero_add] at htakes
  have hat := hconnects.numbers _ _ htakes
  have habove : 2 < reportFd := by
    refine Int.not_le.mp fun hle => hfree (hlow reportFd hat.nonneg ?_)
    exact Int.lt_of_le_of_lt hle (by decide)
  exact ⟨hat, replaces_iff_of_buildTable hbuild habove⟩

/-! ## A number that is named and one that is not -/

/-- A start of `/n`, which is no program, with `/b` behind a number of the
process. -/
def deviceStart (fd : Fd) : StartRequest where
  path := [47, 110]
  arguments := [[47, 110]]
  environment := []
  table := (DescriptorTable.standard .inherit .inherit).redirect fd (.file [98] 3)
  group := none
  takesTerminal := false

/-- The shell when `/b` was opened for that. -/
def beforeDevice (fd : Fd) : Host :=
  (small.buildTable Tree.root .inherit .inherit [⟨fd, .output, [98]⟩]).2

/-- The shell when the connection was opened as well. -/
def connectedDevice (fd : Fd) : Host :=
  let file := (beforeDevice fd).world.files.size
  { beforeDevice fd with
    world := ((beforeDevice fd).world.addFile { endpoint := .report, mode := { writes := true } }).2
    shell := { (beforeDevice fd).shell with
      slots := ((beforeDevice fd).shell.slots.insert 4 ⟨file, true⟩).insert 5 ⟨file, true⟩ } }

/-- The process with its descriptors set up. -/
def deviceSlots (fd : Fd) : Option OsError × Slots :=
  childSlots ((connectedDevice fd).shell.slots.erase 4) (connectedDevice fd).slotLimit []
    (deviceStart fd).table.moves

/-- The number 5 is that of the process's end, and 6 is in nobody's way. -/
theorem reports_beside_end :
    small.buildTable Tree.root .inherit .inherit [⟨6, .output, [98]⟩]
        = (.ok (deviceStart 6).table, beforeDevice 6)
      ∧ (deviceStart 6).table.IsOpenIn (beforeDevice 6)
      ∧ (beforeDevice 6).Fails Tree.root (deviceStart 6) 5 .accessDenied
      ∧ (beforeDevice 6).Reports Tree.root (deviceStart 6) .accessDenied := by
  have hbuild : small.buildTable Tree.root .inherit .inherit [⟨6, .output, [98]⟩]
      = (.ok (deviceStart 6).table, beforeDevice 6) := by cbv
  have hopen : (deviceStart 6).table.IsOpenIn (beforeDevice 6) := by
    have hfds : (deviceStart 6).table.fds = [3] := by cbv
    have hend : (beforeDevice 6).endpoint? 3 = some (.node 3) := by cbv
    intro fd hfd
    rw [hfds, List.mem_singleton] at hfd
    exact ⟨.node 3, hfd ▸ hend, by simp⟩
  have hfails : (beforeDevice 6).Fails Tree.root (deviceStart 6) 5 .accessDenied := by
    have hreport : (beforeDevice 6).openReport = .ok ((4, 5), connectedDevice 6) := by cbv
    have hchild : (deviceSlots 6).1 = none := by cbv
    have hexecution : ((connectedDevice 6).handedOver (deviceStart 6)).execution Tree.root
        (deviceStart 6) (deviceSlots 6).2 = .error .accessDenied := by cbv
    exact .intro rfl rfl hreport (Prod.ext hchild rfl) hexecution
  have hfree : (deviceStart 6).table.slots[(5 : Fd)]? = none := by cbv
  refine ⟨hbuild, hopen, hfails, (reports_iff hbuild hopen hfails).1.mpr ?_⟩
  rintro ⟨d, source, hslot, -⟩
  rw [hfree] at hslot
  cases hslot

/-- Where the redirection names the number 5, the report ends up in `/b`. -/
theorem misses_at_end :
    small.buildTable Tree.root .inherit .inherit [⟨5, .output, [98]⟩]
        = (.ok (deviceStart 5).table, beforeDevice 5)
      ∧ (beforeDevice 5).Fails Tree.root (deviceStart 5) 5 .accessDenied
      ∧ ¬(beforeDevice 5).Reports Tree.root (deviceStart 5) .accessDenied
      ∧ ((beforeDevice 5).start Tree.root (deviceStart 5)).1 = .ok 2
      ∧ ((beforeDevice 5).start Tree.root (deviceStart 5)).2.world.tree.node? 3
        = some (.file (report .accessDenied) false) := by
  have hreport : (beforeDevice 5).openReport = .ok ((4, 5), connectedDevice 5) := by cbv
  have hchild : (deviceSlots 5).1 = none := by cbv
  have hexecution : ((connectedDevice 5).handedOver (deviceStart 5)).execution Tree.root
      (deviceStart 5) (deviceSlots 5).2 = .error .accessDenied := by cbv
  have hanswer : ((beforeDevice 5).start Tree.root (deviceStart 5)).1 = .ok 2 := by cbv
  refine ⟨by cbv, .intro rfl rfl hreport (Prod.ext hchild rfl) hexecution, fun hreports => ?_,
    hanswer, by cbv⟩
  have herror := hreports.answer
  rw [hanswer] at herror
  cases herror

end Host

end JobShell
