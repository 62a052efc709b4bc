import JobShell.Machine.Slots
import JobShell.Proofs.Maps
import JobShell.Proofs.Results
import Mathlib.Data.List.Nodup
import Mathlib.Data.List.Perm.Subperm

/-!
# Moving descriptors

Several files can be moved to given numbers at once even where a number that
is to be taken still belongs to a file that has to be moved itself:
`moved_of_remap` says that every target gets the file its source had before
anything was moved, and what becomes of the other numbers.

The move has two halves. Duplicating out of the way only adds numbers
(`Grows`), and because these are high, putting the duplicates into place
never overwrites one that is still needed (`getElem?_place`).
-/

namespace JobShell

namespace Machine.Slots

variable {s s' s'' : Slots} {limit : Nat}

theorem mem_iff_exists {fd : Fd} : fd ∈ s ↔ ∃ slot, s[fd]? = some slot := by
  rw [Std.TreeMap.mem_iff_isSome_getElem?, Option.isSome_iff_exists]

theorem getElem?_eq_none_of_not_mem {fd : Fd} (h : fd ∉ s) : s[fd]? = none :=
  Std.TreeMap.getElem?_eq_none h

/-! ## Free numbers -/

/-- There are more candidates than numbers in use. -/
theorem exists_free (s : Slots) (least : Fd) : ∃ i ≤ s.size, least + (i : Int) ∉ s := by
  by_contra hall
  push Not at hall
  have hnodup : ((List.range (s.size + 1)).map fun i : Nat => least + (i : Int)).Nodup :=
    List.nodup_range.map fun i j h => Int.ofNat_inj.mp (Int.add_left_cancel h)
  have hsubset : ((List.range (s.size + 1)).map fun i : Nat => least + (i : Int)) ⊆ s.keys := by
    intro fd hfd
    obtain ⟨i, hi, rfl⟩ := List.mem_map.mp hfd
    rw [Std.TreeMap.mem_keys]
    exact hall i (Nat.lt_succ_iff.mp (List.mem_range.mp hi))
  have hle := (hnodup.subperm hsubset).length_le
  rw [List.length_map, List.length_range, Std.TreeMap.length_keys] at hle
  exact absurd hle (Nat.not_succ_le_self _)

theorem firstFree_spec (s : Slots) (least : Fd) :
    s.firstFree least ∉ s ∧ least ≤ s.firstFree least := by
  unfold firstFree
  cases hfind : ((List.range (s.size + 1)).map fun i : Nat => least + (i : Int)).find?
      (!s.contains ·) with
  | some fd =>
      obtain ⟨i, -, rfl⟩ := List.mem_map.mp (List.mem_of_find?_eq_some hfind)
      have hfree := List.find?_some hfind
      rw [Bool.not_eq_true', ← Bool.not_eq_true, Std.TreeMap.contains_iff_mem] at hfree
      exact ⟨hfree, Int.le_add_of_nonneg_right (Int.natCast_nonneg i)⟩
  | none =>
      obtain ⟨i, hi, hfree⟩ := exists_free s least
      have hused := List.find?_eq_none.mp hfind _
        (List.mem_map_of_mem (List.mem_range.mpr (Nat.lt_succ_of_le hi)))
      rw [Bool.not_eq_true, Bool.not_eq_false', Std.TreeMap.contains_iff_mem] at hused
      exact (hfree hused).elim

theorem eq_insert_of_allocate {least fd : Fd} {slot : Slot}
    (h : s.allocate limit least slot = .ok (fd, s')) :
    fd ∉ s ∧ least ≤ fd ∧ s' = s.insert fd slot := by
  unfold allocate at h
  dsimp only at h
  split at h
  · obtain ⟨rfl, rfl⟩ := Prod.mk.inj (Except.ok.inj h)
    exact ⟨(firstFree_spec s least).1, (firstFree_spec s least).2, rfl⟩
  · cases h

/-! ## Numbers that are added -/

/-- The numbers in use keep their files. Those that were added are at least
`least` and do not survive the execution of another program. -/
structure Grows (least : Fd) (s s' : Slots) : Prop where
  kept : ∀ (fd : Fd) (slot : Slot), s[fd]? = some slot → s'[fd]? = some slot
  added : ∀ (fd : Fd) (slot : Slot), s[fd]? = none → s'[fd]? = some slot →
    least ≤ fd ∧ slot.closeOnExec = true

namespace Grows

variable {least : Fd}

theorem refl (least : Fd) (s : Slots) : Grows least s s where
  kept _ _ h := h
  added fd slot hnone hsome := by
    rw [hnone] at hsome
    cases hsome

theorem trans (h : Grows least s s') (h' : Grows least s' s'') : Grows least s s'' where
  kept fd slot hs := h'.kept fd slot (h.kept fd slot hs)
  added fd slot hnone hsome := by
    cases hbetween : s'[fd]? with
    | none => exact h'.added fd slot hbetween hsome
    | some slot' =>
        obtain rfl := Option.some.inj (hsome.symm.trans (h'.kept fd slot' hbetween))
        exact h.added fd slot hnone hbetween

theorem mem {fd : Fd} (h : Grows least s s') (hfd : fd ∈ s) : fd ∈ s' := by
  obtain ⟨slot, hslot⟩ := mem_iff_exists.mp hfd
  exact mem_iff_exists.mpr ⟨slot, h.kept fd slot hslot⟩

theorem getElem?_of_mem {fd : Fd} (h : Grows least s s') (hfd : fd ∈ s) : s'[fd]? = s[fd]? := by
  obtain ⟨slot, hslot⟩ := mem_iff_exists.mp hfd
  rw [hslot, h.kept fd slot hslot]

end Grows

theorem grows_insert {least fd : Fd} (hfree : fd ∉ s) (hleast : least ≤ fd) (file : FileId) :
    Grows least s (s.insert fd ⟨file, true⟩) where
  kept other slot h := by
    rw [getElem?_insert_key, if_neg, h]
    rintro rfl
    exact hfree (mem_iff_exists.mpr ⟨slot, h⟩)
  added other slot hnone hsome := by
    rw [getElem?_insert_key] at hsome
    split at hsome
    · rename_i heq
      obtain rfl := Option.some.inj hsome
      exact ⟨heq ▸ hleast, rfl⟩
    · rw [hnone] at hsome
      cases hsome

theorem grows_of_allocate {least fd : Fd} {file : FileId}
    (h : s.allocate limit least ⟨file, true⟩ = .ok (fd, s')) : Grows least s s' := by
  obtain ⟨hfree, hleast, rfl⟩ := eq_insert_of_allocate h
  exact grows_insert hfree hleast file

theorem getElem?_of_allocate {least fd : Fd} {slot : Slot}
    (h : s.allocate limit least slot = .ok (fd, s')) : s'[fd]? = some slot := by
  obtain ⟨-, -, rfl⟩ := eq_insert_of_allocate h
  rw [getElem?_insert_key, if_pos rfl]

/-! ## Duplicates -/

/-- `copy` was added as a second number for the file behind `source`. -/
structure Copied (least : Fd) (s s' : Slots) (source copy : Fd) : Prop where
  free : copy ∉ s
  least : least ≤ copy
  file : ∃ slot, s[source]? = some slot ∧ s'[copy]? = some ⟨slot.file, true⟩

theorem copied_of_duplicate {source least copy : Fd}
    (h : s.duplicate limit source least true = .ok (copy, s')) :
    Grows least s s' ∧ Copied least s s' source copy := by
  unfold duplicate at h
  split at h
  · cases h
  · rename_i slot hslot
    obtain ⟨hfree, hleast, -⟩ := eq_insert_of_allocate h
    exact ⟨grows_of_allocate h, hfree, hleast, slot, hslot, getElem?_of_allocate h⟩

/-- A source that is open has the same file when more numbers were added. -/
theorem Copied.of_grows {least source copy : Fd} (hbefore : Grows least s s')
    (hsource : source ∈ s) (h : Copied least s' s'' source copy) :
    Copied least s s'' source copy where
  free hmem := h.free (hbefore.mem hmem)
  least := h.least
  file := by
    obtain ⟨slot, hslot, hcopy⟩ := h.file
    exact ⟨slot, by rw [← hbefore.getElem?_of_mem hsource, hslot], hcopy⟩

theorem Copied.grows {least source copy : Fd} (h : Copied least s s' source copy)
    (hafter : Grows least s' s'') : Copied least s s'' source copy where
  free := h.free
  least := h.least
  file := by
    obtain ⟨slot, hslot, hcopy⟩ := h.file
    exact ⟨slot, hslot, hafter.kept _ _ hcopy⟩

/-- All sources are duplicated above the numbers that can be redirected. -/
theorem copied_of_stash {sources scratches : List Fd} (hopen : ∀ source ∈ sources, source ∈ s)
    (h : s.stash limit sources = (none, scratches, s')) :
    Grows firstScratch s s' ∧ List.Forall₂ (Copied firstScratch s s') sources scratches := by
  induction sources generalizing s scratches with
  | nil =>
      obtain ⟨rfl, rfl⟩ := Prod.mk.inj (Prod.mk.inj h).2
      exact ⟨.refl _ s, .nil⟩
  | cons source rest ih =>
      obtain ⟨hsource, hrest⟩ := List.forall_mem_cons.mp hopen
      unfold stash at h
      split at h
      · cases h
      · rename_i scratch s₁ hduplicate
        obtain ⟨hgrows, hcopied⟩ := copied_of_duplicate hduplicate
        obtain ⟨hfailed, hpair⟩ := Prod.mk.inj h
        obtain ⟨rfl, hs'⟩ := Prod.mk.inj hpair
        obtain ⟨hgrows', hcopies⟩ := ih (fun other hother => hgrows.mem (hrest other hother))
          (Prod.ext hfailed (Prod.ext rfl hs'))
        refine ⟨hgrows.trans hgrows', .cons (hcopied.grows hgrows') ?_⟩
        refine List.forall₂_iff_get.mpr ⟨hcopies.length_eq, fun i hi hi' => ?_⟩
        exact (hcopies.get hi hi').of_grows hgrows (hrest _ (List.get_mem ..))

/-! ## Putting files at their numbers -/

theorem eq_insert_of_duplicateOnto {source target : Fd} (hne : source ≠ target)
    (h : s.duplicateOnto limit source target = .ok s') :
    ∃ slot, s[source]? = some slot ∧ s' = s.insert target ⟨slot.file, false⟩ := by
  unfold duplicateOnto at h
  split at h
  · cases h
  · rename_i slot hslot
    split at h
    · cases h
    · exact ⟨slot, hslot, (Except.ok.inj h).symm⟩

/-- Where no source is a target, every target gets the file of its source. -/
theorem getElem?_place {pairs : List (Fd × Fd)}
    (hapart : ∀ p ∈ pairs, ∀ q ∈ pairs, p.1 ≠ q.2) (hnodup : (pairs.map Prod.snd).Nodup)
    (h : s.place limit pairs = (none, s')) :
    (∀ p ∈ pairs, ∃ slot, s[p.1]? = some slot ∧ s'[p.2]? = some ⟨slot.file, false⟩)
      ∧ ∀ fd ∉ pairs.map Prod.snd, s'[fd]? = s[fd]? := by
  induction pairs generalizing s with
  | nil =>
      obtain rfl := (Prod.mk.inj h).2
      simp
  | cons pair rest ih =>
      obtain ⟨source, target⟩ := pair
      rw [List.map_cons, List.nodup_cons] at hnodup
      have hne : ∀ p ∈ (source, target) :: rest, p.1 ≠ target := fun p hp =>
        hapart p hp _ (List.mem_cons_self ..)
      unfold place at h
      split at h
      · cases h
      · rename_i s₁ honto
        obtain ⟨slot, hslot, rfl⟩ :=
          eq_insert_of_duplicateOnto (hne _ (List.mem_cons_self ..)) honto
        obtain ⟨hplaced, hothers⟩ := ih
          (fun p hp q hq => hapart p (List.mem_cons_of_mem _ hp) q (List.mem_cons_of_mem _ hq))
          hnodup.2 h
        constructor
        · refine List.forall_mem_cons.mpr ⟨⟨slot, hslot, ?_⟩, fun p hp => ?_⟩
          · rw [hothers target hnodup.1, getElem?_insert_key, if_pos rfl]
          · obtain ⟨slot', hslot', htarget⟩ := hplaced p hp
            rw [getElem?_insert_key, if_neg (hne p (List.mem_cons_of_mem _ hp))] at hslot'
            exact ⟨slot', hslot', htarget⟩
        · intro fd hfd
          rw [List.map_cons, List.mem_cons, not_or] at hfd
          rw [hothers fd hfd.2, getElem?_insert_key, if_neg hfd.1]

/-! ## Both together -/

/-- What moving descriptors to given numbers below the scratch numbers comes
to. -/
structure Moved (pairs : List (Fd × Fd)) (s s' : Slots) : Prop where
  /-- A target has the file its source had, for the next program as well. -/
  target : ∀ p ∈ pairs, ∃ slot, s[p.1]? = some slot ∧ s'[p.2]? = some ⟨slot.file, false⟩
  low : ∀ fd < firstScratch, fd ∉ pairs.map Prod.snd → s'[fd]? = s[fd]?
  /-- What is left of the duplicates does not survive the execution of another
  program. -/
  high : ∀ fd, firstScratch ≤ fd →
    s'[fd]? = s[fd]? ∨ s[fd]? = none ∧ ∃ file, s'[fd]? = some ⟨file, true⟩

theorem exists_scratch {r : Fd → Fd → Prop} {pairs : List (Fd × Fd)} {scratches : List Fd}
    (h : List.Forall₂ r (pairs.map Prod.fst) scratches) :
    ∀ p ∈ pairs, ∃ scratch, r p.1 scratch
      ∧ (scratch, p.2) ∈ scratches.zip (pairs.map Prod.snd) := by
  induction pairs generalizing scratches with
  | nil => simp
  | cons pair rest ih =>
      cases h with
      | cons hfirst hrest =>
          refine List.forall_mem_cons.mpr ⟨⟨_, hfirst, List.mem_cons_self ..⟩, fun p hp => ?_⟩
          obtain ⟨scratch, hr, hmem⟩ := ih hrest p hp
          exact ⟨scratch, hr, List.mem_cons_of_mem _ hmem⟩

/-- Open descriptors are moved all at once, whichever numbers they have. -/
theorem moved_of_remap {pairs : List (Fd × Fd)} (hlength : pairs.length ≤ maxMoves)
    (hopen : ∀ p ∈ pairs, p.1 ∈ s) (hlow : ∀ p ∈ pairs, p.2 < firstScratch)
    (hnodup : (pairs.map Prod.snd).Nodup) (h : s.remap limit pairs = (none, s')) :
    Moved pairs s s' := by
  unfold remap at h
  rw [List.take_of_length_le hlength] at h
  dsimp only at h
  split at h
  · cases h
  · rename_i scratches s₁ hstash
    have hsources : ∀ source ∈ pairs.map Prod.fst, source ∈ s := by simpa using hopen
    obtain ⟨hgrows, hcopies⟩ := copied_of_stash hsources hstash
    have hlengths : scratches.length = (pairs.map Prod.snd).length := by
      rw [← hcopies.length_eq, List.length_map, List.length_map]
    have htargets : (scratches.zip (pairs.map Prod.snd)).map Prod.snd = pairs.map Prod.snd :=
      List.map_snd_zip (Nat.le_of_eq hlengths.symm)
    have hapart : ∀ p ∈ scratches.zip (pairs.map Prod.snd),
        ∀ q ∈ scratches.zip (pairs.map Prod.snd), p.1 ≠ q.2 := by
      intro p hp q hq heq
      obtain ⟨i, hi, hget⟩ := List.getElem_of_mem (List.of_mem_zip hp).1
      have hscratch := (hcopies.get (by rw [hcopies.length_eq]; exact hi) hi).least
      obtain ⟨pair, hpair, hsnd⟩ := List.mem_map.mp (List.of_mem_zip hq).2
      have htarget := hlow pair hpair
      rw [List.get_eq_getElem, hget, heq, ← hsnd] at hscratch
      exact absurd htarget (Int.not_lt.mpr hscratch)
    obtain ⟨hplaced, hothers⟩ := getElem?_place hapart (by rwa [htargets]) h
    rw [htargets] at hothers
    exact
      { target := fun p hp => by
          obtain ⟨scratch, hcopied, hmem⟩ := exists_scratch hcopies p hp
          obtain ⟨slot, hslot, hcopy⟩ := hcopied.file
          obtain ⟨slot', hslot', htarget⟩ := hplaced _ hmem
          obtain rfl := Option.some.inj (hcopy.symm.trans hslot')
          exact ⟨slot, hslot, htarget⟩
        low := fun fd hfd hnot => by
          rw [hothers fd hnot]
          cases hbefore : s[fd]? with
          | some slot => exact hgrows.kept fd slot hbefore
          | none =>
              cases hafter : s₁[fd]? with
              | none => rfl
              | some slot =>
                  exact absurd hfd (Int.not_lt.mpr (hgrows.added fd slot hbefore hafter).1)
        high := fun fd hfd => by
          have hnot : fd ∉ pairs.map Prod.snd := by
            intro hmem
            obtain ⟨p, hp, rfl⟩ := List.mem_map.mp hmem
            exact absurd (hlow p hp) (Int.not_lt.mpr hfd)
          rw [hothers fd hnot]
          cases hbefore : s[fd]? with
          | some slot => exact Or.inl (hgrows.kept fd slot hbefore)
          | none =>
              cases hafter : s₁[fd]? with
              | none => exact Or.inl rfl
              | some slot =>
                  have hclose := (hgrows.added fd slot hbefore hafter).2
                  exact Or.inr ⟨rfl, slot.file, by rw [← hclose]⟩ }

end Machine.Slots

end JobShell
