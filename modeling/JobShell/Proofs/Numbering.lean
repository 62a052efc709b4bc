import Mathlib.Data.Nat.Count
import JobShell.Proofs.Renumbering

/-!
# Which numbers are free

A new descriptor gets the lowest number that is free (`firstFree_least`). So
what is opened one after the other gets the free numbers in their order:
`IsFreeAt s k` is the free number of `s` with `k` free ones below it, and when
`k` numbers were taken (`Takes`) it is the next one (`Takes.allocate`).
-/

namespace JobShell.Machine.Slots

variable {s s' s'' : Slots} {limit k : Nat} {least fd other : Fd}

theorem firstFree_least (hleast : least ≤ fd) (hlt : fd < s.firstFree least) : fd ∈ s := by
  obtain ⟨i, rfl⟩ := Int.le.dest hleast
  have hused : ∀ {n : Nat}, ¬(!s.contains (least + (n : Int))) = true → least + (n : Int) ∈ s := by
    intro n h
    rwa [Bool.not_eq_true, Bool.not_eq_false', Std.TreeMap.contains_iff_mem] at h
  unfold firstFree at hlt
  rw [List.find?_map] at hlt
  cases hfind : (List.range (s.size + 1)).find?
      ((!s.contains ·) ∘ fun n : Nat => least + (n : Int)) with
  | some first =>
      rw [hfind, Option.map_some, Option.getD_some] at hlt
      have hi : i < first := Int.ofNat_lt.mp (Int.lt_of_add_lt_add_left hlt)
      obtain ⟨-, -, hbelow⟩ := List.find?_range_eq_some.mp hfind
      have hpassed := hbelow i hi
      rw [Bool.not_eq_true'] at hpassed
      exact hused (ne_true_of_eq_false hpassed)
  | none =>
      rw [hfind, Option.map_none, Option.getD_none] at hlt
      have hi : i < s.size := Int.ofNat_lt.mp (Int.lt_of_add_lt_add_left hlt)
      have hnone := List.find?_eq_none.mp hfind i (List.mem_range.mpr (Nat.lt_succ_of_lt hi))
      exact hused hnone

/-- The number is free, and `k` numbers below it are. -/
structure IsFreeAt (s : Slots) (k : Nat) (fd : Fd) : Prop where
  free : fd ∉ s
  nonneg : 0 ≤ fd
  below : Nat.count (fun n : Nat => (n : Fd) ∉ s) fd.toNat = k

theorem IsFreeAt.unique (h : s.IsFreeAt k fd) (h' : s.IsFreeAt k other) : fd = other := by
  have hfree : ∀ {n : Fd}, 0 ≤ n → n ∉ s → ((n.toNat : Nat) : Fd) ∉ s := by
    intro n hnonneg hn
    rwa [Int.toNat_of_nonneg hnonneg]
  have heq : fd.toNat = other.toNat :=
    Nat.count_injective (hfree h.nonneg h.free) (hfree h'.nonneg h'.free)
      (h.below.trans h'.below.symm)
  calc fd = (fd.toNat : Int) := (Int.toNat_of_nonneg h.nonneg).symm
    _ = other.toNat := congrArg _ heq
    _ = other := Int.toNat_of_nonneg h'.nonneg

/-- The `k` lowest of the free numbers were taken. -/
def Takes (s s' : Slots) (k : Nat) : Prop :=
  ∀ fd, fd ∈ s' ↔ fd ∈ s ∨ ∃ i < k, s.IsFreeAt i fd

namespace Takes

theorem refl (s : Slots) : s.Takes s 0 := by
  intro fd
  simp

/-- A number with nothing but used ones below it is the next one. -/
theorem isFreeAt (h : s.Takes s' k) (hfree : fd ∉ s') (hnonneg : 0 ≤ fd)
    (hbelow : ∀ n, 0 ≤ n → n < fd → n ∈ s') : s.IsFreeAt k fd := by
  have hnot : fd ∉ s := fun hmem => hfree ((h fd).mpr (Or.inl hmem))
  have hle : ∀ n ≤ fd.toNat, Nat.count (fun m : Nat => (m : Fd) ∉ s) n ≤ k := by
    intro n hn
    induction n with
    | zero => simp
    | succ n ih =>
        rw [Nat.count_succ]
        have hused := hbelow n (Int.natCast_nonneg n) (Int.lt_toNat.mp hn)
        split
        · rename_i hn'
          obtain hmem | ⟨i, hi, hat⟩ := (h n).mp hused
          · exact (hn' hmem).elim
          · have hcount : Nat.count (fun m : Nat => (m : Fd) ∉ s) n = i := hat.below
            omega
        · exact ih (by omega)
  refine ⟨hnot, hnonneg, Nat.le_antisymm (hle _ (Nat.le_refl _)) ?_⟩
  refine Nat.not_lt.mp fun hlt => hfree ((h fd).mpr (Or.inr ⟨_, hlt, hnot, hnonneg, rfl⟩))

/-- What is opened next gets the next number. -/
theorem allocate {slot : Slot} (h : s.Takes s' k) (hleast : 0 ≤ least)
    (hlow : ∀ n, 0 ≤ n → n < least → n ∈ s)
    (hok : s'.allocate limit least slot = .ok (fd, s'')) :
    s.IsFreeAt k fd ∧ s.Takes s'' (k + 1) := by
  unfold Slots.allocate at hok
  dsimp only at hok
  split at hok
  case isFalse => cases hok
  obtain ⟨rfl, rfl⟩ := Prod.mk.inj (Except.ok.inj hok)
  obtain ⟨hfree, hge⟩ := firstFree_spec s' least
  have hnext : s.IsFreeAt k (s'.firstFree least) := by
    refine h.isFreeAt hfree (Int.le_trans hleast hge) fun n hnonneg hlt => ?_
    by_cases hn : n < least
    · exact (h n).mpr (Or.inl (hlow n hnonneg hn))
    · exact firstFree_least (Int.not_lt.mp hn) hlt
  refine ⟨hnext, fun n => ?_⟩
  rw [Std.TreeMap.mem_insert, compare_eq_iff, h n]
  constructor
  · rintro (rfl | hmem | ⟨i, hi, hat⟩)
    · exact Or.inr ⟨k, Nat.lt_succ_self k, hnext⟩
    · exact Or.inl hmem
    · exact Or.inr ⟨i, Nat.lt_succ_of_lt hi, hat⟩
  · rintro (hmem | ⟨i, hi, hat⟩)
    · exact Or.inr (Or.inl hmem)
    · rcases Nat.lt_succ_iff_lt_or_eq.mp hi with hi | rfl
      · exact Or.inr (Or.inr ⟨i, hi, hat⟩)
      · exact Or.inl (hat.unique hnext)

end Takes

end JobShell.Machine.Slots
