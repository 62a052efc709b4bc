import JobShell.Path

/-!
# Cutting at separators

The stretches between separators hold what the whole holds, without the
separators (`mem_of_mem_splitOn`). A byte string is cut in one way only
(`Bytes.splitsInto_iff`): no other stretches that are free of the separator
give the same string when they are joined.
-/

namespace JobShell

theorem mem_of_mem_splitOn {α : Type} [BEq α] [LawfulBEq α] {separator a : α} {as part : List α}
    (hpart : part ∈ as.splitOn separator) (ha : a ∈ part) : a ∈ as ∧ a ≠ separator := by
  induction as generalizing part with
  | nil =>
      rw [List.splitOn_nil, List.mem_singleton] at hpart
      rw [hpart] at ha
      cases ha
  | cons first rest ih =>
      rw [List.splitOn_cons_eq_if_modifyHead] at hpart
      by_cases hfirst : first = separator
      · rw [if_pos (beq_iff_eq.mpr hfirst)] at hpart
        rcases List.mem_cons.mp hpart with rfl | hpart
        · cases ha
        · obtain ⟨hmem, hne⟩ := ih hpart ha
          exact ⟨List.mem_cons_of_mem _ hmem, hne⟩
      · rw [if_neg (mt beq_iff_eq.mp hfirst)] at hpart
        cases hrest : rest.splitOn separator with
        | nil => exact (List.splitOn_ne_nil separator rest hrest).elim
        | cons stretch others =>
            rw [hrest] at hpart ih
            rcases List.mem_cons.mp hpart with rfl | hpart
            · rcases List.mem_cons.mp ha with rfl | ha
              · exact ⟨List.mem_cons_self .., hfirst⟩
              · obtain ⟨hmem, hne⟩ := ih (List.mem_cons_self ..) ha
                exact ⟨List.mem_cons_of_mem _ hmem, hne⟩
            · obtain ⟨hmem, hne⟩ := ih (List.mem_cons_of_mem _ hpart) ha
              exact ⟨List.mem_cons_of_mem _ hmem, hne⟩

namespace Bytes

variable {separator : UInt8} {bs : Bytes} {parts : List Bytes}

/-- `parts` are the stretches between the separators in `bs`. -/
structure SplitsInto (separator : UInt8) (bs : Bytes) (parts : List Bytes) : Prop where
  nonempty : parts ≠ []
  free : ∀ part ∈ parts, separator ∉ part
  joined : [separator].intercalate parts = bs

theorem splitAt_eq_splitOn (separator : UInt8) (bs : Bytes) :
    Bytes.splitAt separator bs = bs.splitOn separator := by
  induction bs with
  | nil => rw [Bytes.splitAt, List.splitOn_nil]
  | cons b rest ih =>
      rw [Bytes.splitAt, ih, List.splitOn_cons_eq_if_modifyHead]
      by_cases hb : b = separator
      · rw [if_pos hb, if_pos (beq_iff_eq.mpr hb)]
      · rw [if_neg hb, if_neg (mt beq_iff_eq.mp hb)]
        cases hrest : rest.splitOn separator with
        | nil => exact (List.splitOn_ne_nil separator rest hrest).elim
        | cons first others => rfl

theorem splitsInto_iff : SplitsInto separator bs parts ↔ parts = Bytes.splitAt separator bs := by
  rw [splitAt_eq_splitOn]
  constructor
  · rintro ⟨hne, hfree, rfl⟩
    rw [List.splitOn_intercalate separator hfree hne]
  · rintro rfl
    refine ⟨List.splitOn_ne_nil separator bs, fun part hpart hmem => ?_,
      List.intercalate_splitOn separator⟩
    exact (mem_of_mem_splitOn hpart hmem).2 rfl

end Bytes

end JobShell
