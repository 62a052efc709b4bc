import Std.Data.TreeMap.Lemmas
import Std.Data.TreeSet.Lemmas

/-!
# Maps by insertion

What is found under a key after an insertion or a removal, with the keys
compared by equality. Inserting pairs one after the other leaves, for each
key, the value of the last pair with that key (`getElem?_foldl_insert`), and
a mark for each key that is in a pair (`mem_foldl_insert`). If no two keys are
equal, the order does not matter (`getElem?_foldl_insert_eq_some_iff`).
-/

namespace JobShell

variable {α β : Type} [Ord α] [Std.LawfulEqOrd α]

theorem compare_eq_iff {key other : α} : compare key other = .eq ↔ other = key := by
  constructor
  · intro h
    exact (Std.LawfulEqCmp.eq_of_compare h).symm
  · rintro rfl
    exact Std.ReflCmp.compare_self

variable [Std.TransOrd α]

theorem getElem?_insert_key [DecidableEq α] (map : Std.TreeMap α β) (key : α) (value : β)
    (other : α) :
    (map.insert key value)[other]? = if other = key then some value else map[other]? := by
  rw [Std.TreeMap.getElem?_insert]
  simp only [compare_eq_iff]

theorem getElem?_erase_key [DecidableEq α] (map : Std.TreeMap α β) (key other : α) :
    (map.erase key)[other]? = if other = key then none else map[other]? := by
  rw [Std.TreeMap.getElem?_erase]
  simp only [compare_eq_iff]

theorem mem_insert_key {keys : Std.TreeSet α} {key other : α} :
    other ∈ keys.insert key ↔ other = key ∨ other ∈ keys := by
  rw [Std.TreeSet.mem_insert, compare_eq_iff]

theorem mem_erase_key {keys : Std.TreeSet α} {key other : α} :
    other ∈ keys.erase key ↔ other ≠ key ∧ other ∈ keys := by
  rw [Std.TreeSet.mem_erase, ne_eq, compare_eq_iff]

theorem getElem?_foldl_insert [BEq α] [LawfulBEq α] (pairs : List (α × β)) (map : Std.TreeMap α β)
    (key : α) :
    (pairs.foldl (fun map pair => map.insert pair.1 pair.2) map)[key]?
      = (pairs.reverse.lookup key).or map[key]? := by
  induction pairs generalizing map with
  | nil => rfl
  | cons pair pairs ih =>
      rw [List.foldl_cons, ih, List.reverse_cons, List.lookup_append, Option.or_assoc,
        Std.TreeMap.getElem?_insert]
      congr 1
      by_cases h : key = pair.1
      · subst h
        rw [if_pos Std.ReflCmp.compare_self, List.lookup_cons, beq_self_eq_true]
        simp
      · rw [if_neg (mt compare_eq_iff.mp h), List.lookup_cons, beq_eq_false_iff_ne.mpr h]
        rfl

/-- What is found after insertions under keys that differ from each other. -/
theorem getElem?_foldl_insert_eq_some_iff {γ : Type} {key : γ → α}
    (hkey : ∀ i j, key i = key j → i = j) (value : γ → β) (items : List γ)
    (map : Std.TreeMap α β) {name : α} {v : β} :
    (items.foldl (fun map i => map.insert (key i) (value i)) map)[name]? = some v
      ↔ (∃ i ∈ items, key i = name ∧ value i = v)
        ∨ map[name]? = some v ∧ ∀ i ∈ items, key i ≠ name := by
  induction items generalizing map with
  | nil => simp
  | cons i items ih =>
      rw [List.foldl_cons, ih, Std.TreeMap.getElem?_insert]
      by_cases h : key i = name
      · subst h
        rw [if_pos Std.ReflCmp.compare_self]
        constructor
        · rintro (⟨j, hj, hname, hv⟩ | ⟨hv, -⟩)
          · exact Or.inl ⟨j, List.mem_cons_of_mem i hj, hname, hv⟩
          · exact Or.inl ⟨i, List.mem_cons_self, rfl, Option.some.inj hv⟩
        · rintro (⟨j, -, hname, hv⟩ | ⟨-, hnone⟩)
          · obtain rfl := hkey j i hname
            by_cases hj : j ∈ items
            · exact Or.inl ⟨j, hj, rfl, hv⟩
            · refine Or.inr ⟨congrArg some hv, fun k hk hname => hj ?_⟩
              exact hkey k j hname ▸ hk
          · exact absurd rfl (hnone i List.mem_cons_self)
      · rw [if_neg fun hsame => h (Std.LawfulEqCmp.eq_of_compare hsame)]
        simp [h]

theorem mem_foldl_insert {pairs : List (α × β)} {keys : Std.TreeSet α} {key : α} :
    key ∈ pairs.foldl (fun keys pair => keys.insert pair.1) keys
      ↔ key ∈ pairs.map Prod.fst ∨ key ∈ keys := by
  induction pairs generalizing keys with
  | nil => simp
  | cons pair pairs ih =>
      rw [List.foldl_cons, ih, mem_insert_key, List.map_cons, List.mem_cons, or_left_comm,
        or_assoc]

end JobShell
