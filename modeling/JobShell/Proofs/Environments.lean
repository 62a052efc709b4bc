import JobShell.Environment
import JobShell.Proofs.Maps
import Mathlib.Data.List.Nodup

/-!
# Looking up and changing environments

An environment is a list, but as long as its names are distinct it is a map:
`get?_eq_some_iff` turns lookups into membership. `set` and `unset` change
what is found for one name (`get?_set`, `get?_unset`), nothing else, and keep
the names distinct. A process that is started receives the last entry of
every name (`get?_forProcess`).
-/

namespace JobShell.Environment

variable {env : Environment} {name key value : Bytes}

/-- The names of the entries, in their order. -/
def names (env : Environment) : List Bytes := env.map Prod.fst

@[simp] theorem names_nil : names [] = [] := rfl

@[simp] theorem names_cons (entry : Bytes × Bytes) (rest : Environment) :
    names (entry :: rest) = entry.1 :: names rest := rfl

@[simp] theorem names_append (env other : Environment) :
    names (env ++ other) = env.names ++ other.names := List.map_append

theorem get?_cons (entry : Bytes × Bytes) (rest : Environment) :
    get? (entry :: rest) key = if key = entry.1 then some entry.2 else get? rest key := by
  rw [get?, List.lookup_cons]
  by_cases h : key = entry.1
  · rw [h, beq_self_eq_true, if_pos rfl]
  · rw [beq_eq_false_iff_ne.mpr h, if_neg h, get?]

theorem mem_of_get? (h : env.get? key = some value) : (key, value) ∈ env := by
  obtain ⟨front, back, rfl, -⟩ := List.lookup_eq_some_iff.mp h
  exact List.mem_append_right _ (List.mem_cons_self ..)

theorem get?_eq_none_iff : env.get? key = none ↔ key ∉ env.names := by
  rw [get?, List.lookup_eq_none_iff, names, List.mem_map]
  constructor
  · rintro h ⟨entry, hentry, rfl⟩
    simpa using h entry hentry
  · intro h entry hentry
    rw [bne_iff_ne]
    rintro rfl
    exact h ⟨entry, hentry, rfl⟩

/-- With distinct names the entries are what lookups find. -/
theorem get?_eq_some_iff (h : env.names.Nodup) :
    env.get? key = some value ↔ (key, value) ∈ env := by
  refine ⟨mem_of_get?, fun hmem => ?_⟩
  cases hget : env.get? key with
  | none => exact (get?_eq_none_iff.mp hget (List.mem_map_of_mem hmem)).elim
  | some found =>
      have heq : (key, found) = (key, value) :=
        List.inj_on_of_nodup_map h (mem_of_get? hget) hmem rfl
      rw [(Prod.mk.inj heq).2]

theorem get?_set : (env.set name value).get? key
    = if key = name then some value else env.get? key := by
  induction env with
  | nil => rw [set, get?_cons]
  | cons entry rest ih =>
      by_cases hfirst : entry.1 = name
      · rw [set, if_pos hfirst, get?_cons, get?_cons, hfirst]
        by_cases hkey : key = name
        · rw [if_pos hkey, if_pos hkey]
        · rw [if_neg hkey, if_neg hkey, if_neg hkey]
      · rw [set, if_neg hfirst, get?_cons, get?_cons, ih]
        by_cases hkey : key = entry.1
        · rw [if_pos hkey, if_neg (hkey ▸ hfirst), if_pos hkey]
        · rw [if_neg hkey, if_neg hkey]

theorem get?_unset : (env.unset name).get? key
    = if key = name then none else env.get? key := by
  by_cases hkey : key = name
  · rw [if_pos hkey, get?_eq_none_iff, names, unset, hkey]
    simp
  · rw [if_neg hkey]
    induction env with
    | nil => rfl
    | cons entry rest ih =>
        by_cases hfirst : entry.1 = name
        · rw [unset, List.filter_cons_of_neg (by simpa using hfirst), get?_cons,
            if_neg (hfirst ▸ hkey)]
          exact ih
        · rw [unset, List.filter_cons_of_pos (by simpa using hfirst), get?_cons, get?_cons]
          congr 1

theorem mem_names_set : key ∈ (env.set name value).names ↔ key = name ∨ key ∈ env.names := by
  rw [← not_iff_not, not_or, ← get?_eq_none_iff, ← get?_eq_none_iff, get?_set]
  by_cases h : key = name
  · simp [h]
  · simp [h]

theorem mem_names_unset : key ∈ (env.unset name).names ↔ key ≠ name ∧ key ∈ env.names := by
  rw [← not_iff_not, ← get?_eq_none_iff, get?_unset, not_and, ← get?_eq_none_iff]
  by_cases h : key = name <;> simp [h]

theorem nodup_names_set (h : env.names.Nodup) : (env.set name value).names.Nodup := by
  induction env with
  | nil => simp [set]
  | cons entry rest ih =>
      rw [names_cons, List.nodup_cons] at h
      by_cases hfirst : entry.1 = name
      · rw [set, if_pos hfirst, names_cons, List.nodup_cons, ← hfirst]
        exact h
      · rw [set, if_neg hfirst, names_cons, List.nodup_cons, mem_names_set, not_or]
        exact ⟨⟨hfirst, h.1⟩, ih h.2⟩

theorem nodup_names_unset (h : env.names.Nodup) : (env.unset name).names.Nodup :=
  h.sublist (List.filter_sublist.map _)

/-! ## What a process receives -/

/-- The value of the last entry for `key`. -/
def last? (env : Environment) (key : Bytes) : Option Bytes := get? env.reverse key

theorem last?_cons (entry : Bytes × Bytes) (rest : Environment) :
    last? (entry :: rest) key
      = (rest.last? key).or (if key = entry.1 then some entry.2 else none) := by
  rw [last?, List.reverse_cons, get?, List.lookup_append]
  congr 1
  exact get?_cons entry []

theorem last?_append (env other : Environment) :
    last? (env ++ other) key = (other.last? key).or (env.last? key) := by
  rw [last?, List.reverse_append, get?, List.lookup_append]
  rfl

theorem last?_eq_none_iff : env.last? key = none ↔ key ∉ env.names := by
  rw [last?, get?_eq_none_iff, names, List.map_reverse, List.mem_reverse]
  rfl

theorem get?_forProcess : env.forProcess.get? key = env.last? key := by
  have hmap : ∀ map : Std.TreeMap Bytes Bytes, get? map.toList key = map[key]? := by
    intro map
    apply Option.ext
    intro value
    have hnodup : (names map.toList).Nodup := by
      rw [names, Std.TreeMap.map_fst_toList_eq_keys]
      exact Std.TreeMap.distinct_keys.imp fun h heq => h (compare_eq_iff.mpr heq.symm)
    rw [get?_eq_some_iff hnodup, Std.TreeMap.mem_toList_iff_getElem?_eq_some]
  rw [forProcess, hmap, getElem?_foldl_insert, Std.TreeMap.getElem?_emptyc, Option.or_none]
  rfl

theorem mem_names_forProcess : key ∈ env.forProcess.names ↔ key ∈ env.names := by
  rw [← not_iff_not, ← get?_eq_none_iff, get?_forProcess, last?_eq_none_iff]

end JobShell.Environment
