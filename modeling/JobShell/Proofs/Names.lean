import JobShell.Name

/-!
# What an assignment word spells

`splitAtEquals` cuts a word at its first equals sign, and a valid name holds
none. So the words that are assignments are exactly those that spell a valid
name, an equals sign and a value (`assignment?_eq_some_iff`), and a word
spells at most one assignment.
-/

namespace JobShell

/-- `word` spells the assignment of a value to a valid name. -/
def Spells (word : String) (pair : String × String) : Prop :=
  isVariableName pair.1 = true ∧ word = pair.1 ++ "=" ++ pair.2

theorem splitAtEquals_eq_some_iff {cs name value : List Char} :
    splitAtEquals cs = some (name, value) ↔ cs = name ++ '=' :: value ∧ '=' ∉ name := by
  induction cs generalizing name with
  | nil => simp [splitAtEquals]
  | cons c cs ih =>
      rw [splitAtEquals]
      by_cases hc : c = '='
      · rw [if_pos hc]
        subst hc
        cases name with
        | nil => simp [eq_comm]
        | cons d name =>
            refine ⟨fun h => by simp at h, ?_⟩
            rintro ⟨h, hname⟩
            obtain ⟨rfl, -⟩ := List.cons.inj h
            exact absurd (List.mem_cons_self ..) hname
      · rw [if_neg hc]
        cases name with
        | nil => simp [hc]
        | cons d name =>
            simp only [Option.map_eq_some_iff, Prod.mk.injEq, Prod.exists, List.cons.injEq,
              List.cons_append, List.mem_cons, not_or]
            constructor
            · rintro ⟨name', value', h, ⟨rfl, rfl⟩, rfl⟩
              obtain ⟨rfl, hname⟩ := ih.mp h
              exact ⟨⟨rfl, rfl⟩, fun h => hc h.symm, hname⟩
            · rintro ⟨⟨rfl, rfl⟩, -, hname⟩
              exact ⟨name, value, ih.mpr ⟨rfl, hname⟩, ⟨rfl, rfl⟩, rfl⟩

/-- A name has no characters but those a name may have. -/
theorem not_mem_of_isName {name : List Char} {c : Char} (hstart : isNameStart c = false)
    (hchar : isNameChar c = false) (h : isName name = true) : c ∉ name := by
  cases name with
  | nil => exact List.not_mem_nil
  | cons first rest =>
      rw [isName, Bool.and_eq_true, List.all_eq_true] at h
      obtain ⟨hfirst, hrest⟩ := h
      intro hmem
      rcases List.mem_cons.mp hmem with rfl | hmem
      · rw [hstart] at hfirst
        cases hfirst
      · have := hrest c hmem
        rw [hchar] at this
        cases this

theorem assignment?_eq_some_iff {word : String} {pair : String × String} :
    assignment? word = some pair ↔ Spells word pair := by
  obtain ⟨name, value⟩ := pair
  unfold assignment? Spells isVariableName
  constructor
  · intro h
    split at h
    · rename_i n v hsplit
      split at h
      · rename_i hname
        obtain ⟨rfl, rfl⟩ := Prod.mk.inj (Option.some.inj h)
        obtain ⟨hword, -⟩ := splitAtEquals_eq_some_iff.mp hsplit
        refine ⟨by simpa using hname, String.toList_injective ?_⟩
        simp [hword]
      · cases h
    · cases h
  · rintro ⟨hname, rfl⟩
    have hsplit : splitAtEquals (name ++ "=" ++ value).toList
        = some (name.toList, value.toList) :=
      splitAtEquals_eq_some_iff.mpr ⟨by simp, not_mem_of_isName (by decide) (by decide) hname⟩
    simp only at hname ⊢
    rw [hsplit]
    simp only [hname, if_true, String.ofList_toList]

theorem Spells.unique {word : String} {pair pair' : String × String} (h : Spells word pair)
    (h' : Spells word pair') : pair = pair' :=
  Option.some.inj ((assignment?_eq_some_iff.mpr h).symm.trans (assignment?_eq_some_iff.mpr h'))

end JobShell
