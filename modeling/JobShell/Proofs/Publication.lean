import JobShell.Machine.Setup
import JobShell.Proofs.Environments
import JobShell.Proofs.Updates
import JobShell.Proofs.Utf8

/-!
# The environment of a session

Jobs inherit the environment, not the variables. The two are changed by four
operations under different guards, and still agree after every sequence of
lines (`environment_afterLines`): a valid name is in the environment exactly
if it is exported and has a value, with that value, and every other entry is
one the session started with.

What each operation does to the parts of the variables comes first. The
invariant has two halves: `Published` ties the environment to the values of
the valid names, and entries under other names (`IsForeign`) do not change.
`StartedIn` holds both, of the variables a session starts with and after
every `Update` of a valid name.
-/

namespace JobShell

namespace Variables

/-! ## What the operations change -/

theorem get?_assign (vs : Variables) (name value other : String) :
    (vs.assign name value).get? other = if other = name then some value else vs.get? other := by
  rw [assign, get?, getElem?_insert_key, get?]
  split
  · rfl
  · split <;> rfl

theorem isExported_assign (vs : Variables) (name value other : String) :
    (vs.assign name value).isExported other = vs.isExported other := by
  unfold assign
  dsimp only
  split <;> rfl

theorem environment_assign (vs : Variables) (name value : String) :
    (vs.assign name value).environment
      = if vs.isExported name then vs.environment.set (.ofString name) (.ofString value)
        else vs.environment := by
  unfold assign
  dsimp only
  split <;> rfl

/-- What is published of an exported variable is the new value if there is
one, else the value it has. -/
theorem exportName_eq (vs : Variables) (name : String) (value : Option String) :
    vs.exportName name value
      = { values := value.elim vs.values (vs.values.insert name ·)
          exported := vs.exported.insert name
          environment := (value.or (vs.get? name)).elim vs.environment
            (vs.environment.set (.ofString name) <| .ofString ·)
          refused := (value.or (vs.get? name)).elim vs.refused fun value =>
            vs.refused || !Environment.admits (.ofString name) (.ofString value) } := by
  cases value with
  | none =>
      simp only [exportName, get?, Option.none_or]
      cases vs.values[name]? <;> rfl
  | some value =>
      simp only [exportName, get?, getElem?_insert_key, if_pos, Option.some_or]
      rfl

theorem get?_exportName (vs : Variables) (name : String) (value : Option String)
    (other : String) :
    (vs.exportName name value).get? other
      = if other = name then value.or (vs.get? name) else vs.get? other := by
  rw [exportName_eq]
  cases value with
  | none =>
      by_cases h : other = name
      · rw [if_pos h, h]
        rfl
      · rw [if_neg h]
        rfl
  | some value => exact getElem?_insert_key ..

theorem isExported_exportName (vs : Variables) (name : String) (value : Option String)
    (other : String) :
    (vs.exportName name value).isExported other = (other == name || vs.isExported other) := by
  rw [exportName_eq, isExported, Bool.eq_iff_iff, Std.TreeSet.contains_iff_mem, mem_insert_key]
  simp [isExported]

theorem environment_exportName (vs : Variables) (name : String) (value : Option String) :
    (vs.exportName name value).environment
      = match value.or (vs.get? name) with
        | some value => vs.environment.set (.ofString name) (.ofString value)
        | none => vs.environment := by
  rw [exportName_eq]
  cases value.or (vs.get? name) <;> rfl

theorem unset_eq (vs : Variables) (name : String) :
    vs.unset name
      = { values := vs.values.erase name
          exported := vs.exported.erase name
          environment := if vs.isExported name then vs.environment.unset (.ofString name)
            else vs.environment
          refused := vs.refused
            || (vs.isExported name && !Environment.admitsName (.ofString name)) } := by
  rw [unset]
  cases hexported : vs.isExported name with
  | true => rfl
  | false => simp

theorem get?_unset (vs : Variables) (name other : String) :
    (vs.unset name).get? other = if other = name then none else vs.get? other := by
  rw [unset_eq]
  exact getElem?_erase_key ..

theorem isExported_unset (vs : Variables) (name other : String) :
    (vs.unset name).isExported other = (other != name && vs.isExported other) := by
  rw [unset_eq, isExported, Bool.eq_iff_iff, Std.TreeSet.contains_iff_mem, mem_erase_key]
  simp [isExported]

theorem environment_unset (vs : Variables) (name : String) :
    (vs.unset name).environment
      = if vs.isExported name then vs.environment.unset (.ofString name)
        else vs.environment := by
  rw [unset_eq]

/-! ## Agreement with the environment -/

/-- What the environment holds for a variable: its value, if it is exported
and has one. -/
def published? (vs : Variables) (name : String) : Option Bytes :=
  if vs.isExported name then (vs.get? name).map .ofString else none

/-- The environment holds what is published of every valid name. -/
def Published (vs : Variables) : Prop :=
  ∀ name, isVariableName name = true →
    vs.environment.get? (.ofString name) = vs.published? name

theorem Published.assign {vs : Variables} (h : vs.Published) (name value : String) :
    (vs.assign name value).Published := by
  intro other hother
  have := h other hother
  rw [published?, isExported_assign, get?_assign, environment_assign]
  rw [published?] at this
  by_cases hexported : vs.isExported name = true
  · rw [if_pos hexported, Environment.get?_set]
    by_cases heq : other = name
    · rw [heq, if_pos rfl, if_pos rfl, if_pos hexported]
      rfl
    · rw [if_neg (by simpa using heq), if_neg heq, this]
  · rw [if_neg hexported, this]
    by_cases heq : other = name
    · rw [heq, if_neg hexported, if_neg hexported]
    · rw [if_neg heq]

theorem Published.exportName {vs : Variables} (h : vs.Published) (name : String)
    (value : Option String) : (vs.exportName name value).Published := by
  intro other hother
  have := h other hother
  rw [published?, isExported_exportName, get?_exportName, environment_exportName]
  rw [published?] at this
  by_cases heq : other = name
  · subst heq
    rw [beq_self_eq_true, Bool.true_or, if_pos rfl, if_pos rfl]
    cases hvalue : value.or (vs.get? other) with
    | some value => exact (Environment.get?_set ..).trans (if_pos rfl)
    | none =>
        rw [(Option.or_eq_none_iff.mp hvalue).2] at this
        simpa using this
  · rw [beq_eq_false_iff_ne.mpr heq, Bool.false_or, if_neg heq, ← this]
    split
    · exact (Environment.get?_set ..).trans (if_neg (by simpa using heq))
    · rfl

theorem Published.unset {vs : Variables} (h : vs.Published) (name : String) :
    (vs.unset name).Published := by
  intro other hother
  have := h other hother
  rw [published?, isExported_unset, get?_unset, environment_unset]
  rw [published?] at this
  by_cases heq : other = name
  · subst heq
    by_cases hexported : vs.isExported other = true
    · rw [if_pos hexported, Environment.get?_unset, if_pos rfl]
      simp
    · rw [if_neg hexported, this, if_neg hexported]
      simp
  · rw [bne_iff_ne.mpr heq, Bool.true_and, if_neg heq, ← this]
    split
    · exact (Environment.get?_unset ..).trans (if_neg (by simpa using heq))
    · rfl

/-! ## The variables a session starts with -/

theorem foldl_inherit (pairs : List (String × String)) (vs : Variables) :
    pairs.foldl (fun vs (name, value) =>
        { vs with values := vs.values.insert name value, exported := vs.exported.insert name }) vs
      = { vs with
          values := pairs.foldl (fun vars pair => vars.insert pair.1 pair.2) vs.values
          exported := pairs.foldl (fun names pair => names.insert pair.1) vs.exported } := by
  induction pairs generalizing vs with
  | nil => rfl
  | cons pair pairs ih => exact ih _

theorem get?_inherit (env : Environment) (name : String) :
    (inherit env).get? name = (env.filterMap inheritable?).reverse.lookup name := by
  rw [inherit, foldl_inherit, get?, getElem?_foldl_insert]
  simp

theorem isExported_inherit (env : Environment) (name : String) :
    (inherit env).isExported name = true
      ↔ ∃ value, (name, value) ∈ env.filterMap inheritable? := by
  rw [inherit, foldl_inherit, isExported, Std.TreeSet.contains_iff_mem, mem_foldl_insert]
  simp

theorem environment_inherit (env : Environment) : (inherit env).environment = env := by
  rw [inherit, foldl_inherit]

theorem mem_inheritable_iff {env : Environment} {name value : String} :
    (name, value) ∈ env.filterMap inheritable?
      ↔ isVariableName name = true ∧ (.ofString name, .ofString value) ∈ env := by
  rw [List.mem_filterMap]
  constructor
  · rintro ⟨⟨key, bytes⟩, hmem, h⟩
    simp only [inheritable?, Option.bind_eq_bind, Option.bind_eq_some_iff,
      Bytes.text?_eq_some_iff] at h
    obtain ⟨name', rfl, value', rfl, h⟩ := h
    split at h
    · rename_i hname
      obtain ⟨rfl, rfl⟩ := Prod.mk.inj (Option.some.inj h)
      exact ⟨hname, hmem⟩
    · cases h
  · rintro ⟨hname, hmem⟩
    exact ⟨_, hmem, by simp [inheritable?, hname]⟩

theorem published_inherit {env : Environment} (hdistinct : env.names.Nodup)
    (htext : ∀ name value, isVariableName name = true → (.ofString name, value) ∈ env →
      ∃ text, value = .ofString text) : (inherit env).Published := by
  intro name hname
  rw [environment_inherit, published?, get?_inherit]
  cases hget : env.get? (.ofString name) with
  | none =>
      rw [if_neg]
      intro hexported
      obtain ⟨value, hvalue⟩ := (isExported_inherit env name).mp hexported
      have := List.mem_map_of_mem (f := Prod.fst) (mem_inheritable_iff.mp hvalue).2
      exact Environment.get?_eq_none_iff.mp hget this
  | some bytes =>
      have hmem := Environment.mem_of_get? hget
      obtain ⟨text, rfl⟩ := htext name bytes hname hmem
      have hpair := mem_inheritable_iff.mpr ⟨hname, hmem⟩
      rw [if_pos ((isExported_inherit env name).mpr ⟨text, hpair⟩)]
      cases hlookup : (env.filterMap inheritable?).reverse.lookup name with
      | none =>
          have := List.lookup_eq_none_iff.mp hlookup _ (List.mem_reverse.mpr hpair)
          simp at this
      | some found =>
          -- The last entry for the name is the only one.
          obtain ⟨front, back, heq, -⟩ := List.lookup_eq_some_iff.mp hlookup
          have hfound : (name, found) ∈ env.filterMap inheritable? := by
            rw [← List.mem_reverse, heq]
            simp
          have hentry := (mem_inheritable_iff.mp hfound).2
          rw [← Environment.get?_eq_some_iff hdistinct, hget] at hentry
          exact hentry

/-! ## Every other entry -/

/-- The bytes are not the name of a variable. -/
def IsForeign (key : Bytes) : Prop :=
  ∀ name, isVariableName name = true → key ≠ .ofString name

/-- The variables belong to a session that started in `env`. -/
structure StartedIn (env : Environment) (vs : Variables) : Prop where
  published : vs.Published
  foreign : ∀ key, IsForeign key → vs.environment.get? key = env.get? key
  distinct : vs.environment.names.Nodup

theorem startedIn_inherit {env : Environment} (hdistinct : env.names.Nodup)
    (htext : ∀ name value, isVariableName name = true → (.ofString name, value) ∈ env →
      ∃ text, value = .ofString text) : StartedIn env (inherit env) where
  published := published_inherit hdistinct htext
  foreign key _ := by rw [environment_inherit]
  distinct := by rwa [environment_inherit]

/-- The environment after one change of a variable. -/
theorem environment_apply (vs : Variables) (u : Update) :
    (u.apply vs).environment = vs.environment
      ∨ (∃ value, (u.apply vs).environment = vs.environment.set (.ofString u.name) value)
      ∨ (u.apply vs).environment = vs.environment.unset (.ofString u.name) := by
  cases u with
  | assign name value =>
      rw [Update.apply, environment_assign]
      split
      · exact Or.inr (Or.inl ⟨_, rfl⟩)
      · exact Or.inl rfl
  | export_ name value =>
      rw [Update.apply, environment_exportName]
      split
      · exact Or.inr (Or.inl ⟨_, rfl⟩)
      · exact Or.inl rfl
  | unset name =>
      rw [Update.apply, environment_unset]
      split
      · exact Or.inr (Or.inr rfl)
      · exact Or.inl rfl

theorem StartedIn.apply {env : Environment} {vs : Variables} (h : StartedIn env vs) {u : Update}
    (hname : isVariableName u.name = true) : StartedIn env (u.apply vs) where
  published := by
    cases u with
    | assign name value => exact h.published.assign name value
    | export_ name value => exact h.published.exportName name value
    | unset name => exact h.published.unset name
  foreign key hkey := by
    rw [← h.foreign key hkey]
    have hne := hkey u.name hname
    rcases environment_apply vs u with heq | ⟨value, heq⟩ | heq
    · rw [heq]
    · rw [heq, Environment.get?_set, if_neg hne]
    · rw [heq, Environment.get?_unset, if_neg hne]
  distinct := by
    rcases environment_apply vs u with heq | ⟨value, heq⟩ | heq
    · rw [heq]
      exact h.distinct
    · rw [heq]
      exact Environment.nodup_names_set h.distinct
    · rw [heq]
      exact Environment.nodup_names_unset h.distinct

end Variables

/-! ## Sessions -/

namespace Session

/-- **What jobs inherit.** After any lines, a valid name is in the
environment exactly if it is exported and has a value, and with that value;
it is absent if it has no value and if it was only assigned. The entries
under other names are those the session started with. -/
theorem environment_afterLines {env : Environment} {s : Session} (lines : List String)
    (hdistinct : env.names.Nodup)
    (htext : ∀ name value, isVariableName name = true → (.ofString name, value) ∈ env →
      ∃ text, value = .ofString text)
    (hs : s.vars = Variables.inherit env) :
    (∀ name, isVariableName name = true →
        (∀ bytes, (s.afterLines lines).vars.environment.get? (.ofString name) = some bytes
          ↔ (s.afterLines lines).vars.isExported name = true
            ∧ ∃ value, (s.afterLines lines).vars.get? name = some value ∧ bytes = .ofString value)
        ∧ ((s.afterLines lines).vars.get? name = none
            ∨ (s.afterLines lines).vars.isExported name = false →
          .ofString name ∉ (s.afterLines lines).vars.environment.names))
      ∧ (s.afterLines lines).vars.environment.names.Nodup
      ∧ ∀ entry : Bytes × Bytes, Variables.IsForeign entry.1 →
          (entry ∈ (s.afterLines lines).vars.environment ↔ entry ∈ env) := by
  have hstarted : Variables.StartedIn env (s.afterLines lines).vars :=
    (afterLines_vars s lines).induction (fun vs u hname h => h.apply hname)
      (hs ▸ Variables.startedIn_inherit hdistinct htext)
  generalize (s.afterLines lines).vars = vs at hstarted
  refine ⟨fun name hname => ⟨fun bytes => ?_, fun h => ?_⟩, hstarted.distinct, ?_⟩
  · rw [hstarted.published name hname, Variables.published?]
    by_cases hexported : vs.isExported name = true
    · rw [if_pos hexported, Option.map_eq_some_iff]
      simp [hexported, eq_comm]
    · rw [if_neg hexported]
      simp [hexported]
  · rw [← Environment.get?_eq_none_iff, hstarted.published name hname, Variables.published?]
    rcases h with h | h
    · rw [h]
      simp
    · rw [h]
      rfl
  · rintro ⟨key, value⟩ hkey
    rw [← Environment.get?_eq_some_iff hstarted.distinct,
      ← Environment.get?_eq_some_iff hdistinct, hstarted.foreign key hkey]

/-- Removing the variables that a session can name leaves the others. -/
theorem mem_environment_after_unset :
    ([97, 32, 98], [255])
      ∈ (afterLines
          { vars := Variables.inherit [(.ofString "LANG", .ofString "C"), ([97, 32, 98], [255])]
            directory := Machine.Tree.root
            supervisor :=
              { host := .ofStreams (.fresh []) ⟨.report, 0, .input⟩ ⟨.report, 0, .output⟩
                  ⟨.report, 0, .output⟩
                notices := .ofCapacity 1 } }
          ["unset LANG", "export LANG"]).vars.environment := by
  have hkey : ([97, 32, 98] : Bytes) = Bytes.ofString "a b" := by decide
  have hforeign : Variables.IsForeign [97, 32, 98] := by
    intro name hname h
    rw [hkey, Bytes.ofString_inj] at h
    subst h
    exact absurd hname (by decide)
  refine ((environment_afterLines _ ?_ ?_ rfl).2.2 ([97, 32, 98], [255]) hforeign).mpr ?_
  · decide
  · intro name value hname hmem
    rcases List.mem_cons.mp hmem with h | h
    · exact ⟨"C", (Prod.mk.inj h).2⟩
    · obtain ⟨h, -⟩ := Prod.mk.inj (List.mem_singleton.mp h)
      exact (hforeign name hname h.symm).elim
  · decide

end Session

end JobShell
