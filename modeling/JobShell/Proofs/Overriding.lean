import JobShell.Proofs.Environments
import JobShell.Proofs.Utf8

/-!
# What a stage makes of the environment it inherits

`override` walks the inherited entries with the variables that are still to be
placed: an entry takes the value of its variable and uses the variable up
(`override_cons`). So a variable goes to the first entry of its name
(`getElem?_override_fst`), and the variables left over are those whose name is
not inherited (`getElem?_override_snd`). From the two follows the shape of the
environment of a stage (`merges_forStage`).

A started process finds the last entry of a name (`get?_forProcess`), not the
first. The two differ where a name is inherited more than once
(`get?_forProcess_forStage`).
-/

namespace JobShell.Environment

variable {inherited env : Environment} {vars : Bindings} {key : Bytes}
  {name value : String}

/-! ## Variables by the names of entries -/

/-- What `vars` assigns to an entry named `key`. A name that is no text is the
name of no variable. -/
def value? (vars : Bindings) (key : Bytes) : Option Bytes :=
  (key.text?.bind fun text => vars[text]?).map .ofString

theorem value?_ofString : value? vars (.ofString name) = vars[name]?.map .ofString := by
  rw [value?, Bytes.text?_ofString, Option.bind_some]

theorem value?_eq_some_iff {bytes : Bytes} :
    value? vars key = some bytes
      ↔ ∃ name value, vars[name]? = some value ∧ key = .ofString name
          ∧ bytes = .ofString value := by
  simp only [value?, Option.map_eq_some_iff, Option.bind_eq_some_iff, Bytes.text?_eq_some_iff]
  constructor
  · rintro ⟨value, ⟨name, hkey, hvalue⟩, rfl⟩
    exact ⟨name, value, hvalue, hkey, rfl⟩
  · rintro ⟨name, value, hvalue, hkey, rfl⟩
    exact ⟨value, ⟨name, hkey, hvalue⟩, rfl⟩

theorem value?_erase :
    value? (vars.erase name) key = if key = .ofString name then none else value? vars key := by
  apply Option.ext
  intro bytes
  rw [value?_eq_some_iff]
  simp only [getElem?_erase_key]
  split
  next h =>
    subst h
    simp
  next h =>
    rw [value?_eq_some_iff]
    refine exists_congr fun other => exists_congr fun value => and_congr_left ?_
    rintro ⟨rfl, -⟩
    rw [if_neg fun heq => h (by rw [heq])]

/-! ## One entry after the other -/

/-- What becomes of the first entry: it stays as it is, or it takes the value
of its variable, which is not there for the entries behind it. -/
theorem override_cons (vars : Bindings) (entry : Bytes × Bytes) (rest : Environment) :
    (value? vars entry.1 = none
        ∧ override vars (entry :: rest)
          = (entry :: (override vars rest).1, (override vars rest).2))
      ∨ ∃ name value, vars[name]? = some value ∧ entry.1 = .ofString name
          ∧ override vars (entry :: rest)
            = ((entry.1, .ofString value) :: (override (vars.erase name) rest).1,
                (override (vars.erase name) rest).2) := by
  rw [override]
  split
  next text assigned h =>
    obtain ⟨text', htext, hmap⟩ := Option.bind_eq_some_iff.mp h
    obtain ⟨value, hvalue, heq⟩ := Option.map_eq_some_iff.mp hmap
    obtain ⟨rfl, rfl⟩ := Prod.mk.inj heq
    exact Or.inr ⟨_, _, hvalue, Bytes.text?_eq_some_iff.mp htext, rfl⟩
  next h =>
    refine Or.inl ⟨?_, rfl⟩
    rw [Option.eq_none_iff_forall_ne_some]
    intro bytes hbytes
    obtain ⟨name, value, hvalue, hname, -⟩ := value?_eq_some_iff.mp hbytes
    rw [hname, Bytes.text?_ofString, Option.bind_some, hvalue] at h
    cases h

/-- The entry at one position: it is overridden if it is the first of its name
and there is a variable of this name. -/
theorem getElem?_override_fst (vars : Bindings) (env : Environment) (i : Nat) :
    (env.override vars).1[i]? = env[i]?.map fun entry =>
      (entry.1, if entry.1 ∈ names (env.take i) then entry.2
        else (value? vars entry.1).getD entry.2) := by
  induction env generalizing vars i with
  | nil => rfl
  | cons first rest ih =>
      rcases override_cons vars first rest with
        ⟨hnone, heq⟩ | ⟨name, value, hvalue, hname, heq⟩
      · rw [heq]
        cases i with
        | zero => simp [hnone]
        | succ i =>
            rw [List.getElem?_cons_succ, List.getElem?_cons_succ, ih, List.take_succ_cons,
              names_cons]
            refine congrFun (congrArg Option.map (funext fun entry => ?_)) _
            by_cases hfirst : entry.1 = first.1
            · simp [hfirst, hnone]
            · simp [hfirst]
      · rw [heq]
        cases i with
        | zero => simp [hname, value?_ofString, hvalue]
        | succ i =>
            rw [List.getElem?_cons_succ, List.getElem?_cons_succ, ih, List.take_succ_cons,
              names_cons]
            refine congrFun (congrArg Option.map (funext fun entry => ?_)) _
            by_cases hfirst : entry.1 = first.1
            · simp [hfirst, hname, value?_erase]
            · simp [hfirst, value?_erase, ← hname]

theorem getElem?_names (env : Environment) (i : Nat) :
    env.names[i]? = env[i]?.map Prod.fst := List.getElem?_map

theorem names_override (vars : Bindings) (env : Environment) :
    (env.override vars).1.names = env.names := by
  apply List.ext_getElem?
  intro i
  rw [getElem?_names, getElem?_names, getElem?_override_fst, Option.map_map]
  rfl

theorem length_override : (env.override vars).1.length = env.length := by
  have h := congrArg List.length (names_override vars env)
  rwa [names, names, List.length_map, List.length_map] at h

/-- The variables left over are those whose name no entry has. -/
theorem getElem?_override_snd (vars : Bindings) (env : Environment) (name : String) :
    (env.override vars).2[name]? = if .ofString name ∈ env.names then none else vars[name]? := by
  induction env generalizing vars with
  | nil => simp [override]
  | cons first rest ih =>
      rcases override_cons vars first rest with
        ⟨hnone, heq⟩ | ⟨other, value, -, hother, heq⟩
      · rw [heq]
        by_cases hfirst : Bytes.ofString name = first.1
        · rw [← hfirst, value?_ofString, Option.map_eq_none_iff] at hnone
          simp [ih, hnone]
        · simp [ih, hfirst]
      · rw [heq, ih, getElem?_erase_key, names_cons, hother]
        by_cases hname : name = other
        · simp [hname]
        · simp [hname]

/-! ## The environment of a stage -/

/-- The first entry for `key` is the one at position `i`. -/
def IsFirst (env : Environment) (key : Bytes) (i : Nat) : Prop :=
  env.names[i]? = some key ∧ key ∉ names (env.take i)

theorem exists_isFirst (h : key ∈ env.names) : ∃ i, env.IsFirst key i := by
  induction env with
  | nil => cases h
  | cons first rest ih =>
      by_cases hfirst : key = first.1
      · exact ⟨0, by simp [IsFirst, hfirst]⟩
      · obtain ⟨i, hi⟩ := ih ((List.mem_cons.mp h).resolve_left hfirst)
        refine ⟨i + 1, ?_⟩
        rw [IsFirst, names_cons, List.getElem?_cons_succ, List.take_succ_cons, names_cons,
          List.mem_cons, not_or]
        exact ⟨hi.1, hfirst, hi.2⟩

theorem IsFirst.unique {i j : Nat} (hi : env.IsFirst key i) (hj : env.IsFirst key j) :
    i = j := by
  have hle : ∀ {i j : Nat}, env.IsFirst key i → env.IsFirst key j → i ≤ j := by
    intro i j hi hj
    by_contra hlt
    refine hi.2 ?_
    rw [names, List.map_take]
    refine List.mem_of_getElem? (i := j) ?_
    rw [List.getElem?_take, if_pos (by omega)]
    exact hj.1
  exact Nat.le_antisymm (hle hi hj) (hle hj hi)

/-- Positions of the environment of a stage whose entries are variables of the
stage: those behind the inherited entries, and those of the inherited entries
that are the first of the name of a variable. -/
def IsAssigned (inherited : Environment) (vars : Bindings) (i : Nat) : Prop :=
  inherited.length ≤ i ∨ ∃ name, name ∈ vars ∧ inherited.IsFirst (.ofString name) i

/-- The entries `kept` in the places of the inherited ones and the entries
`added` behind them are the environment of a stage with the variables `vars`. -/
structure Merges (inherited : Environment) (vars : Bindings) (kept added : Environment) :
    Prop where
  /-- As many entries as there were, with their names in their places. -/
  names_kept : kept.names = inherited.names
  ascending : added.names.Pairwise (· < ·)
  /-- The variables of no inherited entry are added, and nothing else. -/
  mem_added : ∀ entry, entry ∈ added ↔ entry.1 ∉ inherited.names
    ∧ ∃ name value, vars[name]? = some value ∧ entry = (.ofString name, .ofString value)
  /-- A variable that is inherited goes to the first entry of its name. -/
  first : ∀ name value i, vars[name]? = some value → inherited.IsFirst (.ofString name) i →
    kept[i]? = some (.ofString name, .ofString value)
  /-- Every variable has one place. -/
  once : ∀ name value, vars[name]? = some value →
    ∃! i, inherited.IsAssigned vars i
      ∧ (kept ++ added)[i]? = some (.ofString name, .ofString value)
  /-- No other entry changes. -/
  others : ∀ i, ¬ inherited.IsAssigned vars i → (kept ++ added)[i]? = inherited[i]?

/-- The variables that have no place among the inherited entries, by name. -/
def leftover (inherited : Environment) (vars : Bindings) : Environment :=
  (inherited.override vars).2.toList.map fun pair => (.ofString pair.1, .ofString pair.2)

theorem forStage_eq : inherited.forStage vars = (inherited.override vars).1
    ++ inherited.leftover vars := rfl

theorem mem_leftover {entry : Bytes × Bytes} :
    entry ∈ inherited.leftover vars ↔ entry.1 ∉ inherited.names
      ∧ ∃ name value, vars[name]? = some value ∧ entry = (.ofString name, .ofString value) := by
  rw [leftover, List.mem_map]
  constructor
  · rintro ⟨⟨name, value⟩, hmem, rfl⟩
    rw [Std.TreeMap.mem_toList_iff_getElem?_eq_some, getElem?_override_snd] at hmem
    split at hmem
    · cases hmem
    · exact ⟨‹_›, name, value, hmem, rfl⟩
  · rintro ⟨hnot, name, value, hvalue, rfl⟩
    refine ⟨(name, value), ?_, rfl⟩
    rw [Std.TreeMap.mem_toList_iff_getElem?_eq_some, getElem?_override_snd, if_neg hnot]
    exact hvalue

/-- Every name of the environment of a stage is inherited or one of a variable. -/
theorem mem_names_forStage (h : key ∈ (inherited.forStage vars).names) :
    key ∈ inherited.names ∨ ∃ name value, vars[name]? = some value ∧ key = .ofString name := by
  rw [forStage_eq, names_append, names_override, List.mem_append] at h
  rcases h with h | h
  · exact Or.inl h
  · obtain ⟨entry, hmem, rfl⟩ := List.mem_map.mp h
    obtain ⟨-, name, value, hvalue, rfl⟩ := mem_leftover.mp hmem
    exact Or.inr ⟨name, value, hvalue, rfl⟩

theorem ascending_leftover : (inherited.leftover vars).names.Pairwise (· < ·) := by
  have hkeys : (inherited.leftover vars).names
      = (inherited.override vars).2.keys.map Bytes.ofString := by
    rw [leftover, names, List.map_map, ← Std.TreeMap.map_fst_toList_eq_keys, List.map_map]
    rfl
  rw [hkeys, List.pairwise_map]
  refine Std.TreeMap.ordered_keys.imp fun {name other} h => Bytes.ofString_lt ?_
  exact compareOfLessAndEq_eq_lt.mp h

theorem getElem?_override_of_isFirst {i : Nat} (hvalue : vars[name]? = some value)
    (hfirst : inherited.IsFirst (.ofString name) i) :
    (inherited.override vars).1[i]? = some (.ofString name, .ofString value) := by
  obtain ⟨hname, hnot⟩ := hfirst
  rw [getElem?_names] at hname
  obtain ⟨entry, hentry, heq⟩ := Option.map_eq_some_iff.mp hname
  rw [getElem?_override_fst, hentry, Option.map_some, heq, if_neg hnot, value?_ofString, hvalue]
  rfl

theorem getElem?_override_of_not_isAssigned {i : Nat} (h : ¬ inherited.IsAssigned vars i) :
    (inherited.override vars).1[i]? = inherited[i]? := by
  obtain ⟨-, hnot⟩ := not_or.mp h
  rw [getElem?_override_fst]
  cases hentry : inherited[i]? with
  | none => rfl
  | some entry =>
      rw [Option.map_some]
      split
      · rfl
      next hmem =>
        cases hvalue : value? vars entry.1 with
        | none => rfl
        | some bytes =>
            obtain ⟨name, value, hvalue, hname, -⟩ := value?_eq_some_iff.mp hvalue
            refine (hnot ⟨name, ?_, ?_, hname ▸ hmem⟩).elim
            · exact Std.TreeMap.mem_iff_isSome_getElem?.mpr (by rw [hvalue]; rfl)
            · rw [getElem?_names, hentry, Option.map_some, hname]

/-- Which entry stands at an assigned position: behind the inherited entries one
that is left over, elsewhere the first of its name. -/
theorem IsAssigned.place {i : Nat} {entry : Bytes × Bytes} (hi : inherited.IsAssigned vars i)
    (hentry : (inherited.forStage vars)[i]? = some entry) :
    (∃ k, i = inherited.length + k ∧ entry.1 ∉ inherited.names
        ∧ (inherited.leftover vars).names[k]? = some entry.1)
      ∨ inherited.IsFirst entry.1 i := by
  rw [forStage_eq] at hentry
  rcases hi with hle | ⟨name, -, hfirst⟩
  · obtain ⟨k, rfl⟩ := Nat.exists_eq_add_of_le hle
    rw [List.getElem?_append_right (by rw [length_override]; omega), length_override,
      Nat.add_sub_cancel_left] at hentry
    refine Or.inl ⟨k, rfl, (mem_leftover.mp (List.mem_of_getElem? hentry)).1, ?_⟩
    rw [getElem?_names, hentry, Option.map_some]
  · have hlt : i < inherited.length := by
      have h := (List.getElem?_eq_some_iff.mp hfirst.1).1
      rwa [names, List.length_map] at h
    rw [List.getElem?_append_left (by rw [length_override]; exact hlt)] at hentry
    have heq : inherited.names[i]? = some entry.1 := by
      rw [← names_override vars inherited, getElem?_names, hentry, Option.map_some]
    rw [hfirst.1] at heq
    exact Or.inr (Option.some.inj heq ▸ hfirst)

/-- No two assigned positions hold entries of one name. -/
theorem IsAssigned.unique {i j : Nat} {entry other : Bytes × Bytes}
    (hi : inherited.IsAssigned vars i) (hj : inherited.IsAssigned vars j)
    (hentry : (inherited.forStage vars)[i]? = some entry)
    (hother : (inherited.forStage vars)[j]? = some other) (hname : entry.1 = other.1) :
    i = j := by
  have hinherited : ∀ {i key}, inherited.IsFirst key i → key ∈ inherited.names :=
    fun h => List.mem_of_getElem? h.1
  rcases hi.place hentry with ⟨k, rfl, hnot, hk⟩ | hfirst
  · rcases hj.place hother with ⟨l, rfl, -, hl⟩ | hfirst
    · have hnodup : (inherited.leftover vars).names.Nodup := ascending_leftover.nodup
      have hlt : k < (inherited.leftover vars).names.length :=
        (List.getElem?_eq_some_iff.mp hk).1
      rw [(List.getElem?_inj hlt hnodup).mp (hk.trans (hname ▸ hl.symm))]
    · exact (hnot (hname ▸ hinherited hfirst)).elim
  · rcases hj.place hother with ⟨l, -, hnot, -⟩ | hfirst'
    · exact (hnot (hname ▸ hinherited hfirst)).elim
    · exact hfirst.unique (hname ▸ hfirst')

theorem merges_override (inherited : Environment) (vars : Bindings) :
    inherited.Merges vars (inherited.override vars).1 (inherited.leftover vars) where
  names_kept := names_override vars inherited
  ascending := ascending_leftover
  mem_added _ := mem_leftover
  first _ _ _ := getElem?_override_of_isFirst
  once name value hvalue := by
    have hplaced : ∃ i, inherited.IsAssigned vars i
        ∧ (inherited.forStage vars)[i]? = some (.ofString name, .ofString value) := by
      by_cases hmem : Bytes.ofString name ∈ inherited.names
      · obtain ⟨i, hi⟩ := exists_isFirst hmem
        have hentry := getElem?_override_of_isFirst hvalue hi
        refine ⟨i, Or.inr ⟨name, ?_, hi⟩, ?_⟩
        · exact Std.TreeMap.mem_iff_isSome_getElem?.mpr (by rw [hvalue]; rfl)
        · rw [forStage_eq, List.getElem?_append_left (List.getElem?_eq_some_iff.mp hentry).1]
          exact hentry
      · obtain ⟨i, hi⟩ := List.mem_iff_getElem?.mp
          (mem_leftover.mpr ⟨hmem, name, value, hvalue, rfl⟩)
        refine ⟨inherited.length + i, Or.inl (Nat.le_add_right ..), ?_⟩
        rw [forStage_eq, List.getElem?_append_right (by rw [length_override]; omega),
          length_override, Nat.add_sub_cancel_left]
        exact hi
    obtain ⟨i, hi, hentry⟩ := hplaced
    exact ⟨i, ⟨hi, hentry⟩, fun j hj => hj.1.unique hi hj.2 hentry rfl⟩
  others i hi := by
    have hlt : i < inherited.length := Nat.lt_of_not_le (not_or.mp hi).1
    rw [List.getElem?_append_left (by rw [length_override]; exact hlt)]
    exact getElem?_override_of_not_isAssigned hi

theorem forStage_congr {other : Bindings} (h : ∀ name : String, vars[name]? = other[name]?) :
    inherited.forStage vars = inherited.forStage other := by
  have hvalue : ∀ key, value? vars key = value? other key := fun key => by
    rw [value?, value?, funext h]
  have hkept : (inherited.override vars).1 = (inherited.override other).1 := by
    apply List.ext_getElem?
    intro i
    simp only [getElem?_override_fst, hvalue]
  have hleft : (inherited.override vars).2.toList = (inherited.override other).2.toList := by
    refine Std.TreeMap.Equiv.toList_eq (Std.TreeMap.Equiv.of_forall_constGet?_eq fun name => ?_)
    rw [getElem?_override_snd, getElem?_override_snd, h]
  rw [forStage_eq, forStage_eq, leftover, leftover, hkept, hleft]

theorem getElem?_ofList_of_perm {pairs : List (String × String)} (h : pairs.Perm vars.toList)
    (name : String) : (Std.TreeMap.ofList pairs)[name]? = vars[name]? := by
  have hdistinct : pairs.Pairwise fun a b => ¬ compare a.1 b.1 = .eq := by
    refine (h.pairwise_iff fun {a b} hne heq => hne ?_).mpr Std.TreeMap.distinct_keys_toList
    exact Std.OrientedCmp.eq_symm heq
  cases hvalue : vars[name]? with
  | some value =>
      have hmem : (name, value) ∈ pairs :=
        h.mem_iff.mpr (Std.TreeMap.mem_toList_iff_getElem?_eq_some.mpr hvalue)
      exact Std.TreeMap.getElem?_ofList_of_mem Std.ReflCmp.compare_self hdistinct hmem
  | none =>
      refine Std.TreeMap.getElem?_ofList_of_contains_eq_false ?_
      rw [Bool.eq_false_iff, ne_eq, List.contains_iff_mem, List.mem_map]
      rintro ⟨⟨other, value⟩, hmem, rfl⟩
      rw [Std.TreeMap.mem_toList_iff_getElem?_eq_some.mp (h.mem_iff.mp hmem)] at hvalue
      cases hvalue

/-- The environment of a stage is the inherited one with the variables in
their places, whatever the order in which the variables are gathered. -/
theorem merges_forStage (inherited : Environment) (vars : Bindings) :
    (∃ kept added, inherited.forStage vars = kept ++ added ∧ inherited.Merges vars kept added)
      ∧ ∀ pairs : List (String × String), pairs.Perm vars.toList →
        inherited.forStage (.ofList pairs) = inherited.forStage vars :=
  ⟨⟨_, _, forStage_eq, merges_override inherited vars⟩,
    fun _ h => forStage_congr (getElem?_ofList_of_perm h)⟩

/-! ## What a started process finds -/

theorem last?_override_of_none (h : value? vars key = none) :
    (env.override vars).1.last? key = env.last? key := by
  induction env generalizing vars with
  | nil => rfl
  | cons first rest ih =>
      rcases override_cons vars first rest with
        ⟨-, heq⟩ | ⟨name, value, hvalue, hname, heq⟩
      · rw [heq, last?_cons, last?_cons, ih h]
      · have hkey : key ≠ first.1 := by
          rintro rfl
          rw [hname, value?_ofString, hvalue] at h
          cases h
        have herase : value? (vars.erase name) key = none := by
          rw [value?_erase, h, ite_self]
        rw [heq, last?_cons, last?_cons, ih herase, if_neg hkey, if_neg hkey]

/-- The variable of a name is used up by the first entry: a later one keeps
the value it has. -/
theorem last?_override_of_some {bytes : Bytes} (h : value? vars key = some bytes) :
    (env.override vars).1.last? key
      = if 1 < env.names.count key then env.last? key
        else if key ∈ env.names then some bytes else none := by
  induction env generalizing vars with
  | nil => rfl
  | cons first rest ih =>
      rcases override_cons vars first rest with
        ⟨hnone, heq⟩ | ⟨name, value, hvalue, hname, heq⟩
      · have hkey : key ≠ first.1 := by
          rintro rfl
          rw [hnone] at h
          cases h
        rw [heq, last?_cons, last?_cons, ih h, if_neg hkey, Option.or_none, Option.or_none,
          names_cons, List.count_cons_of_ne hkey.symm]
        simp [hkey]
      by_cases hkey : key = first.1
      · have hbytes : bytes = .ofString value := by
          rw [hkey, hname, value?_ofString, hvalue] at h
          exact (Option.some.inj h).symm
        have herase : value? (vars.erase name) key = none := by
          rw [value?_erase, if_pos (hkey.trans hname)]
        rw [heq, last?_cons, last?_cons, last?_override_of_none herase, if_pos hkey, if_pos hkey,
          names_cons, ← hkey, List.count_cons_self, hbytes]
        -- Whatever the first entry holds, a later one of its name is the last.
        by_cases hrest : key ∈ names rest
        · have hcount := List.count_pos_iff.mpr hrest
          obtain ⟨later, hlater⟩ := Option.ne_none_iff_exists'.mp
            (last?_eq_none_iff.not.mpr (not_not.mpr hrest))
          rw [if_pos (by omega), hlater]
          rfl
        · rw [if_neg (by rw [List.count_eq_zero.mpr hrest]; omega), last?_eq_none_iff.mpr hrest]
          simp
      · have herase : value? (vars.erase name) key = some bytes := by
          rw [value?_erase, if_neg (hname ▸ hkey), h]
        rw [heq, last?_cons, last?_cons, ih herase, if_neg hkey, if_neg hkey, Option.or_none,
          Option.or_none, names_cons, List.count_cons_of_ne (Ne.symm hkey)]
        simp [hkey]

theorem last?_forStage (h : vars[name]? = some value) :
    (inherited.forStage vars).last? (.ofString name)
      = if 1 < inherited.names.count (.ofString name) then inherited.last? (.ofString name)
        else some (.ofString value) := by
  have hvalue : value? vars (.ofString name) = some (.ofString value) := by
    rw [value?_ofString, h]
    rfl
  rw [forStage_eq, last?_append, last?_override_of_some hvalue]
  by_cases hmem : Bytes.ofString name ∈ inherited.names
  · have hleft : (inherited.leftover vars).last? (.ofString name) = none := by
      rw [last?_eq_none_iff, names, List.mem_map]
      rintro ⟨entry, hentry, heq⟩
      exact (mem_leftover.mp hentry).1 (heq ▸ hmem)
    rw [hleft, Option.none_or, if_pos hmem]
  · have hleft : (inherited.leftover vars).last? (.ofString name) = some (.ofString value) := by
      have hnodup : (names (inherited.leftover vars).reverse).Nodup := by
        rw [names, List.map_reverse, List.nodup_reverse]
        exact ascending_leftover.nodup
      rw [last?, get?_eq_some_iff hnodup, List.mem_reverse]
      exact mem_leftover.mpr ⟨hmem, name, value, h, rfl⟩
    rw [hleft, List.count_eq_zero.mpr hmem]
    rfl

/-- A started process finds the value that its stage assigns, unless the name is
inherited more than once with another value at last: it finds that value. -/
theorem get?_forProcess_forStage (h : vars[name]? = some value) :
    (inherited.forStage vars).forProcess.get? (.ofString name)
        = (if 1 < inherited.names.count (.ofString name) then inherited.last? (.ofString name)
          else some (.ofString value))
      ∧ ((inherited.forStage vars).forProcess.get? (.ofString name) = some (.ofString value)
        ↔ inherited.names.count (.ofString name) ≤ 1
          ∨ inherited.last? (.ofString name) = some (.ofString value)) := by
  rw [get?_forProcess, last?_forStage h]
  refine ⟨rfl, ?_⟩
  split
  next hcount => simp [Nat.not_le_of_lt hcount]
  next hcount => simp [Nat.le_of_not_lt hcount]

theorem get?_forProcess_forStage_once :
    ∃ (inherited : Environment) (vars : Bindings), vars["LANG"]? = some "C"
      ∧ inherited.names.count (.ofString "LANG") = 1
      ∧ (inherited.forStage vars).forProcess.get? (.ofString "LANG") = some (.ofString "C") := by
  have hvalue : ((∅ : Bindings).insert "LANG" "C")["LANG"]? = some "C" := rfl
  refine ⟨[(.ofString "LANG", .ofString "en"), (.ofString "PATH", .ofString "/bin")], _, hvalue,
    by decide, ?_⟩
  exact (get?_forProcess_forStage hvalue).2.mpr (Or.inl (by decide))

/-- A name that is inherited twice: the variable goes to the first entry and the
process finds the last one. -/
theorem get?_forProcess_forStage_twice :
    let inherited : Environment :=
      [(.ofString "A", .ofString "1"), (.ofString "A", .ofString "2")]
    let vars : Bindings := (∅ : Bindings).insert "A" "x"
    vars["A"]? = some "x"
      ∧ (inherited.forStage vars).forProcess.get? (.ofString "A") ≠ some (.ofString "x") :=
  ⟨rfl, by decide +kernel⟩

end JobShell.Environment
