import JobShell.Proofs.Publication

/-!
# Several changes of the variables

Assignments, exports and removals are made one after the other, and a name
can be in several of them. What they make of each name comes down to the last
one that counts: the last assignment (`assigned_foldl`), the last export that
gives a value (`exported_foldl`), any removal (`forgotten_foldl`). Nothing is
different for a name that is in none of them (`AgreeBesides`), and the other
entries of the environment stay in their order.
-/

namespace JobShell

namespace Environment

variable {env : Environment} {name value : Bytes} {keys : List Bytes}

/-- The entries for other names are not moved. -/
theorem filter_set (h : name ∈ keys) :
    (env.set name value).filter (·.1 ∉ keys) = List.filter (·.1 ∉ keys) env := by
  induction env with
  | nil => simp [set, h]
  | cons entry rest ih =>
      by_cases hfirst : entry.1 = name
      · simp [set, hfirst, h]
      · rw [set, if_neg hfirst, List.filter_cons, List.filter_cons, ih]

theorem filter_unset (h : name ∈ keys) :
    (env.unset name).filter (·.1 ∉ keys) = List.filter (·.1 ∉ keys) env := by
  rw [unset, List.filter_filter]
  refine List.filter_congr fun entry _ => ?_
  by_cases hmem : entry.1 ∈ keys
  · simp [hmem]
  · have hne : entry.1 ≠ name := fun heq => hmem (heq ▸ h)
    simp [hmem, hne]

/-- What is found under a name depends on the entries that are not left out. -/
theorem get?_filter {key : Bytes} (h : key ∉ keys) :
    get? (List.filter (·.1 ∉ keys) env) key = env.get? key := by
  induction env with
  | nil => rfl
  | cons entry rest ih =>
      by_cases hmem : entry.1 ∈ keys
      · have hne : key ≠ entry.1 := fun heq => h (heq ▸ hmem)
        rw [List.filter_cons_of_neg (by simpa using hmem), ih, get?_cons, if_neg hne]
      · rw [List.filter_cons_of_pos (by simpa using hmem), get?_cons, get?_cons, ih]

end Environment

namespace Variables

variable {before after later : Variables} {names : List String} {name : String}

/-- Two states of the variables differ in nothing but these names. -/
structure AgreeBesides (names : List String) (before after : Variables) : Prop where
  value : ∀ name ∉ names, after.get? name = before.get? name
  mark : ∀ name ∉ names, after.isExported name = before.isExported name
  /-- The entries for other names, in their order. -/
  others : after.environment.filter (·.1 ∉ names.map Bytes.ofString)
    = before.environment.filter (·.1 ∉ names.map Bytes.ofString)

namespace AgreeBesides

theorem refl (names : List String) (vs : Variables) : AgreeBesides names vs vs :=
  ⟨fun _ _ => rfl, fun _ _ => rfl, rfl⟩

theorem trans (h : AgreeBesides names before after) (h' : AgreeBesides names after later) :
    AgreeBesides names before later where
  value name hname := (h'.value name hname).trans (h.value name hname)
  mark name hname := (h'.mark name hname).trans (h.mark name hname)
  others := h'.others.trans h.others

/-- One change differs in one name. -/
theorem apply (vs : Variables) {u : Update} (h : u.name ∈ names) :
    AgreeBesides names vs (u.apply vs) where
  value other hother := by
    have hne : other ≠ u.name := fun heq => hother (heq ▸ h)
    cases u with
    | assign name value => exact (get?_assign ..).trans (if_neg hne)
    | export_ name value => exact (get?_exportName ..).trans (if_neg hne)
    | unset name => exact (get?_unset ..).trans (if_neg hne)
  mark other hother := by
    have hne : other ≠ u.name := fun heq => hother (heq ▸ h)
    cases u with
    | assign name value => exact isExported_assign ..
    | export_ name value =>
        refine (isExported_exportName ..).trans ?_
        rw [beq_eq_false_iff_ne.mpr (show other ≠ name from hne), Bool.false_or]
    | unset name =>
        refine (isExported_unset ..).trans ?_
        rw [bne_iff_ne.mpr (show other ≠ name from hne), Bool.true_and]
  others := by
    have hmem := List.mem_map_of_mem (f := Bytes.ofString) h
    rcases environment_apply vs u with heq | ⟨value, heq⟩ | heq
    · rw [heq]
    · rw [heq, Environment.filter_set hmem]
    · rw [heq, Environment.filter_unset hmem]

theorem exportName (vs : Variables) (name : String) (value : Option String) :
    AgreeBesides [name] vs (vs.exportName name value) :=
  apply vs (u := .export_ name value) (List.mem_singleton_self name)

theorem unset (vs : Variables) (name : String) : AgreeBesides [name] vs (vs.unset name) :=
  apply vs (u := .unset name) (List.mem_singleton_self name)

theorem of_updates (h : UpdatesBy (·.name ∈ names) before after) :
    AgreeBesides names before after :=
  h.induction (R := AgreeBesides names before) (fun vs _ hname hvs => hvs.trans (apply vs hname))
    (refl names before)

theorem entry (h : AgreeBesides names before after) (hname : name ∉ names) :
    after.environment.get? (.ofString name) = before.environment.get? (.ofString name) := by
  have hkey : Bytes.ofString name ∉ names.map Bytes.ofString := fun hmem => by
    obtain ⟨other, hother, heq⟩ := List.mem_map.mp hmem
    exact hname (Bytes.ofString_inj.mp heq ▸ hother)
  rw [← Environment.get?_filter hkey, h.others, Environment.get?_filter hkey]

end AgreeBesides

/-! ## Assignments -/

/-- The pairs were assigned from left to right. Of two for one name the later
one counts, and only what is exported reaches the environment. -/
structure Assigned (pairs : List (String × String)) (before after : Variables) : Prop where
  steps : after = pairs.foldl (fun vs pair => vs.assign pair.1 pair.2) before
  value : ∀ name, after.get? name = (pairs.reverse.lookup name).or (before.get? name)
  mark : ∀ name, after.isExported name = before.isExported name
  entry : ∀ name, after.environment.get? (.ofString name)
    = if before.isExported name then
        ((pairs.reverse.lookup name).map .ofString).or (before.environment.get? (.ofString name))
      else before.environment.get? (.ofString name)
  besides : AgreeBesides (pairs.map Prod.fst) before after

theorem lookup_reverse_cons (pair : String × String) (pairs : List (String × String))
    (name : String) :
    (pair :: pairs).reverse.lookup name
      = (pairs.reverse.lookup name).or (if name = pair.1 then some pair.2 else none) := by
  rw [List.reverse_cons, List.lookup_append, List.lookup_cons, List.lookup_nil]
  by_cases h : name = pair.1
  · simp [h]
  · simp [h, beq_eq_false_iff_ne.mpr h]

theorem get?_foldl_assign (pairs : List (String × String)) (vs : Variables) (name : String) :
    (pairs.foldl (fun vs pair => vs.assign pair.1 pair.2) vs).get? name
      = (pairs.reverse.lookup name).or (vs.get? name) := by
  induction pairs generalizing vs with
  | nil => rfl
  | cons pair pairs ih =>
      rw [List.foldl_cons, ih, lookup_reverse_cons, Option.or_assoc, get?_assign]
      congr 1
      split <;> rfl

theorem isExported_foldl_assign (pairs : List (String × String)) (vs : Variables)
    (name : String) :
    (pairs.foldl (fun vs pair => vs.assign pair.1 pair.2) vs).isExported name
      = vs.isExported name := by
  induction pairs generalizing vs with
  | nil => rfl
  | cons pair pairs ih => rw [List.foldl_cons, ih, isExported_assign]

theorem entry_assign (vs : Variables) (name value other : String) :
    (vs.assign name value).environment.get? (.ofString other)
      = if vs.isExported other ∧ other = name then some (.ofString value)
        else vs.environment.get? (.ofString other) := by
  rw [environment_assign]
  by_cases heq : other = name
  · subst heq
    by_cases hexported : vs.isExported other = true
    · rw [if_pos hexported, if_pos ⟨hexported, rfl⟩, Environment.get?_set, if_pos rfl]
    · have hnone : ¬(vs.isExported other = true ∧ other = other) := fun h => hexported h.1
      rw [if_neg hexported, if_neg hnone]
  · have hnone : ¬(vs.isExported other = true ∧ other = name) := fun h => heq h.2
    have hkey : Bytes.ofString other ≠ .ofString name := fun h => heq (Bytes.ofString_inj.mp h)
    rw [if_neg hnone]
    split
    · exact Environment.get?_set.trans (if_neg hkey)
    · rfl

theorem entry_foldl_assign (pairs : List (String × String)) (vs : Variables) (name : String) :
    (pairs.foldl (fun vs pair => vs.assign pair.1 pair.2) vs).environment.get? (.ofString name)
      = if vs.isExported name then
          ((pairs.reverse.lookup name).map .ofString).or (vs.environment.get? (.ofString name))
        else vs.environment.get? (.ofString name) := by
  induction pairs generalizing vs with
  | nil => simp
  | cons pair pairs ih =>
      rw [List.foldl_cons, ih, isExported_assign, entry_assign, lookup_reverse_cons]
      by_cases hexported : vs.isExported name = true
      · rw [if_pos hexported, if_pos hexported, Option.map_or, Option.or_assoc]
        congr 1
        by_cases heq : name = pair.1
        · rw [if_pos ⟨hexported, heq⟩, if_pos heq]
          rfl
        · rw [if_neg fun h => heq h.2, if_neg heq]
          rfl
      · simp [hexported]

theorem assigned_foldl (pairs : List (String × String)) (vs : Variables) :
    Assigned pairs vs (pairs.foldl (fun vs pair => vs.assign pair.1 pair.2) vs) where
  steps := rfl
  value := get?_foldl_assign pairs vs
  mark := isExported_foldl_assign pairs vs
  entry := entry_foldl_assign pairs vs
  besides := by
    refine .of_updates (UpdatesBy.foldl (fun pair hpair ws => ?_) vs)
    exact .single ws (.assign pair.1 pair.2) (List.mem_map_of_mem hpair)

/-! ## Exports -/

/-- The value that the last of the items gives that name and value both. -/
def lastGiven (items : List (String × Option String)) (name : String) : Option String :=
  (items.filterMap fun item => item.2.map (item.1, ·)).reverse.lookup name

/-- The items were exported from left to right. The environment has the value
of each of them, as long as there is one. -/
structure Exported (items : List (String × Option String)) (before after : Variables) :
    Prop where
  steps : after = items.foldl (fun vs item => vs.exportName item.1 item.2) before
  value : ∀ name, after.get? name = (lastGiven items name).or (before.get? name)
  mark : ∀ name ∈ items.map Prod.fst, after.isExported name = true
  entry : ∀ name ∈ items.map Prod.fst, after.environment.get? (.ofString name)
    = ((after.get? name).map .ofString).or (before.environment.get? (.ofString name))
  besides : AgreeBesides (items.map Prod.fst) before after

theorem lastGiven_cons (item : String × Option String) (items : List (String × Option String))
    (name : String) :
    lastGiven (item :: items) name
      = (lastGiven items name).or (if name = item.1 then item.2 else none) := by
  obtain ⟨other, value⟩ := item
  cases value with
  | none => simp [lastGiven]
  | some value => exact lookup_reverse_cons (other, value) _ name

theorem get?_foldl_exportName (items : List (String × Option String)) (vs : Variables)
    (name : String) :
    (items.foldl (fun vs item => vs.exportName item.1 item.2) vs).get? name
      = (lastGiven items name).or (vs.get? name) := by
  induction items generalizing vs with
  | nil => rfl
  | cons item items ih =>
      rw [List.foldl_cons, ih, lastGiven_cons, Option.or_assoc, get?_exportName]
      congr 1
      by_cases h : name = item.1
      · rw [if_pos h, if_pos h, h]
      · rw [if_neg h, if_neg h, Option.none_or]

theorem entry_exportName (vs : Variables) (name : String) (value : Option String) :
    (vs.exportName name value).environment.get? (.ofString name)
      = (((vs.exportName name value).get? name).map .ofString).or
          (vs.environment.get? (.ofString name)) := by
  rw [environment_exportName, get?_exportName, if_pos rfl]
  cases value.or (vs.get? name) with
  | none => rfl
  | some value => exact Environment.get?_set.trans (if_pos rfl)

theorem besides_foldl_exportName (items : List (String × Option String)) (vs : Variables) :
    AgreeBesides (items.map Prod.fst) vs
      (items.foldl (fun vs item => vs.exportName item.1 item.2) vs) := by
  refine .of_updates (UpdatesBy.foldl (fun item hitem ws => ?_) vs)
  exact .single ws (.export_ item.1 item.2) (List.mem_map_of_mem hitem)

theorem isExported_foldl_exportName {items : List (String × Option String)} (vs : Variables)
    (h : name ∈ items.map Prod.fst) :
    (items.foldl (fun vs item => vs.exportName item.1 item.2) vs).isExported name = true := by
  induction items generalizing vs with
  | nil => cases h
  | cons item items ih =>
      by_cases hmem : name ∈ items.map Prod.fst
      · exact ih _ hmem
      · obtain rfl := (List.mem_cons.mp h).resolve_right hmem
        rw [List.foldl_cons, (besides_foldl_exportName items _).mark _ hmem,
          isExported_exportName, beq_self_eq_true, Bool.true_or]

theorem entry_foldl_exportName {items : List (String × Option String)} (vs : Variables)
    (h : name ∈ items.map Prod.fst) :
    (items.foldl (fun vs item => vs.exportName item.1 item.2) vs).environment.get?
        (.ofString name)
      = (((items.foldl (fun vs item => vs.exportName item.1 item.2) vs).get? name).map
          .ofString).or (vs.environment.get? (.ofString name)) := by
  induction items generalizing vs with
  | nil => cases h
  | cons item items ih =>
      rw [List.foldl_cons]
      by_cases hmem : name ∈ items.map Prod.fst
      · rw [ih _ hmem]
        by_cases hfirst : name = item.1
        · -- What the first item publishes is found there only if no value is left out.
          subst hfirst
          rw [entry_exportName, ← Option.or_assoc, get?_foldl_exportName]
          cases lastGiven items item.1 <;> simp
        · rw [(AgreeBesides.exportName vs item.1 item.2).entry (List.mem_singleton.not.mpr hfirst)]
      · obtain rfl := (List.mem_cons.mp h).resolve_right hmem
        have hbesides := besides_foldl_exportName items (vs.exportName item.1 item.2)
        rw [hbesides.entry hmem, hbesides.value _ hmem, entry_exportName]

theorem exported_foldl (items : List (String × Option String)) (vs : Variables) :
    Exported items vs (items.foldl (fun vs item => vs.exportName item.1 item.2) vs) where
  steps := rfl
  value := get?_foldl_exportName items vs
  mark _ := isExported_foldl_exportName vs
  entry _ := entry_foldl_exportName vs
  besides := besides_foldl_exportName items vs

/-! ## Removals -/

/-- The names were forgotten. The environment loses those that were exported. -/
structure Forgotten (names : List String) (before after : Variables) : Prop where
  steps : after = names.foldl unset before
  value : ∀ name ∈ names, after.get? name = none
  mark : ∀ name ∈ names, after.isExported name = false
  entry : ∀ name ∈ names, after.environment.get? (.ofString name)
    = if before.isExported name then none else before.environment.get? (.ofString name)
  besides : AgreeBesides names before after

theorem entry_unset (vs : Variables) (name : String) :
    (vs.unset name).environment.get? (.ofString name)
      = if vs.isExported name then none else vs.environment.get? (.ofString name) := by
  rw [environment_unset]
  split
  · exact Environment.get?_unset.trans (if_pos rfl)
  · rfl

theorem forgotten_foldl (names : List String) (vs : Variables) :
    Forgotten names vs (names.foldl unset vs) := by
  have hbesides : ∀ (names : List String) (vs : Variables),
      AgreeBesides names vs (names.foldl unset vs) := fun names vs =>
    .of_updates (UpdatesBy.foldl (fun name hname ws => .single ws (.unset name) hname) vs)
  -- What the first removal leaves of its name is left if the name does not come again.
  suffices hall : ∀ name ∈ names, (names.foldl unset vs).get? name = none
      ∧ (names.foldl unset vs).isExported name = false
      ∧ (names.foldl unset vs).environment.get? (.ofString name)
        = if vs.isExported name then none else vs.environment.get? (.ofString name) from
    ⟨rfl, fun name h => (hall name h).1, fun name h => (hall name h).2.1,
      fun name h => (hall name h).2.2, hbesides names vs⟩
  induction names generalizing vs with
  | nil => nofun
  | cons first names ih =>
      intro name h
      rw [List.foldl_cons]
      by_cases hmem : name ∈ names
      · obtain ⟨hvalue, hmark, hentry⟩ := ih (vs.unset first) name hmem
        refine ⟨hvalue, hmark, hentry.trans ?_⟩
        by_cases hfirst : name = first
        · subst hfirst
          rw [isExported_unset, entry_unset]
          simp
        · have hother : name ∉ [first] := List.mem_singleton.not.mpr hfirst
          have hsingle := AgreeBesides.unset vs first
          rw [hsingle.mark name hother, hsingle.entry hother]
      · obtain rfl := (List.mem_cons.mp h).resolve_right hmem
        have hrest := hbesides names (vs.unset name)
        rw [hrest.value name hmem, hrest.mark name hmem, hrest.entry hmem]
        refine ⟨?_, ?_, entry_unset vs name⟩
        · rw [get?_unset, if_pos rfl]
        · simp [isExported_unset]

end Variables

end JobShell
