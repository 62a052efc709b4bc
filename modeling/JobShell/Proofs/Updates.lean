import JobShell.Proofs.Grammar
import JobShell.Proofs.Utf8
import JobShell.Session

/-!
# What a line does to the variables

A line changes the variables of a session by a sequence of assignments,
exports and removals, each of them one that it asks for (`Line.Asks`,
`runLine_updates`), and so of a valid name (`runLine_vars`). Nothing else of
the session reads or writes them: jobs are given the environment and do not
give it back. So a property of the variables that each such `Update` keeps
holds after every sequence of lines (`afterLines_updates`).
-/

namespace JobShell

/-- One change of the variables. -/
inductive Update
  | assign (name value : String)
  | export_ (name : String) (value : Option String)
  | unset (name : String)

namespace Update

/-- The variable that changes. -/
def name : Update → String
  | assign name _ | export_ name _ | unset name => name

/-- Makes the change. -/
def apply (vs : Variables) : Update → Variables
  | assign name value => vs.assign name value
  | export_ name value => vs.exportName name value
  | unset name => vs.unset name

end Update

/-- The variables `after` are `before` with some changes that `P` allows. -/
def UpdatesBy (P : Update → Prop) (before after : Variables) : Prop :=
  ∃ updates : List Update, (∀ u ∈ updates, P u) ∧ after = updates.foldl Update.apply before

namespace UpdatesBy

variable {P Q : Update → Prop}

theorem refl (vs : Variables) : UpdatesBy P vs vs := ⟨[], by simp, rfl⟩

theorem trans {vs ws xs : Variables} (h : UpdatesBy P vs ws) (h' : UpdatesBy P ws xs) :
    UpdatesBy P vs xs := by
  obtain ⟨us, hus, rfl⟩ := h
  obtain ⟨us', hus', rfl⟩ := h'
  exact ⟨us ++ us', List.forall_mem_append.mpr ⟨hus, hus'⟩, (List.foldl_append ..).symm⟩

theorem single (vs : Variables) (u : Update) (h : P u) : UpdatesBy P vs (u.apply vs) :=
  ⟨[u], List.forall_mem_singleton.mpr h, rfl⟩

theorem mono {vs ws : Variables} (h : UpdatesBy P vs ws) (himp : ∀ u, P u → Q u) :
    UpdatesBy Q vs ws := by
  obtain ⟨us, hus, heq⟩ := h
  exact ⟨us, fun u hu => himp u (hus u hu), heq⟩

/-- Changes that are made item by item. -/
theorem foldl {α : Type} {f : Variables → α → Variables} {xs : List α}
    (h : ∀ x ∈ xs, ∀ vs, UpdatesBy P vs (f vs x)) (vs : Variables) :
    UpdatesBy P vs (xs.foldl f vs) := by
  induction xs generalizing vs with
  | nil => exact refl vs
  | cons x xs ih =>
      exact (h x (List.mem_cons_self ..) vs).trans
        (ih (fun y hy => h y (List.mem_cons_of_mem _ hy)) _)

/-- What every allowed change keeps is kept by all of them. -/
theorem induction {R : Variables → Prop} {before after : Variables}
    (h : UpdatesBy P before after) (hstep : ∀ vs u, P u → R vs → R (u.apply vs))
    (hbefore : R before) : R after := by
  obtain ⟨us, hus, rfl⟩ := h
  induction us generalizing before with
  | nil => exact hbefore
  | cons u us ih =>
      rw [List.forall_mem_cons] at hus
      exact ih (hstep _ _ hus.1 hbefore) hus.2

end UpdatesBy

/-- The variables `after` are `before` with some changes of valid names. -/
abbrev UpdatesTo : Variables → Variables → Prop :=
  UpdatesBy fun u => isVariableName u.name = true

/-! ## What a line asks for -/

theorem Builtin.ofName?_eq_some_iff {word : String} {b : Builtin} :
    Builtin.ofName? word = some b ↔ b.name = word := by
  constructor
  · intro h
    simpa using List.find?_some h
  · rintro rfl
    cases b <;> rfl

/-- The change is one that the command makes if it accepts these arguments. -/
inductive Builtin.Asks : Builtin → List String → Update → Prop
  | cd {arguments : List String} {path : String} (hpath : '\x00' ∉ path.toList) :
      Asks .cd arguments (.export_ "PWD" (some path))
  | export_ {arguments : List String} {items : List (String × Option String)} {name : String}
      {value : Option String} (hitems : arguments.mapM Session.exportArgument = .ok items)
      (hmem : (name, value) ∈ items) : Asks .export_ arguments (.export_ name value)
  | unset {arguments : List String} {name : String}
      (hvalid : ∀ argument ∈ arguments, isVariableName argument = true)
      (hmem : name ∈ arguments) : Asks .unset arguments (.unset name)

namespace Line

/-- The line is a pipeline that begins with a command of the shell. -/
def Commands (line : String) (b : Builtin) (arguments : List String) : Prop :=
  ∃ p first rest, Line.parse line = .ok (.pipeline p) ∧ p.stages = first :: rest
    ∧ first.argv = b.name :: arguments

/-- The line is one of assignments, or begins with a command, and asks for
the change. -/
inductive Asks (line : String) : Update → Prop
  | assign {pairs : List (String × String)} {name value : String}
      (hparse : Line.parse line = .ok (.assignments pairs)) (hmem : (name, value) ∈ pairs) :
      Asks line (.assign name value)
  | command {b : Builtin} {arguments : List String} {u : Update}
      (hcommand : Commands line b arguments) (hasks : b.Asks arguments u) : Asks line u

/-- A line begins with one command at most. -/
theorem Commands.unique {line : String} {b b' : Builtin} {arguments arguments' : List String}
    (h : Commands line b arguments) (h' : Commands line b' arguments') :
    b = b' ∧ arguments = arguments' := by
  obtain ⟨p, first, rest, hparse, hp, hargv⟩ := h
  obtain ⟨p', first', rest', hparse', hp', hargv'⟩ := h'
  obtain rfl := Line.pipeline.inj (Except.ok.inj (hparse.symm.trans hparse'))
  obtain ⟨rfl, rfl⟩ := List.cons.inj (hp.symm.trans hp')
  obtain ⟨hname, rfl⟩ := List.cons.inj (hargv.symm.trans hargv')
  have hb := Builtin.ofName?_eq_some_iff.mpr hname
  rw [Builtin.ofName?_eq_some_iff.mpr rfl] at hb
  exact ⟨(Option.some.inj hb).symm, rfl⟩

theorem commands_of_parse {line : String} {p : Pipeline} {first : Stage} {rest : List Stage}
    {b : Builtin} (hparse : Line.parse line = .ok (.pipeline p)) (hp : p.stages = first :: rest)
    (hb : Builtin.ofName? first.command = some b) : Commands line b first.argv.tail := by
  refine ⟨p, first, rest, hparse, hp, ?_⟩
  rw [Builtin.ofName?_eq_some_iff.mp hb]
  exact argv_of_parse hparse first (hp ▸ List.mem_cons_self ..)

end Line

namespace Session

/-! ## What leaves the variables alone -/

/-- Actions of the shell itself leave everything else of a session as it is. -/
theorem foldl_keeps {α β : Type} (part : Session → β) {f : Session → α → Session}
    (h : ∀ s x, part (f s x) = part s) (xs : List α) (s : Session) :
    part (xs.foldl f s) = part s := by
  induction xs generalizing s with
  | nil => rfl
  | cons x xs ih => rw [List.foldl_cons, ih, h]

theorem foldl_onHost_vars {α : Type} (action : α → Host → Host) (xs : List α) (s : Session) :
    (xs.foldl (fun s x => s.onHost (action x)) s).vars = s.vars :=
  foldl_keeps (f := fun s x => s.onHost (action x)) vars (fun _ _ => rfl) xs s

@[simp] theorem runJob_vars (s : Session) (p : Pipeline) : (s.runJob p).vars = s.vars := by
  unfold runJob
  split
  split <;> rfl

/-! ## The commands of the shell -/

@[simp] theorem exportVariable_vars (s : Session) (name : String) (value : Option String) :
    (s.exportVariable name value).vars = s.vars.exportName name value := by
  unfold exportVariable
  dsimp only
  split <;> rfl

/-- The system hands out no path with the character zero. -/
theorem not_mem_currentDirectory {s : Session} {path : String}
    (h : s.currentDirectory.toOption.bind Bytes.text? = some path) : '\x00' ∉ path.toList := by
  obtain ⟨bytes, hbytes, htext⟩ := Option.bind_eq_some_iff.mp h
  obtain ⟨all, -, rfl⟩ := Except.map_eq_ok_iff.mp (Except.eq_ok_of_toOption hbytes)
  rw [← Bytes.hasNul_ofString, ← Bytes.eq_ofString_of_text? htext, Bytes.hasNul,
    List.contains_iff_mem]
  intro hmem
  simpa using List.mem_takeWhile_imp hmem

theorem changeDirectory_vars {s s' : Session} {arguments : List String}
    (h : s.changeDirectory arguments = .ok s') :
    UpdatesBy (Builtin.Asks .cd arguments) s.vars s'.vars := by
  obtain ⟨target, -, h⟩ := Except.bind_eq_ok_iff.mp h
  split at h
  · cases h
  · obtain rfl := Except.ok.inj h
    show UpdatesBy _ s.vars ({ s with directory := _ } : Session).publishDirectory.vars
    unfold publishDirectory
    split
    · rename_i hpath
      rw [exportVariable_vars]
      exact UpdatesBy.single s.vars (.export_ "PWD" (some _)) (.cd (not_mem_currentDirectory hpath))
    · exact UpdatesBy.refl s.vars

theorem isVariableName_of_exportArgument {argument : String} {item : String × Option String}
    (h : exportArgument argument = .ok item) : isVariableName item.1 = true := by
  unfold exportArgument at h
  dsimp only at h
  -- With or without a value, the check of the name comes before the result.
  split at h <;> split at h
  case isTrue hname | isTrue hname =>
    obtain rfl := Except.ok.inj h
    exact hname
  all_goals cases h

theorem foldl_exportVariable_vars (items : List (String × Option String)) (s : Session) :
    (items.foldl (fun s item => s.exportVariable item.1 item.2) s).vars
      = items.foldl (fun vs item => vs.exportName item.1 item.2) s.vars := by
  induction items generalizing s with
  | nil => rfl
  | cons item items ih => rw [List.foldl_cons, ih, exportVariable_vars, List.foldl_cons]

theorem exportVariables_vars {s s' : Session} {arguments : List String}
    (h : s.exportVariables arguments = .ok s') :
    UpdatesBy (Builtin.Asks .export_ arguments) s.vars s'.vars := by
  obtain ⟨items, hitems, h⟩ := Except.bind_eq_ok_iff.mp h
  obtain rfl := Except.ok.inj h
  rw [foldl_exportVariable_vars]
  refine UpdatesBy.foldl (fun item hitem vs => ?_) s.vars
  exact UpdatesBy.single vs (.export_ item.1 item.2) (.export_ hitems hitem)

/-- The accepted arguments are forgotten one after the other. -/
theorem unsetVariables_vars {s s' : Session} {arguments : List String}
    (h : s.unsetVariables arguments = .ok s') :
    (∀ argument ∈ arguments, isVariableName argument = true)
      ∧ s'.vars = arguments.foldl Variables.unset s.vars := by
  unfold unsetVariables at h
  split at h
  · cases h
  · rename_i hfind
    obtain rfl := Except.ok.inj h
    refine ⟨fun argument hmem => ?_, by simp only [foldl_onHost_vars]⟩
    simpa using List.find?_eq_none.mp hfind argument hmem

theorem exists_unsetVariables (s : Session) {arguments : List String}
    (h : ∀ argument ∈ arguments, isVariableName argument = true) :
    ∃ s', s.unsetVariables arguments = .ok s' := by
  have hfind : arguments.find? (!isVariableName ·) = none := by
    simpa [List.find?_eq_none] using h
  exact ⟨_, by rw [unsetVariables, hfind]⟩

theorem printVariables_vars {s s' : Session} {arguments : List String}
    (h : s.printVariables arguments = .ok s') : s'.vars = s.vars := by
  cases arguments with
  | nil =>
      obtain rfl := Except.ok.inj h
      exact foldl_onHost_vars ..
  | cons option rest => cases h

theorem run_vars {s s' : Session} {b : Builtin} {arguments : List String} {flow : Flow}
    (h : b.run s arguments = .ok (flow, s')) : UpdatesBy (b.Asks arguments) s.vars s'.vars := by
  cases b with
  | cd =>
      exact changeDirectory_vars (Except.eq_ok_of_map_mk h)
  | export_ =>
      exact exportVariables_vars (Except.eq_ok_of_map_mk h)
  | exit =>
      obtain ⟨status, -, heq⟩ := Except.map_eq_ok_iff.mp h
      obtain ⟨-, rfl⟩ := Prod.mk.inj heq
      exact UpdatesBy.refl s.vars
  | set =>
      rw [printVariables_vars (Except.eq_ok_of_map_mk h)]
      exact UpdatesBy.refl s.vars
  | unset =>
      obtain ⟨hvalid, heq⟩ := unsetVariables_vars (Except.eq_ok_of_map_mk h)
      rw [heq]
      refine UpdatesBy.foldl (fun name hname vs => ?_) s.vars
      exact UpdatesBy.single vs (.unset name) (.unset hvalid hname)

theorem runBuiltin_vars (s : Session) (b : Builtin) (arguments : List String) :
    UpdatesBy (b.Asks arguments) s.vars (s.runBuiltin b arguments).2.vars := by
  unfold runBuiltin
  split
  · rename_i hrun
    exact run_vars hrun
  · exact UpdatesBy.refl s.vars

/-! ## Lines -/

/-- A line makes changes that it asks for, however it ends. -/
theorem runLine_updates (s : Session) (line : String) :
    UpdatesBy (Line.Asks line) s.vars (s.runLine line).2.vars := by
  have hjob : ∀ p, UpdatesBy (Line.Asks line) s.vars (s.runJob p).vars := fun p => by
    rw [runJob_vars]
    exact UpdatesBy.refl s.vars
  unfold runLine
  split
  · exact UpdatesBy.refl s.vars
  · rename_i parsed hparse
    show UpdatesBy _ s.vars (s.runParsed parsed).2.vars
    unfold runParsed
    split
    · exact UpdatesBy.refl s.vars
    · refine UpdatesBy.foldl (fun pair hpair vs => ?_) s.vars
      exact UpdatesBy.single vs (.assign pair.1 pair.2) (.assign hparse hpair)
    · split
      · exact hjob _
      · rename_i p _ first rest hp
        split
        · rename_i b hb
          exact (runBuiltin_vars s b _).mono fun u hu =>
            .command (Line.commands_of_parse hparse hp hb) hu
        · exact hjob _

theorem runLine_of_parse (s : Session) {line : String} {parsed : Line}
    (h : Line.parse line = .ok parsed) : (s.runLine line).2 = (s.runParsed parsed).2 := by
  rw [runLine, h]

/-- A line that begins with a command carries that command out, and nothing
else. -/
theorem runParsed_of_commands (s : Session) {line : String} {b : Builtin}
    {arguments : List String} (h : Line.Commands line b arguments) :
    ∃ parsed, Line.parse line = .ok parsed ∧ s.runParsed parsed = s.runBuiltin b arguments := by
  obtain ⟨p, first, rest, hparse, hp, hargv⟩ := h
  have hfirst := Line.argv_of_parse hparse first (hp ▸ List.mem_cons_self ..)
  rw [hargv, List.tail_cons] at hfirst
  have hb := Builtin.ofName?_eq_some_iff.mpr (List.cons.inj hfirst).1
  refine ⟨_, hparse, ?_⟩
  simp only [runParsed, hp, hb, hargv, List.tail_cons]

theorem isVariableName_of_asks {line : String} {u : Update} (h : Line.Asks line u) :
    isVariableName u.name = true := by
  cases h with
  | assign hparse hmem => exact Line.isVariableName_of_parse hparse _ hmem
  | command hcommand hasks =>
      cases hasks with
      | cd hpath => exact (by decide : isVariableName "PWD" = true)
      | export_ hitems hmem =>
          obtain ⟨argument, -, hargument⟩ := Except.exists_of_mem_mapM hitems _ hmem
          exact isVariableName_of_exportArgument hargument
      | unset hvalid hmem => exact hvalid _ hmem

/-- The changes of a line are changes of valid names. -/
theorem runLine_vars (s : Session) (line : String) :
    UpdatesTo s.vars (s.runLine line).2.vars :=
  (runLine_updates s line).mono fun _ => isVariableName_of_asks

/-- The session after some lines, whatever they ask for. -/
def afterLines (s : Session) (lines : List String) : Session :=
  lines.foldl (fun s line => (s.runLine line).2) s

/-- Every change that some lines make is one that one of them asks for. -/
theorem afterLines_updates (s : Session) (lines : List String) :
    UpdatesBy (fun u => ∃ line ∈ lines, Line.Asks line u) s.vars (s.afterLines lines).vars := by
  induction lines generalizing s with
  | nil => exact UpdatesBy.refl s.vars
  | cons line lines ih =>
      refine ((runLine_updates s line).mono fun u hu => ?_).trans ((ih _).mono ?_)
      · exact ⟨line, List.mem_cons_self .., hu⟩
      · rintro u ⟨line', hmem, hu⟩
        exact ⟨line', List.mem_cons_of_mem _ hmem, hu⟩

theorem afterLines_vars (s : Session) (lines : List String) :
    UpdatesTo s.vars (s.afterLines lines).vars :=
  (afterLines_updates s lines).mono fun _ ⟨_, _, hu⟩ => isVariableName_of_asks hu

end Session

end JobShell
