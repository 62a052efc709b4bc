import JobShell.Proofs.Changes
import JobShell.Proofs.Crashing
import JobShell.Proofs.Supervision

/-!
# What a line leaves behind

Of a session a line can change the variables, with the environment they are
published to, and the current directory. It does so only if it is made of
assignments, or if its first command is one of the shell's (`yields_line`).

Such a command is the only thing on its line that matters, and it does not
start a process or open a file. If it rejects an argument, whichever it is
(`Builtin.Rejects`), nothing has changed. Otherwise the changes are those of
its arguments from left to right (`Builtin.Does`).
-/

namespace JobShell

variable {s s' : Session} {line : String} {b : Builtin} {arguments : List String}

/-! ## Arguments -/

/-- The name in an argument of `export`: what is in front of the first sign. -/
def exportedName (argument : String) : String :=
  String.ofList (argument.toList.takeWhile (· ≠ '='))

/-- The argument spells a valid name, and a value if there is one. -/
def SpellsExport (argument : String) (item : String × Option String) : Prop :=
  isVariableName item.1 = true ∧ argument = item.1 ++ item.2.elim "" ("=" ++ ·)

theorem takeWhile_eq_of_splitAtEquals (cs : List Char) :
    cs.takeWhile (· ≠ '=') = (splitAtEquals cs).elim cs Prod.fst := by
  induction cs with
  | nil => rfl
  | cons c cs ih =>
      rw [splitAtEquals]
      by_cases hc : c = '='
      · rw [if_pos hc, List.takeWhile_cons_of_neg (by simpa using hc)]
        rfl
      · rw [if_neg hc, List.takeWhile_cons_of_pos (by simpa using hc), ih]
        cases splitAtEquals cs <;> rfl

theorem exportArgument_eq (argument : String) :
    Session.exportArgument argument
      = if isVariableName (exportedName argument) then
          .ok (exportedName argument,
            (splitAtEquals argument.toList).map fun parts => String.ofList parts.2)
        else .error (.invalidIdentifier .export_ argument) := by
  rw [exportedName, takeWhile_eq_of_splitAtEquals, Session.exportArgument]
  cases splitAtEquals argument.toList with
  | none => rw [Option.elim_none, String.ofList_toList]; rfl
  | some parts => rfl

theorem spellsExport_of_exportArgument {argument : String} {item : String × Option String}
    (h : Session.exportArgument argument = .ok item) : SpellsExport argument item := by
  have hname := Session.isVariableName_of_exportArgument h
  refine ⟨hname, String.toList_injective ?_⟩
  rw [exportArgument_eq] at h
  split at h
  · obtain rfl := Except.ok.inj h
    rw [exportedName, takeWhile_eq_of_splitAtEquals]
    cases hsplit : splitAtEquals argument.toList with
    | none => simp
    | some parts =>
        obtain ⟨hword, -⟩ := splitAtEquals_eq_some_iff.mp hsplit
        simpa using hword
  · cases h

/-- What is spelled is what is in front of the first sign. -/
theorem SpellsExport.isVariableName {argument : String} {item : String × Option String}
    (h : SpellsExport argument item) : isVariableName (exportedName argument) = true := by
  obtain ⟨hname, rfl⟩ := h
  have hfree : ∀ c ∈ item.1.toList, decide (c ≠ '=') = true := fun c hc => by
    rw [decide_eq_true_iff]
    rintro rfl
    exact not_mem_of_isName (by decide) (by decide) hname hc
  have hvalue : (item.2.elim "" ("=" ++ ·)).toList.takeWhile (· ≠ '=') = [] := by
    cases item.2 with
    | none => rfl
    | some value => simp
  rw [exportedName, String.toList_append, List.takeWhile_append_of_pos hfree, hvalue,
    List.append_nil, String.ofList_toList]
  exact hname

namespace Session

/-- Where `cd` is to go with these arguments. -/
def GoesTo (s : Session) (arguments : List String) (target : String) : Prop :=
  arguments = [target] ∨ arguments = [] ∧ s.vars.get? "HOME" = some target

theorem GoesTo.unique {target other : String} (h : s.GoesTo arguments target)
    (h' : s.GoesTo arguments other) : target = other := by
  rcases h with rfl | ⟨rfl, hhome⟩
  · rcases h' with hone | ⟨hnone, -⟩
    · exact List.singleton_inj.mp hone
    · cases hnone
  · rcases h' with hone | ⟨-, hhome'⟩
    · cases hone
    · exact Option.some.inj (hhome.symm.trans hhome')

theorem cdTarget_eq_ok_iff {target : String} :
    s.cdTarget arguments = .ok target ↔ s.GoesTo arguments target := by
  match arguments with
  | [] => cases h : s.vars.get? "HOME" <;> simp [cdTarget, GoesTo, h]
  | [word] => simp [cdTarget, GoesTo]
  | _ :: _ :: _ => simp [cdTarget, GoesTo]

/-- The directory has changed to the one at `target`, and `PWD` is its path if
that is a text. -/
structure Moves (s s' : Session) (target : String) : Prop where
  directory : s.findDirectory (.ofString target) = .ok s'.directory
  vars : s'.vars
    = (({ s with directory := s'.directory }).currentDirectory.toOption.bind Bytes.text?).elim
        s.vars fun path => s.vars.exportName "PWD" (some path)
  besides : Variables.AgreeBesides ["PWD"] s.vars s'.vars

end Session

namespace Builtin

/-- What the commands do not accept. -/
inductive Rejects (s : Session) : Builtin → List String → Prop
  | homeNotSet (h : s.vars.get? "HOME" = none) : Rejects s .cd []
  | noDirectory {arguments : List String} {target : String} {cause : OsError}
      (htarget : s.GoesTo arguments target)
      (h : s.findDirectory (.ofString target) = .error cause) : Rejects s .cd arguments
  | tooManyDirectories {arguments : List String} (h : 2 ≤ arguments.length) :
      Rejects s .cd arguments
  | exported {arguments : List String} {argument : String} (hmem : argument ∈ arguments)
      (h : isVariableName (exportedName argument) = false) : Rejects s .export_ arguments
  | removed {arguments : List String} {argument : String} (hmem : argument ∈ arguments)
      (h : isVariableName argument = false) : Rejects s .unset arguments
  | option {arguments : List String} (h : arguments ≠ []) : Rejects s .set arguments
  | badStatus {word : String}
      (h : ∀ n, Text.Denotes word.toList n → ¬(-2 ^ 31 ≤ n ∧ n ≤ 2 ^ 31 - 1)) :
      Rejects s .exit [word]
  | tooManyStatuses {arguments : List String} (h : 2 ≤ arguments.length) :
      Rejects s .exit arguments

/-- What the commands do with the arguments they accept. -/
def Does (s s' : Session) (arguments : List String) : Builtin → Prop
  | .cd => ∃ target, s.GoesTo arguments target ∧ s.Moves s' target
  | .export_ => s'.directory = s.directory
      ∧ ∃ items, List.Forall₂ SpellsExport arguments items
        ∧ Variables.Exported items s.vars s'.vars
  | .unset => s'.directory = s.directory
      ∧ (∀ argument ∈ arguments, isVariableName argument = true)
      ∧ Variables.Forgotten arguments s.vars s'.vars
  | .set => s'.directory = s.directory ∧ arguments = [] ∧ s'.vars = s.vars
  | .exit => s' = s ∧ ∃ n, Session.exitStatus arguments = .ok n

/-- What is carried out was accepted. -/
theorem Does.not_rejects (h : b.Does s s' arguments) : ¬b.Rejects s arguments := by
  intro hrejects
  cases hrejects with
  | homeNotSet hhome =>
      obtain ⟨target, htarget, -⟩ := h
      rcases htarget with hone | ⟨-, hsome⟩
      · cases hone
      · rw [hhome] at hsome
        cases hsome
  | noDirectory htarget herror =>
      obtain ⟨other, hother, hmoves⟩ := h
      obtain rfl := htarget.unique hother
      rw [hmoves.directory] at herror
      cases herror
  | tooManyDirectories hmany =>
      obtain ⟨target, rfl | ⟨rfl, -⟩, -⟩ := h
      · simp at hmany
      · simp at hmany
  | exported hmem hname =>
      obtain ⟨-, items, hitems, -⟩ := h
      obtain ⟨item, -, hspells⟩ := exists_of_forall₂ hitems.flip _ hmem
      rw [SpellsExport.isVariableName hspells] at hname
      cases hname
  | removed hmem hname =>
      rw [h.2.1 _ hmem] at hname
      cases hname
  | option hsome => exact hsome h.2.1
  | badStatus hnone =>
      obtain ⟨-, n, hstatus⟩ := h
      rcases Session.exitStatus_eq_ok_iff.mp hstatus with ⟨hbare, -⟩ | ⟨word, hone, hdenotes, hn⟩
      · cases hbare
      · obtain rfl := List.singleton_inj.mp hone
        exact hnone n hdenotes hn
  | tooManyStatuses hmany =>
      obtain ⟨-, n, hstatus⟩ := h
      rcases Session.exitStatus_eq_ok_iff.mp hstatus with ⟨rfl, -⟩ | ⟨word, rfl, -⟩
      · simp at hmany
      · simp at hmany

end Builtin

namespace Session

/-! ## Commands -/

theorem directory_foldl_onHost {α : Type} (action : α → Host → Host) (xs : List α)
    (s : Session) : (xs.foldl (fun s x => s.onHost (action x)) s).directory = s.directory :=
  foldl_keeps (f := fun s x => s.onHost (action x)) directory (fun _ _ => rfl) xs s

@[simp] theorem directory_exportVariable (s : Session) (name : String) (value : Option String) :
    (s.exportVariable name value).directory = s.directory := by
  unfold exportVariable
  dsimp only
  split <;> rfl

theorem moves_publishDirectory {target : String} {directory : Machine.NodeId}
    (h : s.findDirectory (.ofString target) = .ok directory) :
    s.Moves ({ s with directory } : Session).publishDirectory target := by
  unfold publishDirectory
  split
  · rename_i path hpath
    refine ⟨by rw [directory_exportVariable]; exact h, ?_, ?_⟩
    · rw [exportVariable_vars, directory_exportVariable, hpath]
      rfl
    · rw [exportVariable_vars]
      exact .exportName s.vars "PWD" (some path)
  · rename_i hpath
    exact ⟨h, by rw [hpath]; rfl, .refl ["PWD"] s.vars⟩

theorem moves_of_changeDirectory (h : s.changeDirectory arguments = .ok s') :
    ∃ target, s.GoesTo arguments target ∧ s.Moves s' target := by
  obtain ⟨target, htarget, h⟩ := Except.bind_eq_ok_iff.mp h
  refine ⟨target, cdTarget_eq_ok_iff.mp htarget, ?_⟩
  split at h
  · cases h
  · rename_i directory hdirectory
    obtain rfl := Except.ok.inj h
    -- The move is logged, which changes neither the variables nor the directory.
    have hmoves := moves_publishDirectory hdirectory
    exact ⟨hmoves.directory, hmoves.vars, hmoves.besides⟩

theorem does_of_run {flow : Flow} (h : b.run s arguments = .ok (flow, s')) :
    b.Does s s' arguments := by
  cases b with
  | cd => exact moves_of_changeDirectory (Except.eq_ok_of_map_mk h)
  | export_ =>
      obtain ⟨items, hitems, h⟩ := Except.bind_eq_ok_iff.mp (Except.eq_ok_of_map_mk h)
      obtain rfl := Except.ok.inj h
      have hspells : List.Forall₂ SpellsExport arguments items :=
        (Except.forall₂_of_mapM hitems).imp fun _ _ => spellsExport_of_exportArgument
      refine ⟨foldl_keeps directory (fun s item => ?_) items s, items, hspells, ?_⟩
      · exact directory_exportVariable s item.1 item.2
      · rw [foldl_exportVariable_vars]
        exact Variables.exported_foldl items s.vars
  | unset =>
      have h := Except.eq_ok_of_map_mk h
      obtain ⟨hvalid, hvars⟩ := unsetVariables_vars h
      have hforgotten := Variables.forgotten_foldl arguments s.vars
      rw [← hvars] at hforgotten
      refine ⟨?_, hvalid, hforgotten⟩
      unfold unsetVariables at h
      split at h
      · cases h
      · obtain rfl := Except.ok.inj h
        exact directory_foldl_onHost (fun name host => host.log .info s!"unsetting {name}") _ s
  | set =>
      have h := Except.eq_ok_of_map_mk h
      have hvars := printVariables_vars h
      cases arguments with
      | nil =>
          obtain rfl := Except.ok.inj h
          exact ⟨directory_foldl_onHost (fun line host => host.print (line ++ "\n")) _ s, rfl, hvars⟩
      | cons option rest => cases h
  | exit =>
      obtain ⟨status, hstatus, heq⟩ := Except.map_eq_ok_iff.mp h
      exact ⟨(Prod.mk.inj heq).2.symm, status, hstatus⟩

theorem rejects_of_goesTo {target : String} {fault : BuiltinFault}
    (htarget : s.GoesTo arguments target) (h : s.changeDirectory arguments = .error fault) :
    Builtin.Rejects s .cd arguments := by
  rw [changeDirectory, cdTarget_eq_ok_iff.mpr htarget] at h
  cases hfind : s.findDirectory (.ofString target) with
  | error cause => exact .noDirectory htarget hfind
  | ok directory =>
      simp only [bind, Except.bind, hfind] at h
      cases h

/-- A command that fails did not accept something. -/
theorem rejects_of_fault {fault : BuiltinFault} (h : b.run s arguments = .error fault) :
    b.Rejects s arguments := by
  cases b with
  | cd =>
      have hfault := Except.map_eq_error_iff.mp h
      rcases arguments with _ | ⟨target, _ | ⟨next, others⟩⟩
      · cases hhome : s.vars.get? "HOME" with
        | none => exact .homeNotSet hhome
        | some home => exact rejects_of_goesTo (Or.inr ⟨rfl, hhome⟩) hfault
      · exact rejects_of_goesTo (Or.inl rfl) hfault
      · exact .tooManyDirectories (by simp)
  | export_ =>
      have hfault := Except.map_eq_error_iff.mp h
      obtain ⟨argument, hmem, hargument⟩ : ∃ argument ∈ arguments,
          exportArgument argument = .error fault := by
        refine Except.exists_of_mapM_eq_error ?_
        rw [exportVariables] at hfault
        cases hitems : arguments.mapM exportArgument with
        | error other =>
            rw [hitems] at hfault
            exact congrArg _ (Except.error.inj hfault)
        | ok items =>
            rw [hitems] at hfault
            cases hfault
      rw [exportArgument_eq] at hargument
      split at hargument
      · cases hargument
      · next hname => exact .exported hmem (Bool.eq_false_iff.mpr hname)
  | unset =>
      have hfault := Except.map_eq_error_iff.mp h
      unfold unsetVariables at hfault
      split at hfault
      · next word hword =>
          have hname := List.find?_some hword
          exact .removed (List.mem_of_find?_eq_some hword) (by simpa using hname)
      · cases hfault
  | set =>
      have hfault := Except.map_eq_error_iff.mp h
      cases arguments with
      | nil => cases hfault
      | cons option rest => exact .option (List.cons_ne_nil option rest)
  | exit =>
      have hfault : exitStatus arguments = .error fault := Except.map_eq_error_iff.mp h
      rcases arguments with _ | ⟨word, _ | ⟨next, others⟩⟩
      · cases hfault
      · refine .badStatus fun n hdenotes hn => ?_
        rw [exitStatus_eq_ok_iff.mpr (Or.inr ⟨word, rfl, hdenotes, hn⟩)] at hfault
        cases hfault
      · exact .tooManyStatuses (by simp)

/-- A command fails exactly if it does not accept something. -/
theorem exists_fault_iff : (∃ fault, b.run s arguments = .error fault) ↔ b.Rejects s arguments := by
  cases hrun : b.run s arguments with
  | error fault => exact iff_of_true ⟨fault, rfl⟩ (rejects_of_fault hrun)
  | ok result => exact iff_of_false nofun (does_of_run hrun).not_rejects

/-! ## Lines -/

/-- What a session becomes with a line. -/
structure Yields (s : Session) (line : String) : Prop where
  assignments : ∀ pairs, Line.parse line = .ok (.assignments pairs) →
    Variables.Assigned pairs s.vars (s.runLine line).2.vars
      ∧ (s.runLine line).2.directory = s.directory
  /-- Lines that begin with one command and its arguments are alike, whatever
  else is on them. -/
  alike : ∀ b arguments other, Line.Commands line b arguments → Line.Commands other b arguments →
    s.runLine other = s.runLine line
  /-- No process is started and no file is opened for a command. -/
  writes : ∀ b arguments, Line.Commands line b arguments → s.OnlyWrites (s.runLine line).2
  rejected : ∀ b arguments, Line.Commands line b arguments → b.Rejects s arguments →
    (s.runLine line).2.vars = s.vars ∧ (s.runLine line).2.directory = s.directory
  accepted : ∀ b arguments, Line.Commands line b arguments → ¬b.Rejects s arguments →
    b.Does s (s.runLine line).2 arguments
  /-- Jobs, faults and empty lines leave everything as it is. -/
  other : (∀ pairs, Line.parse line ≠ .ok (.assignments pairs)) →
    (∀ b arguments, ¬Line.Commands line b arguments) →
    (s.runLine line).2.vars = s.vars ∧ (s.runLine line).2.directory = s.directory
  /-- The session goes on to have this effect, unless a stored value with the
  character zero is exported by name. -/
  survives : s.vars.refused = false →
    (∀ name value, Line.Asks line (.export_ name none) → s.vars.get? name = some value →
      '\x00' ∉ value.toList) →
    (s.runLine line).1 ≠ .crash

@[simp] theorem runJob_directory (s : Session) (p : Pipeline) :
    (s.runJob p).directory = s.directory := by
  unfold runJob
  split
  split <;> rfl

/-- The session after a line that begins with a command. -/
theorem runLine_of_commands (s : Session) (h : Line.Commands line b arguments) :
    (s.runLine line).2 = (s.runBuiltin b arguments).2 := by
  obtain ⟨parsed, hparse, hrun⟩ := runParsed_of_commands s h
  rw [runLine_of_parse s hparse, hrun]

theorem runLine_eq_of_commands {other : String} (h : Line.Commands line b arguments)
    (h' : Line.Commands other b arguments) : s.runLine other = s.runLine line := by
  obtain ⟨parsed, hparse, hrun⟩ := runParsed_of_commands s h
  obtain ⟨parsed', hparse', hrun'⟩ := runParsed_of_commands s h'
  rw [runLine, runLine, hparse, hparse']
  dsimp only
  rw [hrun, hrun']

theorem runBuiltin_of_rejects (h : b.Rejects s arguments) :
    (s.runBuiltin b arguments).2.vars = s.vars
      ∧ (s.runBuiltin b arguments).2.directory = s.directory := by
  obtain ⟨fault, hfault⟩ := exists_fault_iff.mpr h
  rw [runBuiltin, hfault]
  exact ⟨rfl, rfl⟩

theorem runBuiltin_of_not_rejects (h : ¬b.Rejects s arguments) :
    b.Does s (s.runBuiltin b arguments).2 arguments := by
  rw [runBuiltin]
  split
  · next hrun => exact does_of_run hrun
  · next hrun => exact (h (exists_fault_iff.mp ⟨_, hrun⟩)).elim

/-- A line that is neither assignments nor begins with a command of the shell
changes nothing. -/
theorem runLine_of_neither (s : Session)
    (hassignments : ∀ pairs, Line.parse line ≠ .ok (.assignments pairs))
    (hcommands : ∀ b arguments, ¬Line.Commands line b arguments) :
    (s.runLine line).2.vars = s.vars ∧ (s.runLine line).2.directory = s.directory := by
  cases hparse : Line.parse line with
  | error fault =>
      rw [runLine, hparse]
      exact ⟨rfl, rfl⟩
  | ok parsed =>
      rw [runLine_of_parse s hparse]
      cases parsed with
      | empty => exact ⟨rfl, rfl⟩
      | assignments pairs => exact (hassignments pairs hparse).elim
      | pipeline p =>
          rw [runParsed_pipeline hparse hcommands]
          exact ⟨runJob_vars s p, runJob_directory s p⟩

/-- **What a line does to a session.** Assignments are made from left to right.
A command of the shell in front changes what it says or nothing, and nothing
else on the line matters. All other lines change nothing. -/
theorem yields_line (s : Session) (hline : '\x00' ∉ line.toList) : s.Yields line where
  assignments pairs hparse := by
    rw [runLine_of_parse s hparse]
    exact ⟨Variables.assigned_foldl pairs s.vars, rfl⟩
  alike _ _ _ h h' := runLine_eq_of_commands h h'
  writes b arguments h := by
    rw [runLine_of_commands s h]
    exact onlyWrites_runBuiltin s b arguments
  rejected _ _ h hrejects := by
    rw [runLine_of_commands s h]
    exact runBuiltin_of_rejects hrejects
  accepted _ _ h hrejects := by
    rw [runLine_of_commands s h]
    exact runBuiltin_of_not_rejects hrejects
  other := runLine_of_neither s
  survives hrefused hstored hcrash := by
    have hsound := runLine_isSound ⟨hrefused, fun name value hasks => hstored name value hasks⟩
      hline fun _ hasks => hasks
    rw [crash_iff_refused hrefused, hsound.accepted] at hcrash
    cases hcrash

/-- The first name stays because the second one is bad, and neither the file
nor the job on the line comes to be. -/
theorem yields_bad_name :
    '\x00' ∉ "unset A 2B > file | a &".toList
      ∧ ((startedIn [(.ofString "A", .ofString "1")]).runLine "unset A 2B > file | a &").2.vars
        = .inherit [(.ofString "A", .ofString "1")]
      ∧ (startedIn []).OnlyWrites ((startedIn []).runLine "unset A 2B > file | a &").2 := by
  have hzero : '\x00' ∉ "unset A 2B > file | a &".toList := by decide
  have hparse : Line.parse "unset A 2B > file | a &" = Line.ofTokens [.word "unset" false,
      .word "A" false, .word "2B" false, .redirect none .output, .word "file" false, .pipe,
      .word "a" false, .background] :=
    Line.parse_of_rendered (by decide) (by decide)
  have hcommand : Line.Commands "unset A 2B > file | a &" .unset ["A", "2B"] :=
    ⟨_, _, _, hparse, rfl, rfl⟩
  have hrejects (s : Session) : Builtin.Rejects s .unset ["A", "2B"] :=
    @Builtin.Rejects.removed s ["A", "2B"] "2B" (by decide) (by decide)
  exact ⟨hzero, ((yields_line _ hzero).rejected _ _ hcommand (hrejects _)).1,
    (yields_line _ hzero).writes _ _ hcommand⟩

end Session

end JobShell
