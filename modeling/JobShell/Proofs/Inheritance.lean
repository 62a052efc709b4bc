import JobShell.Proofs.Changes
import JobShell.Proofs.Description
import JobShell.Proofs.Overriding

/-!
# Variables that were inherited

The mark of a variable decides whether a removal or an assignment reaches the
environment, and a session marks what it inherits only where name and value
are text. So a session governs a variable (`Session.Governs`: a removal holds
until the next export, an assignment of an inherited variable is published)
exactly if the environment it starts in has a text for the name or no entry
at all (`governs_iff_isReadable`). An entry with any other value can neither
be removed nor replaced, and every job still inherits it.

Three facts about the mark carry this. A variable with an entry in the
environment is marked: that holds at the start for the readable names only
(`isTracked_inherit`) and is kept by every `Update`. A mark stays until the
variable is removed, and a variable without one stays so until it is
exported.
-/

namespace JobShell

/-- If there is an entry for the name, one of them has a value that is
text. -/
def Environment.IsReadable (env : Environment) (name : String) : Prop :=
  .ofString name ∈ env.names → ∃ value, (.ofString name, .ofString value) ∈ env

namespace Variables

variable {vs : Variables} {name : String}

/-! ## The mark of a variable -/

/-- An entry for the variable in the environment has a mark. -/
def IsTracked (vs : Variables) (name : String) : Prop :=
  .ofString name ∈ vs.environment.names → vs.isExported name = true

theorem isTracked_inherit {env : Environment} (hname : isVariableName name = true) :
    (inherit env).IsTracked name ↔ env.IsReadable name := by
  rw [IsTracked, Environment.IsReadable, environment_inherit, isExported_inherit]
  simp only [mem_inheritable_iff, hname, true_and]

theorem IsTracked.apply (h : vs.IsTracked name) (u : Update) : (u.apply vs).IsTracked name := by
  intro hmem
  cases u with
  | assign other value =>
      rw [Update.apply, environment_assign] at hmem
      rw [Update.apply, isExported_assign]
      split at hmem
      · rename_i hexported
        rcases Environment.mem_names_set.mp hmem with heq | hmem
        · rwa [Bytes.ofString_inj.mp heq]
        · exact h hmem
      · exact h hmem
  | export_ other value =>
      rw [Update.apply, environment_exportName] at hmem
      rw [Update.apply, isExported_exportName, Bool.or_eq_true, beq_iff_eq]
      split at hmem
      · exact (Environment.mem_names_set.mp hmem).imp Bytes.ofString_inj.mp h
      · exact Or.inr (h hmem)
  | unset other =>
      rw [Update.apply, environment_unset] at hmem
      rw [Update.apply, isExported_unset, Bool.and_eq_true, bne_iff_ne]
      split at hmem
      · obtain ⟨hne, hmem⟩ := Environment.mem_names_unset.mp hmem
        exact ⟨fun heq => hne (congrArg Bytes.ofString heq), h hmem⟩
      · -- A name without a mark has no entry that could be left behind.
        rename_i hmark
        have hexported := h hmem
        exact ⟨fun heq => hmark (heq ▸ hexported), hexported⟩

theorem isExported_apply (h : vs.isExported name = true) {u : Update} (hu : u ≠ .unset name) :
    (u.apply vs).isExported name = true := by
  cases u with
  | assign other value => rwa [Update.apply, isExported_assign]
  | export_ other value => rw [Update.apply, isExported_exportName, h, Bool.or_true]
  | unset other =>
      have hne : name ≠ other := fun heq => hu (congrArg Update.unset heq.symm)
      rw [Update.apply, isExported_unset, h, Bool.and_true, bne_iff_ne]
      exact hne

theorem not_isExported_apply (h : vs.isExported name = false) {u : Update}
    (hu : ∀ value, u ≠ .export_ name value) : (u.apply vs).isExported name = false := by
  cases u with
  | assign other value => rwa [Update.apply, isExported_assign]
  | export_ other value =>
      have hne : name ≠ other := fun heq => hu value (by rw [heq])
      rw [Update.apply, isExported_exportName, h, Bool.or_false, beq_eq_false_iff_ne]
      exact hne
  | unset other => rw [Update.apply, isExported_unset, h, Bool.and_false]

/-- An entry of a variable without a mark stays in the environment. -/
theorem mem_names_apply (h : vs.isExported name = false)
    (hmem : .ofString name ∈ vs.environment.names) (u : Update) :
    .ofString name ∈ (u.apply vs).environment.names := by
  cases u with
  | assign other value =>
      rw [Update.apply, environment_assign]
      split
      · exact Environment.mem_names_set.mpr (Or.inr hmem)
      · exact hmem
  | export_ other value =>
      rw [Update.apply, environment_exportName]
      split
      · exact Environment.mem_names_set.mpr (Or.inr hmem)
      · exact hmem
  | unset other =>
      rw [Update.apply, environment_unset]
      split
      · rename_i hexported
        refine Environment.mem_names_unset.mpr ⟨fun heq => ?_, hmem⟩
        rw [← Bytes.ofString_inj.mp heq, h] at hexported
        cases hexported
      · exact hmem

end Variables

/-! ## Lines -/

/-- Every valid name can be removed by a line, if need be between quotes. -/
theorem Line.exists_asks_unset {name : String} (hname : isVariableName name = true) :
    ∃ line, Line.Asks line (.unset name) := by
  let tokens : List Token := [.word "unset" true, .word name true]
  have hformed : ∀ t ∈ tokens, t.IsWellFormed := by
    rw [List.forall_mem_cons, List.forall_mem_singleton]
    exact ⟨trivial, trivial⟩
  have hparse := parse_of_rendered (String.toList_ofList (l := renderTokens tokens)) hformed
  exact ⟨_, .command ⟨_, _, _, hparse, rfl, rfl⟩
    (.unset (List.forall_mem_singleton.mpr hname) (List.mem_singleton_self name))⟩

/-- A line that removes variables exports none. -/
theorem Line.not_asks_export {line name : String} (h : Asks line (.unset name)) (other : String)
    (value : Option String) : ¬Asks line (.export_ other value) := by
  intro hexport
  cases h with
  | command hcommand hasks =>
      cases hasks with
      | unset hvalid hmem =>
          cases hexport with
          | command hcommand' hasks' =>
              obtain ⟨rfl, rfl⟩ := hcommand.unique hcommand'
              cases hasks'

namespace Session

open Variables (IsTracked isExported)

theorem runLine_of_commands_unset {line : String} {arguments : List String}
    (h : Line.Commands line .unset arguments)
    (hvalid : ∀ argument ∈ arguments, isVariableName argument = true) (s : Session) :
    (s.runLine line).2.vars = arguments.foldl Variables.unset s.vars := by
  obtain ⟨parsed, hparse, hrun⟩ := runParsed_of_commands s h
  obtain ⟨s', hs'⟩ := exists_unsetVariables s hvalid
  rw [runLine_of_parse s hparse, hrun, runBuiltin, Builtin.run, hs']
  exact (unsetVariables_vars hs').2

theorem runLine_unset {line name : String} (h : Line.Asks line (.unset name)) (s : Session) :
    (s.runLine line).2.vars.get? name = none
      ∧ (s.runLine line).2.vars.isExported name = false := by
  cases h with
  | command hcommand hasks =>
      cases hasks with
      | unset hvalid hmem =>
          rw [runLine_of_commands_unset hcommand hvalid]
          rename_i arguments
          have hforgotten := Variables.forgotten_foldl arguments s.vars
          exact ⟨hforgotten.value _ hmem, hforgotten.mark _ hmem⟩

theorem afterLines_concat (s : Session) (lines : List String) (line : String) :
    s.afterLines (lines ++ [line]) = ((s.afterLines lines).runLine line).2 :=
  List.foldl_concat ..

theorem isTracked_afterLines {s : Session} {name : String} (h : IsTracked s.vars name)
    (lines : List String) : (s.afterLines lines).vars.IsTracked name :=
  (afterLines_updates s lines).induction (R := (IsTracked · name)) (fun _ u _ h => h.apply u) h

theorem isExported_afterLines {s : Session} {name : String}
    (h : s.vars.isExported name = true) {lines : List String}
    (hlines : ∀ line ∈ lines, ¬Line.Asks line (.unset name)) :
    (s.afterLines lines).vars.isExported name = true := by
  refine (afterLines_updates s lines).induction (R := (isExported · name = true))
    (fun vs u hu h => ?_) h
  obtain ⟨line, hline, hu⟩ := hu
  refine Variables.isExported_apply h ?_
  rintro rfl
  exact hlines line hline hu

theorem not_isExported_afterLines {s : Session} {name : String}
    (h : s.vars.isExported name = false) {lines : List String}
    (hlines : ∀ line ∈ lines, ∀ value, ¬Line.Asks line (.export_ name value)) :
    (s.afterLines lines).vars.isExported name = false := by
  refine (afterLines_updates s lines).induction (R := (isExported · name = false))
    (fun vs u hu h => ?_) h
  obtain ⟨line, hline, hu⟩ := hu
  refine Variables.not_isExported_apply h fun value => ?_
  rintro rfl
  exact hlines line hline value hu

theorem mem_names_afterLines {s : Session} {name : String} (h : s.vars.isExported name = false)
    (hmem : .ofString name ∈ s.vars.environment.names) {lines : List String}
    (hlines : ∀ line ∈ lines, ∀ value, ¬Line.Asks line (.export_ name value)) :
    .ofString name ∈ (s.afterLines lines).vars.environment.names := by
  have hkept := (afterLines_updates s lines).induction
    (R := fun vs => vs.isExported name = false ∧ .ofString name ∈ vs.environment.names)
    (fun vs u hu hvs => ?_) ⟨h, hmem⟩
  · exact hkept.2
  · obtain ⟨line, hline, hu⟩ := hu
    refine ⟨Variables.not_isExported_apply hvs.1 fun value => ?_,
      Variables.mem_names_apply hvs.1 hvs.2 u⟩
    rintro rfl
    exact hlines line hline value hu

/-- What the lines of a session that started in `env` ask for a variable
reaches its environment. -/
structure Governs (s : Session) (env : Environment) (name : String) : Prop where
  /-- A variable that was removed has no value. -/
  forgotten : ∀ lines line, Line.Asks line (.unset name) →
    (s.afterLines (lines ++ [line])).vars.get? name = none
  /-- It is not in the environment until a line exports it. -/
  removed : ∀ lines line more, Line.Asks line (.unset name) →
    (∀ later ∈ more, ∀ value, ¬Line.Asks later (.export_ name value)) →
    .ofString name ∉ (s.afterLines (lines ++ line :: more)).vars.environment.names
  /-- So no stage of a job receives it that does not set it itself. -/
  unseen : ∀ lines line more, Line.Asks line (.unset name) →
    (∀ later ∈ more, ∀ value, ¬Line.Asks later (.export_ name value)) →
    ∀ (e : Execution) (stage : PreparedStage), stage.stage.vars[name]? = none →
      .ofString name ∉ (Supervisor.request e
        (s.afterLines (lines ++ line :: more)).vars.environment stage).environment.names
  /-- A variable that was inherited and is still there can be given a new
  value. -/
  updated : .ofString name ∈ env.names →
    ∀ lines line pairs value, (∀ earlier ∈ lines, ¬Line.Asks earlier (.unset name)) →
    Line.parse line = .ok (.assignments pairs) → pairs.reverse.lookup name = some value →
    (s.afterLines (lines ++ [line])).vars.environment.get? (.ofString name)
      = some (.ofString value)

theorem not_mem_names_afterLines {s : Session} {name : String} (h : IsTracked s.vars name)
    {line : String} (hline : Line.Asks line (.unset name)) (lines : List String)
    {more : List String} (hmore : ∀ later ∈ more, ∀ value, ¬Line.Asks later (.export_ name value)) :
    .ofString name ∉ (s.afterLines (lines ++ line :: more)).vars.environment.names := by
  intro hmem
  have hexported := isTracked_afterLines h _ hmem
  have hafter : s.afterLines (lines ++ line :: more)
      = ((s.afterLines lines).runLine line).2.afterLines more := List.foldl_append ..
  rw [hafter, not_isExported_afterLines (runLine_unset hline _).2 hmore] at hexported
  cases hexported

theorem governs_of_isTracked {env : Environment} {s : Session} {name : String}
    (hs : s.vars = .inherit env)
    (h : IsTracked s.vars name) : s.Governs env name where
  forgotten lines line hline := by
    rw [afterLines_concat]
    exact (runLine_unset hline _).1
  removed lines line more hline hmore := not_mem_names_afterLines h hline lines hmore
  unseen lines line more hline hmore e stage hstage := by
    rw [Supervisor.request, Environment.mem_names_forProcess]
    intro hmem
    rcases Environment.mem_names_forStage hmem with hmem | ⟨other, value, hother, heq⟩
    · exact not_mem_names_afterLines h hline lines hmore hmem
    · rw [← Bytes.ofString_inj.mp heq, hstage] at hother
      cases hother
  updated hmem lines line pairs value hlines hparse hvalue := by
    have hexported : s.vars.isExported name = true := h (by rwa [hs, Variables.environment_inherit])
    rw [afterLines_concat, runLine_of_parse _ hparse, runParsed, assignAll,
      Variables.entry_foldl_assign, if_pos (isExported_afterLines hexported hlines), hvalue]
    rfl

/-- **Removing and replacing what was inherited.** A session governs a
variable exactly if the environment it started in has a text for it, or
nothing. -/
theorem governs_iff_isReadable {env : Environment} {s : Session} {name : String}
    (hname : isVariableName name = true) (hs : s.vars = .inherit env) :
    s.Governs env name ↔ env.IsReadable name := by
  rw [← Variables.isTracked_inherit hname, ← hs]
  refine ⟨fun h hmem => ?_, governs_of_isTracked hs⟩
  by_contra hmark
  rw [Bool.not_eq_true] at hmark
  -- A line that removes the variable does not reach its entry then.
  obtain ⟨line, hline⟩ := Line.exists_asks_unset hname
  refine h.removed [] line [] hline (by simp) (mem_names_afterLines hmark hmem ?_)
  rw [List.nil_append, List.forall_mem_singleton]
  exact Line.not_asks_export hline name

/-- A session without a terminal that starts in `env`. -/
def startedIn (env : Environment) : Session where
  vars := .inherit env
  directory := Machine.Tree.root
  supervisor :=
    { host := .ofStreams (.fresh []) ⟨.report, 0, .input⟩ ⟨.report, 0, .output⟩
        ⟨.report, 0, .output⟩
      notices := .ofCapacity 1 }

/-- A value that is no text does not matter where there is one that is. -/
theorem governs_of_two_entries :
    (startedIn [(.ofString "LANG", [255]), (.ofString "LANG", .ofString "C")]).Governs
      [(.ofString "LANG", [255]), (.ofString "LANG", .ofString "C")] "LANG" :=
  (governs_iff_isReadable (by decide) rfl).mpr fun _ => ⟨"C", by decide⟩

/-- The line is accepted, and jobs still inherit the entry. -/
theorem environment_unset_of_bytes :
    Line.Asks "unset BAD" (.unset "BAD")
      ∧ ((startedIn [(.ofString "BAD", [255])]).runLine "unset BAD").2.vars.environment
        = [(.ofString "BAD", [255])]
      ∧ ¬(startedIn [(.ofString "BAD", [255])]).Governs [(.ofString "BAD", [255])] "BAD" := by
  have hparse : Line.parse "unset BAD"
      = Line.ofTokens [.word "unset" false, .word "BAD" false] :=
    Line.parse_of_rendered (by rfl) (by decide)
  have hcommand : Line.Commands "unset BAD" .unset ["BAD"] := ⟨_, _, _, hparse, rfl, rfl⟩
  have hvalid : ∀ argument ∈ ["BAD"], isVariableName argument = true := by decide
  have hasks : Line.Asks "unset BAD" (.unset "BAD") :=
    .command hcommand (.unset hvalid (List.mem_singleton_self _))
  have henv : ((startedIn [(.ofString "BAD", [255])]).runLine "unset BAD").2.vars.environment
      = [(.ofString "BAD", [255])] := by
    rw [runLine_of_commands_unset hcommand hvalid]
    decide +kernel
  refine ⟨hasks, henv, fun h => h.removed [] "unset BAD" [] hasks (by simp) ?_⟩
  show _ ∈ ((startedIn _).runLine "unset BAD").2.vars.environment.names
  rw [henv]
  exact List.mem_singleton_self _

end Session

end JobShell
