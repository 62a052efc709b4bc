import JobShell.Proofs.Inheritance
import JobShell.Proofs.Leaving

/-!
# Lines that stop a session at once

Three things that running a line relies on are not checked where they are
used: that no separator is left in a segment, that a pipeline has a first
stage, and that every call to the environment is possible. The parser sees to
the first two, and to the names of the calls. It does not see to the values:
a value may hold the character zero, and publishing it stops the session
(`Session.crashes_iff`).

A value of this kind can be on the line, or it was stored before and is
exported by name. Nothing else stops a session.
-/

namespace JobShell

namespace Line

/-- When the background mark is off, only words and redirections are left
between the pipes. -/
theorem no_separators_of_splitBackground {tokens front : List Token} {foreground : Bool}
    (h : splitBackground tokens = .ok (front, foreground)) :
    ∀ segment ∈ segments front, .pipe ∉ segment ∧ .background ∉ segment := by
  rw [splitBackground_eq] at h
  split at h
  · cases h
  · rename_i hmark
    obtain ⟨rfl, -⟩ := Prod.mk.inj (Except.ok.inj h)
    rw [segments_eq_splitOn]
    exact segments_no_separators hmark

end Line

namespace Session

variable {s s' : Session} {line : String}

/-- A session that was started in some environment and has survived some
lines. What happens between lines leaves the variables alone. -/
inductive Reachable : Session → Prop
  | start {s : Session} {environment : Environment} (h : s.vars = .inherit environment) :
      Reachable s
  | afterLine {s : Session} {line : String} (h : Reachable s)
      (hsurvived : (s.runLine line).1 ≠ .crash) : Reachable (s.runLine line).2
  | aside {s s' : Session} (h : Reachable s) (hvars : s'.vars = s.vars) : Reachable s'

theorem flow_runParsed (s : Session) (parsed : Line) : (s.runParsed parsed).1 ≠ .crash := by
  cases parsed with
  | empty | assignments pairs => simp [runParsed]
  | pipeline p =>
      rw [runParsed]
      split
      · simp
      split
      · rename_i b hb
        rw [runBuiltin]
        split
        · rename_i result hrun
          obtain ⟨flow, after⟩ := result
          rcases flow_of_run hrun with ⟨rfl, -⟩ | ⟨n, rfl, -⟩ <;> simp
        · simp
      · simp

/-- A session stops at once exactly if something was refused. -/
theorem crash_iff_refused (h : s.vars.refused = false) (line : String) :
    (s.runLine line).1 = .crash ↔ (s.runLine line).2.vars.refused = true := by
  rw [runLine]
  split
  · exact iff_of_false (by simp) (Bool.eq_false_iff.mp h)
  · rename_i parsed hparse
    have hflow := s.flow_runParsed parsed
    dsimp only
    cases (s.runParsed parsed).2.vars.refused with
    | true => simp
    | false => simpa using hflow

theorem Reachable.refused (h : s.Reachable) : s.vars.refused = false := by
  induction h with
  | start h =>
      rw [h]
      exact Variables.refused_inherit _
  | afterLine _ hsurvived ih =>
      exact Bool.eq_false_iff.mpr fun hrefused => hsurvived ((crash_iff_refused ih _).mpr hrefused)
  | aside _ hvars ih => rwa [hvars]

/-- A line that exports makes one change after the other. -/
theorem vars_runLine_of_export {arguments : List String} {items : List (String × Option String)}
    (hcommand : Line.Commands line .export_ arguments)
    (hitems : arguments.mapM exportArgument = .ok items) :
    (s.runLine line).2.vars
      = (items.map fun item => .export_ item.1 item.2).foldl Update.apply s.vars := by
  obtain ⟨parsed, hparse, hrun⟩ := runParsed_of_commands s hcommand
  have hexports : s.exportVariables arguments
      = .ok (items.foldl (fun s item => s.exportVariable item.1 item.2) s) := by
    rw [exportVariables, hitems]
    rfl
  have hbuiltin : s.runBuiltin .export_ arguments
      = (.continue_, items.foldl (fun s item => s.exportVariable item.1 item.2) s) := by
    rw [runBuiltin, Builtin.run, hexports]
    rfl
  rw [runLine_of_parse s hparse, hrun, hbuiltin, foldl_exportVariable_vars, List.foldl_map]
  rfl

/-- **Only a value with the character zero stops a session.** Whatever the line
and the session that was reached: what the parser reads between pipes are
words and redirections, a pipeline has a first stage, and every call that the
line makes to the environment is one for a name that an entry can have. The
session stops at once exactly if such a call has a value with the character
zero. It does not if neither the line nor a stored value that it exports by
name has this character. -/
theorem crashes_iff (h : s.Reachable) (line : String) :
    (∀ tokens front foreground, Line.lex line.toList = .ok tokens →
        Line.splitBackground tokens = .ok (front, foreground) →
        ∀ segment ∈ Line.segments front, .pipe ∉ segment ∧ .background ∉ segment)
      ∧ (∀ p, Line.parse line = .ok (.pipeline p) → p.stages ≠ [])
      ∧ (∃ updates : List Update, (∀ u ∈ updates, Line.Asks line u)
        ∧ (s.runLine line).2.vars = updates.foldl Update.apply s.vars
        ∧ (∀ c ∈ Update.calls s.vars updates, c.IsNamed)
        ∧ ((s.runLine line).1 = .crash
          ↔ ∃ c ∈ Update.calls s.vars updates, ∃ value ∈ c.value?, '\x00' ∈ value.toList))
      ∧ ('\x00' ∉ line.toList →
        (∀ name value, Line.Asks line (.export_ name none) → s.vars.get? name = some value →
          '\x00' ∉ value.toList) →
        (s.runLine line).1 ≠ .crash) := by
  have hrefused := h.refused
  refine ⟨fun tokens front foreground _ => Line.no_separators_of_splitBackground,
    fun p => Line.stages_ne_nil_of_parse, ?_, fun hline hstored hcrash => ?_⟩
  · obtain ⟨updates, hasks, hafter⟩ := runLine_updates s line
    have hnames : ∀ c ∈ Update.calls s.vars updates, isVariableName c.name = true :=
      Update.isVariableName_of_mem_calls fun u hu => isVariableName_of_asks (hasks u hu)
    refine ⟨updates, hasks, hafter, fun c hc =>
      EnvironmentCall.isNamed_of_isVariableName (hnames c hc), ?_⟩
    rw [crash_iff_refused hrefused, hafter, Update.refused_foldl, hrefused, Bool.false_or,
      List.any_eq_true]
    refine exists_congr fun c => and_congr_right fun hc => ?_
    rw [Bool.not_eq_true', ← Bool.not_eq_true,
      EnvironmentCall.isPossible_iff_of_isVariableName (hnames c hc)]
    simp
  · have hsound := runLine_isSound ⟨hrefused, fun name value hasks => hstored name value hasks⟩
      hline fun _ hasks => hasks
    rw [crash_iff_refused hrefused, hsound.accepted] at hcrash
    cases hcrash

/-- It stops even if the value is replaced on the same line. -/
theorem crashes_of_replaced :
    ((startedIn []).runLine "export A=\x00 A=1").1 = .crash
      ∧ ∃ updates : List Update, (∀ u ∈ updates, Line.Asks "export A=\x00 A=1" u)
        ∧ ∃ c ∈ Update.calls (startedIn []).vars updates, ∃ value ∈ c.value?,
          '\x00' ∈ value.toList := by
  have hparse : Line.parse "export A=\x00 A=1"
      = Line.ofTokens [.word "export" false, .word "A=\x00" false, .word "A=1" false] :=
    Line.parse_of_rendered (by rfl) (by decide)
  have hitems : ["A=\x00", "A=1"].mapM exportArgument
      = .ok [("A", some "\x00"), ("A", some "1")] := rfl
  have hcrash : ((startedIn []).runLine "export A=\x00 A=1").1 = .crash := by
    rw [crash_iff_refused rfl, vars_runLine_of_export ⟨_, _, _, hparse, rfl, rfl⟩ hitems]
    decide +kernel
  obtain ⟨-, -, ⟨updates, hasks, -, -, hiff⟩, -⟩ :=
    crashes_iff (.start rfl : (startedIn []).Reachable) "export A=\x00 A=1"
  exact ⟨hcrash, updates, hasks, hiff.mp hcrash⟩

/-- A session that was just started does not survive this line. -/
theorem crash_of_exported_zero :
    (startedIn []).Reachable ∧ ((startedIn []).runLine "export A=\x00").1 = .crash := by
  have hparse : Line.parse "export A=\x00"
      = Line.ofTokens [.word "export" false, .word "A=\x00" false] :=
    Line.parse_of_rendered (by rfl) (by decide)
  have hitems : ["A=\x00"].mapM exportArgument = .ok [("A", some "\x00")] := rfl
  refine ⟨.start rfl, ?_⟩
  rw [crash_iff_refused rfl, vars_runLine_of_export ⟨_, _, _, hparse, rfl, rfl⟩ hitems]
  decide +kernel

end Session

end JobShell
