import JobShell.Proofs.Decimals
import JobShell.Proofs.Failing
import JobShell.Proofs.Zeros

/-!
# Lines that end a session

A line ends the session if its first command is `exit`, alone or with a
status (`Line.Leaves`), and then it does nothing else. After every other line
the session goes on. If something goes wrong with it (`Session.Fails`), the
user is told so once, and otherwise not at all (`Session.Answers`).

The only other way to leave would be a value that can not be put into the
environment, so all of this is said of lines that publish none
(`answers_of_isSound`).
-/

namespace JobShell

/-- The line begins with `exit`, alone or with a status that is a number of 32
bits. Nothing else on it matters. -/
inductive Line.Leaves (line : String) : Int → Prop
  | bare (hcommand : Commands line .exit []) : Leaves line 0
  | status {word : String} {n : Int} (hcommand : Commands line .exit [word])
      (hn : Text.Denotes word.toList n) (hlow : -2 ^ 31 ≤ n) (hhigh : n ≤ 2 ^ 31 - 1) :
      Leaves line n

namespace Session

variable {s s' : Session} {line : String} {b : Builtin} {arguments : List String} {n : Int}

/-- What goes wrong with a line, as the user is told. -/
inductive Fails (s : Session) (line : String) : String → Prop
  | syntax_ {fault : Line.SyntaxFault} (hparse : Line.parse line = .error fault) :
      Fails s line fault.message
  | command {b : Builtin} {arguments : List String} {fault : BuiltinFault}
      (hcommand : Line.Commands line b arguments) (hrun : b.run s arguments = .error fault) :
      Fails s line fault.message
  | job {p : Pipeline} {failure : Failure} (hparse : Line.parse line = .ok (.pipeline p))
      (hnone : ∀ b arguments, ¬Line.Commands line b arguments)
      (hjob : s.supervisor.Fails s.directory s.vars.environment p failure) :
      Fails s line failure.message

/-- What becomes of a session and its user with a line. -/
structure Answers (s : Session) (line : String) : Prop where
  exits : ∀ n, (s.runLine line).1 = .exit n ↔ Line.Leaves line n
  unchanged : ∀ n, Line.Leaves line n → (s.runLine line).2 = s
  continues : (∀ n, ¬Line.Leaves line n) → (s.runLine line).1 = .continue_
  failed : ∀ message, s.Fails line message →
    (s.runLine line).1 = .continue_ ∧ (s.runLine line).2.told = s.told ++ ["jobsh: " ++ message]
  quiet : (∀ message, ¬s.Fails line message) → (s.runLine line).2.told = s.told

/-! ## The commands of the shell -/

theorem exitStatus_eq_ok_iff :
    exitStatus arguments = .ok n ↔ arguments = [] ∧ n = 0
      ∨ ∃ word, arguments = [word] ∧ Text.Denotes word.toList n ∧ -2 ^ 31 ≤ n
          ∧ n ≤ 2 ^ 31 - 1 := by
  match arguments with
  | [] =>
      simp only [exitStatus, Except.ok.injEq, true_and]
      refine ⟨fun h => Or.inl h.symm, ?_⟩
      rintro (rfl | ⟨word, hword, -⟩)
      · rfl
      · cases hword
  | [word] =>
      rw [exitStatus]
      constructor
      · intro h
        split at h
        · rename_i hread
          obtain rfl := Except.ok.inj h
          exact Or.inr ⟨word, rfl, Text.readInt32_eq_ok_iff.mp hread⟩
        · cases h
      · rintro (⟨hword, -⟩ | ⟨word', hword, hdenotes⟩)
        · cases hword
        · obtain rfl := List.singleton_inj.mp hword
          rw [Text.readInt32_eq_ok_iff.mpr hdenotes]
  | _ :: _ :: _ =>
      simp only [exitStatus]
      refine ⟨nofun, ?_⟩
      rintro (⟨hword, -⟩ | ⟨word, hword, -⟩)
      · cases hword
      · cases hword

/-- A command that is carried out goes on, or it is `exit`. -/
theorem flow_of_run {flow : Flow} (h : b.run s arguments = .ok (flow, s')) :
    flow = .continue_ ∧ b ≠ .exit
      ∨ ∃ n, flow = .exit n ∧ b = .exit ∧ exitStatus arguments = .ok n ∧ s' = s := by
  cases b with
  | exit =>
      obtain ⟨status, hstatus, heq⟩ := Except.map_eq_ok_iff.mp h
      obtain ⟨rfl, rfl⟩ := Prod.mk.inj heq
      exact Or.inr ⟨status, rfl, rfl, hstatus, rfl⟩
  | cd | export_ | set | unset =>
      obtain ⟨after, -, heq⟩ := Except.map_eq_ok_iff.mp h
      exact Or.inl ⟨(Prod.mk.inj heq).1.symm, nofun⟩

theorem runParsed_pipeline {p : Pipeline} (hparse : Line.parse line = .ok (.pipeline p))
    (hnone : ∀ b arguments, ¬Line.Commands line b arguments) :
    s.runParsed (.pipeline p) = (.continue_, s.runJob p) := by
  rw [runParsed]
  split
  · rfl
  · rename_i first rest hp
    split
    · rename_i b hb
      exact (hnone _ _ (Line.commands_of_parse hparse hp hb)).elim
    · rfl

end Session

end JobShell
