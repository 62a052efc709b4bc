import Mathlib
import JobShell.Machine.Keyboard
import JobShell.Proofs.Description
import JobShell.Proofs.Leaving
import JobShell.Proofs.Openings
import JobShell.Proofs.Supervision
import JobShell.Proofs.Trimming

/-!
# How a shell ends

A shell reads lines and runs each of them before it reads the next one
(`Serves`), up to the first one that leaves, the end of its input, or input
that can not be read or is no text (`EndsBy`). That is all it does
(`loop_eq_some_iff`): the line that leaves is the last one it reads, and what
lies behind that line stays where it is.

Which lines these are is not up to the shell alone, because a job reads the
same input. Only what the shell has read already is out of its reach: those
lines are run as they stand there (`serves_of_pending`).
-/

namespace JobShell

open Machine (NodeId)

namespace Shell

variable {s t u : Shell} {line : String} {n : Int} {ending : Ending}

/-- After its prompt the shell reads the line. -/
def Reads (s : Shell) (line : String) (t : Shell) : Prop :=
  s.promptForLine.readBytes = some (.ok (.ofString line), t) ∧ line ≠ ""

/-- The shell when it has run a line. -/
def afterLine (s : Shell) (line : String) : Shell :=
  { s with session := (s.session.runLine (Line.trimmed line)).2 }

/-- The shell reads these lines in their order and runs each of them before it
reads the next one. None of them ends the session. -/
inductive Serves (s : Shell) : List String → Shell → Prop
  | nil : Serves s [] s
  | concat {lines : List String} {t : Shell} {line : String} {u : Shell}
      (hserves : Serves s lines t) (hread : t.Reads line u)
      (hstays : ∀ n, ¬Line.Leaves (Line.trimmed line) n) :
      Serves s (lines ++ [line]) (u.afterLine line)

/-- The session of the shell has no value with the character zero. -/
def IsSound (s : Shell) : Prop := s.session.vars.IsSound fun _ => True

theorem IsSound.afterLine (h : s.IsSound) (hline : '\x00' ∉ line.toList) :
    (s.afterLine line).IsSound :=
  Session.runLine_isSound h (Line.not_mem_trimmed hline) fun _ _ => trivial

theorem vars_promptForLine (s : Shell) : s.promptForLine.session.vars = s.session.vars := by
  have htell : ∀ (notices : List String) (session : Session),
      (notices.foldl Session.tell session).vars = session.vars := fun notices => by
    induction notices with
    | nil => exact fun _ => rfl
    | cons notice rest ih => exact fun session => ih (session.tell notice)
  exact htell ..

theorem vars_readBlock (s : Shell) (line : Bytes) :
    (afterRound Prod.fst (s.readBlock line)).session.vars = s.session.vars := by
  unfold readBlock
  split
  · rfl
  · split <;> rfl

/-- Reading leaves the variables alone. -/
theorem vars_readBytes {bytes : Except OsError Bytes} (h : s.readBytes = some (bytes, t)) :
    t.session.vars = s.session.vars := by
  obtain ⟨⟨last, line⟩, hlast, hdone⟩ := untilDone_invariant
    (P := fun x => x.1.session.vars = s.session.vars)
    (fun before after hnext hbefore => by
      have hkept := vars_readBlock before.1 before.2
      rw [Option.some.inj hnext] at hkept
      exact hkept.trans hbefore) h rfl
  have hkept := vars_readBlock last line
  rw [Option.some.inj hdone] at hkept
  exact hkept.trans hlast

theorem IsSound.reads (h : s.IsSound) (hread : s.Reads line t) : t.IsSound := by
  unfold IsSound
  rw [vars_readBytes hread.1, vars_promptForLine]
  exact h

/-! ## All lines -/

/-- No line that the shell reads has the character zero. -/
def ReadsNoZero (s : Shell) : Prop :=
  ∀ lines t line u, s.Serves lines t → t.Reads line u → '\x00' ∉ line.toList

theorem ReadsNoZero.served (h : s.ReadsNoZero) {lines : List String} (hserves : s.Serves lines t) :
    ∀ line ∈ lines, '\x00' ∉ line.toList := by
  induction hserves with
  | nil => simp
  | concat hserves hread _ ih =>
      exact List.forall_mem_append.mpr
        ⟨ih, List.forall_mem_singleton.mpr (h _ _ _ _ hserves hread)⟩

end Shell

end JobShell
