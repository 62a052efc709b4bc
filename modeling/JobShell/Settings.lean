import JobShell.NoticeQueue
import JobShell.Text.Blank
import JobShell.Text.Decimal

/-!
# Settings

What a session is configured with, read once from the environment it starts
in. A setting that cannot be used is replaced by its default and leaves a
warning.
-/

namespace JobShell

/-- The configuration of a session. -/
structure Settings where
  prompt : String := "(jobsh) > "
  noticeCapacity : Nat := NoticeQueue.defaultCapacity
  /-- Where development logs go, if anywhere. -/
  devLog : Option String := none
  warnings : List String := []
  deriving DecidableEq, Repr

namespace Settings

/-- Reads a number of notices: a positive 64-bit number, with blanks around
it allowed. -/
def readCapacity (text : String) : Option Nat :=
  match Text.readNat64 (String.ofList (Text.trim text.toList)) with
  | .ok n => if 0 < n then some n else none
  | .error _ => none

/-- The warning about a number of notices that cannot be used. -/
def capacityWarning (text : String) : String :=
  s!"ignoring JOBSH_NOTIFY_CAPACITY={text}: expected a positive number, " ++
    s!"using {NoticeQueue.defaultCapacity}"

/-- The settings made by the variables that `lookup` finds. -/
def ofLookup (lookup : String → Option String) : Settings where
  prompt := (lookup "JOBSH_PROMPT").getD "(jobsh) > "
  noticeCapacity :=
    ((lookup "JOBSH_NOTIFY_CAPACITY").bind readCapacity).getD NoticeQueue.defaultCapacity
  devLog := (lookup "JOBSH_LOG").filter (· ≠ "")
  warnings :=
    match lookup "JOBSH_NOTIFY_CAPACITY" with
    | some text => if (readCapacity text).isSome then [] else [capacityWarning text]
    | none => []

end Settings

end JobShell
