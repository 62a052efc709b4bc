import JobShell.Script.Builtin.Arguments

/-!
# Builtin commands that leave
-/

namespace JobShell.Script

/-- The status that an argument asks for, or else that of the last command. -/
def wantedStatus (arguments : List String) : Sh Nat := do
  match arguments with
  | [] => return (← get).status
  | text :: _ => readNumber text

/-- Ends the script. -/
def exitBuiltin (arguments : List String) : Sh Nat := do
  let status ← wantedStatus arguments
  throw (.script (status % 256))

/-- Ends the current function, or the script outside of any. -/
def returnBuiltin (arguments : List String) : Sh Nat := do
  let status ← wantedStatus arguments
  throw (.function status)

/-- Ends loops, or begins their next round. -/
def loopBuiltin (again : Bool) (arguments : List String) : Sh Nat := do
  let text := arguments.headD "1"
  let levels ← readNumber text
  if levels = 0 then abandon ("Illegal number: " ++ text)
  let loops := (← get).loops
  if loops = 0 then return 0
  else
    setStatus 0
    throw (.loop (min levels loops) again)

end JobShell.Script
