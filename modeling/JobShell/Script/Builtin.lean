import JobShell.Script.Builtin.Directory
import JobShell.Script.Builtin.Leaving
import JobShell.Script.Builtin.Parameters
import JobShell.Script.Builtin.Printing
import JobShell.Script.Builtin.Processes
import JobShell.Script.Builtin.Reading
import JobShell.Tool.Condition

/-!
# Builtin commands of scripts

The commands a script carries out itself. Each gets its arguments and
returns its status; one that is used wrongly complains and leaves. Those that
run other commands belong to the interpreter.
-/

namespace JobShell.Script

open Machine (Action)

/-- Tells by its status whether a condition holds. -/
def testBuiltin (bracket : Bool) (arguments : List String) : Sh Nat := do
  if bracket && arguments.getLast? ≠ some "]" then abandon "missing ]"
  match ← Tool.Condition.holds (if bracket then arguments.dropLast else arguments) with
  | .ok holds => return if holds then 0 else 1
  | .error fault => abandon fault.message

/-- The builtin commands that do not run other commands. -/
def builtins : List (String × (List String → Sh Nat)) :=
  [(":", fun _ => return 0), ("true", fun _ => return 0), ("false", fun _ => return 1),
   ("echo", echoBuiltin), ("printf", printfBuiltin), ("exit", exitBuiltin),
   ("return", returnBuiltin), ("break", loopBuiltin false), ("continue", loopBuiltin true),
   ("export", exportBuiltin), ("readonly", readonlyBuiltin), ("local", localBuiltin),
   ("unset", unsetBuiltin), ("alias", aliasBuiltin), ("unalias", unaliasBuiltin),
   ("set", setBuiltin), ("shift", shiftBuiltin), ("getopts", getoptsBuiltin),
   ("read", readBuiltin), ("cd", cdBuiltin), ("chdir", cdBuiltin), ("pwd", pwdBuiltin),
   ("kill", killBuiltin), ("wait", waitBuiltin), ("trap", trapBuiltin), ("jobs", jobsBuiltin),
   ("fg", continueBuiltin), ("bg", continueBuiltin), ("test", testBuiltin false),
   ("[", testBuiltin true), ("ulimit", ulimitBuiltin), ("umask", umaskBuiltin),
   ("times", timesBuiltin)]

/-- The builtin commands that run other commands or look for them. -/
def commandBuiltins : List String := ["eval", ".", "exec", "command", "type", "hash"]

/-- Whether a name stands for a builtin command. -/
def isBuiltin (name : String) : Bool :=
  commandBuiltins.contains name || builtins.any (·.1 = name)

end JobShell.Script
