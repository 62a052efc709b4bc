import JobShell.Script.Builtin.Arguments
import JobShell.Tool.Print

/-!
# Builtin commands that print
-/

namespace JobShell.Script

/-- Prints its arguments, with their escapes resolved. -/
def echoBuiltin (arguments : List String) : Sh Nat := do
  let (ended, words) := match arguments with
    | "-n" :: rest => (false, rest)
    | words => (true, words)
  let text := " ".intercalate words
  let (resolved, ending) := Tool.Format.resolve .builtinText text
  printed (resolved ++ if ended && ending = .whole then "\n" else "")

/-- The wording of a fault of an argument of `printf`. -/
def formatFaultWords : Tool.Format.Fault → String
  | .notNumeric argument => argument ++ ": expected numeric value"
  | .incomplete argument => argument ++ ": not completely converted"
  | .outOfRange argument => argument ++ ": " ++ errorText 34
  | _ => ""

/-- Complains about the faults of a format and its arguments; the status that
comes of them. -/
def reportFormatFaults (status : Nat) : List Tool.Format.Fault → Sh Nat
  | [] => return status
  | .excess _ :: rest => reportFormatFaults status rest
  | .refused written finished :: _ => do
    complain (if finished then written ++ ": invalid directive" else "missing format character")
    return usageStatus
  | fault :: rest => do
    complain (formatFaultWords fault)
    reportFormatFaults 1 rest

/-- Prints its arguments as a format says. -/
def printfBuiltin (arguments : List String) : Sh Nat := do
  match ← operandsOf arguments with
  | [] => abandon "usage: printf format [arg ...]"
  | format :: arguments => do
    let (output, faults) := Tool.Format.run .builtin format arguments
    let faulty ← reportFormatFaults 0 faults
    let status ← printed output
    return max faulty status

end JobShell.Script
