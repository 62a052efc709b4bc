import JobShell.Machine.Setup
import JobShell.Shell
import JobShell.Tool.Table

/-!
# The command

Runs the shell on a fresh machine, in the home directory, with the lines of
standard input. What the machine wrote to its standard streams is written to
the real ones at the end.
-/

namespace JobShell

open Machine (Tree World)

/-- The home directory of a fresh machine. -/
def homeDirectory : String := "/root"

/-- The environment variables that are passed on to the shell. -/
def passedOn : List String := ["JOBSH_PROMPT", "JOBSH_NOTIFY_CAPACITY", "JOBSH_LOG"]

/-- What is left of a run of the shell. -/
structure Transcript where
  stdout : Bytes
  stderr : Bytes
  status : Nat

/-- Runs the shell on a fresh machine. -/
def transcript (input : Bytes) (environment : Environment) : Transcript :=
  let w := World.fresh Tool.table
  let home := (w.tree.find Tree.root (.ofString homeDirectory)).toOption.getD Tree.root
  let (stdin, tree) := w.tree.addLoose (.file input false)
  let (stdout, tree) := tree.addLoose (.file [] false)
  let (stderr, tree) := tree.addLoose (.file [] false)
  let host := Host.ofStreams { w with tree } { endpoint := .node stdin, mode := .input }
    { endpoint := .node stdout, mode := .append } { endpoint := .node stderr, mode := .append }
  let host := { host with shell.ignored := [Signal.brokenPipe] }
  let (ending, host) := Shell.launch host home environment
  { stdout := host.world.tree.contents stdout, stderr := host.world.tree.contents stderr
    status := match ending.reason with
      | .code n => n.toNat
      | .signal n => 128 + n.toNat }

end JobShell

open JobShell

/-- Reads all input, runs the shell, and writes what it wrote. -/
def main : IO UInt32 := do
  let input ← (← IO.getStdin).readBinToEnd
  let given ← passedOn.filterMapM fun name => do
    return (← IO.getEnv name).map fun value => (name, value)
  let vars := [("PATH", "/usr/bin:/bin"), ("HOME", homeDirectory)] ++ given
  let t := transcript input.toList
    (vars.map fun (name, value) => (.ofString name, .ofString value))
  (← IO.getStdout).write ⟨t.stdout.toArray⟩
  (← IO.getStderr).write ⟨t.stderr.toArray⟩
  return t.status.toUInt32
