import JobShell.Text.Bytes
import Std.Data.TreeMap.Basic

/-!
# Pipelines

What a command line asks for: stages connected by pipes, each with its own
arguments, redirections and variables. `Pipeline.describe` renders a
pipeline the way it is named in notices.
-/

namespace JobShell

/-- Which way data flows through a redirected descriptor. -/
inductive Direction
  | input
  | output
  deriving DecidableEq, Repr

namespace Direction

/-- The operator that redirects in this direction. -/
def symbol : Direction → Char
  | input => '<'
  | output => '>'

/-- The descriptor that is redirected when no number is given. -/
def standard : Direction → Int
  | input => 0
  | output => 1

end Direction

/-- Opens the file at `path` as descriptor `fd` of a stage. -/
structure Redirection where
  fd : Int
  direction : Direction
  path : Bytes
  deriving DecidableEq, Repr

namespace Redirection

/-- The redirection of the direction's own descriptor. -/
def ofPath (direction : Direction) (path : Bytes) : Redirection :=
  ⟨direction.standard, direction, path⟩

/-- The highest descriptor that can be redirected. -/
def maxFd : Int := 9

/-- The redirection as it is written. The descriptor is shown only where it
is not the direction's own. -/
def render (r : Redirection) : String :=
  let number := if r.fd = r.direction.standard then "" else toString r.fd
  number ++ r.direction.symbol.toString ++ " " ++ r.path.lossy

end Redirection

/-- The variables a stage sets for its own process, by name. -/
abbrev Bindings := Std.TreeMap String String

/-- One command of a pipeline. -/
structure Stage where
  /-- The name the executable is looked up by. -/
  command : String
  argv : List String
  redirections : List Redirection
  vars : Bindings

/-- The arguments and then the redirections of a stage, separated by blanks;
its variables are not shown. -/
def Stage.render (s : Stage) : String :=
  " ".intercalate s.argv ++ String.join (s.redirections.map fun r => " " ++ r.render)

/-- Stages that run together, the output of each one feeding the next. -/
structure Pipeline where
  stages : List Stage
  foreground : Bool

/-- The pipeline as notices and logs name it. -/
def Pipeline.describe (p : Pipeline) : String :=
  " | ".intercalate (p.stages.map Stage.render) ++ if p.foreground then "" else " &"

end JobShell
