import JobShell.Text.Bytes

/-!
# Logs

Every log record names a target, a path of names separated by `::`. A logger
is a list of routes; a route takes the records whose target lies in its
scope and writes each of them as one line to its sink.
-/

namespace JobShell.Log

/-- How important a record is, most important first. -/
inductive Level
  | error
  | warn
  | info
  | debug
  | trace
  deriving DecidableEq, Repr

namespace Level

/-- The place of a level in the order; a limit admits all levels up to it. -/
def rank : Level → Nat
  | error => 1
  | warn => 2
  | info => 3
  | debug => 4
  | trace => 5

def name : Level → String
  | error => "ERROR"
  | warn => "WARN"
  | info => "INFO"
  | debug => "DEBUG"
  | trace => "TRACE"

/-- The name with blanks up to five columns. -/
def column (l : Level) : String := l.name ++ "".pushn ' ' (5 - l.name.length)

/-- Whether records of this level are wanted under a limit; without a limit
none are. -/
def isEnabled (l : Level) (limit : Option Level) : Bool :=
  match limit with
  | some limit => l.rank ≤ limit.rank
  | none => false

end Level

/-- One message for the logs. -/
structure Record where
  target : String
  level : Level
  message : String
  deriving DecidableEq, Repr

/-- Where the lines of a route go. -/
inductive Sink
  /-- The user, behind a label. -/
  | user (label : String)
  /-- The file open at a descriptor, behind the level. -/
  | file (fd : Int)
  deriving DecidableEq, Repr

/-- The line a record becomes. -/
def Sink.line (s : Sink) (r : Record) : String :=
  match s with
  | user label => label ++ r.message ++ "\n"
  | file _ => r.level.column ++ " " ++ r.message ++ "\n"

/-- What a logger is added for: to show lines to the user, behind a label, or
to append them to the file at a path. -/
inductive Outlet
  | user (label : String)
  | file (path : Bytes)
  deriving DecidableEq, Repr

/-- A scope of targets and the sink of their records. -/
structure Route where
  /-- Ends in `::`. -/
  scope : String
  sink : Sink
  deriving DecidableEq, Repr

namespace Route

/-- The route for a target and all targets below it. One `::` at the end of
the target makes no difference. -/
def ofTarget (target : String) (sink : Sink) : Route :=
  let separator := [':', ':']
  if separator <:+ target.toList then ⟨target, sink⟩ else ⟨target ++ "::", sink⟩

/-- The target that the scope was made from: what stands in front of its last
two bytes. There is none if they are not the end of a text. -/
def stem? (route : Route) : Option String :=
  let bytes := Bytes.ofString route.scope
  if 2 ≤ bytes.length then Bytes.text? (bytes.take (bytes.length - 2)) else none

/-- Whether a target lies in the scope: it is the scope without the final
`::`, or begins with the scope. -/
def accepts (route : Route) (target : String) : Bool :=
  route.stem? = some target || route.scope.toList.isPrefixOf target.toList

end Route

/-- The routes, in the order in which they write. -/
abbrev Logger := List Route

/-- The lines a record causes, with their sinks. -/
def Logger.deliveries (logger : Logger) (r : Record) : List (Sink × String) :=
  (logger.filter (·.accepts r.target)).map fun route => (route.sink, route.sink.line r)

/-- The target of messages for the user. -/
def userTarget : String := "jobsh::user"

/-- The target of messages for developers. -/
def devTarget : String := "jobsh::dev"

end JobShell.Log
