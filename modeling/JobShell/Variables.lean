import JobShell.Environment
import JobShell.Name
import Std.Data.TreeSet.Basic

/-!
# Variables of a session

A session keeps values by name and remembers which names are exported. Only
the exported variables that have a value are published to the environment
that processes inherit; every operation keeps it up to date.
-/

namespace JobShell

/-- The variables of a session together with the environment they are
published to. -/
structure Variables where
  values : Std.TreeMap String String := ∅
  exported : Std.TreeSet String := ∅
  environment : Environment := []
  /-- Whether the environment was to be changed in a way that is not possible.
  No session survives that. -/
  refused : Bool := false

namespace Variables

/-- A variable of the session for an entry of an environment: both parts
have to be text and the name has to be valid. -/
def inheritable? (entry : Bytes × Bytes) : Option (String × String) := do
  let name ← entry.1.text?
  let value ← entry.2.text?
  if isVariableName name then some (name, value) else none

/-- The variables of a session that starts in `environment`, all of them
exported. -/
def inherit (environment : Environment) : Variables :=
  (environment.filterMap inheritable?).foldl
    (fun vs (name, value) =>
      { vs with values := vs.values.insert name value, exported := vs.exported.insert name })
    { environment }

def get? (vs : Variables) (name : String) : Option String := vs.values[name]?

def isExported (vs : Variables) (name : String) : Bool := vs.exported.contains name

/-- Publishes a value. -/
def publish (vs : Variables) (name value : String) : Variables :=
  { vs with
    environment := vs.environment.set (.ofString name) (.ofString value)
    refused := vs.refused || !Environment.admits (.ofString name) (.ofString value) }

/-- Removes what was published of a variable. -/
def withdraw (vs : Variables) (name : String) : Variables :=
  { vs with
    environment := vs.environment.unset (.ofString name)
    refused := vs.refused || !Environment.admitsName (.ofString name) }

/-- Gives a variable a value. -/
def assign (vs : Variables) (name value : String) : Variables :=
  let vs := if vs.isExported name then vs.publish name value else vs
  { vs with values := vs.values.insert name value }

/-- Marks a variable exported, with a new value if one is given. Without any
value there is nothing to publish yet. -/
def exportName (vs : Variables) (name : String) (value : Option String) : Variables :=
  let values := match value with
    | some value => vs.values.insert name value
    | none => vs.values
  let vs := { vs with values, exported := vs.exported.insert name }
  match vs.get? name with
  | some value => vs.publish name value
  | none => vs

/-- Forgets a variable and its mark. -/
def unset (vs : Variables) (name : String) : Variables :=
  let vs := if vs.isExported name then vs.withdraw name else vs
  { vs with values := vs.values.erase name, exported := vs.exported.erase name }

/-- The `NAME=VALUE` lines of all variables, by name. -/
def listing (vs : Variables) : List String :=
  vs.values.toList.map fun (name, value) => name ++ "=" ++ value

end Variables

end JobShell
