import JobShell.Pipeline

/-!
# Environments

The environment of a process is a list of names with values, both byte
strings. A process passes it on to the processes it starts; a stage of a
pipeline changes some of the variables on the way.
-/

namespace JobShell

/-- Names and their values, in the order in which a process holds them. -/
abbrev Environment := List (Bytes × Bytes)

namespace Environment

/-- The value of the first entry for `name`. -/
def get? (env : Environment) (name : Bytes) : Option Bytes := env.lookup name

/-- Gives `name` the value `value`, in place if there is an entry for it. -/
def set (env : Environment) (name value : Bytes) : Environment :=
  match env with
  | [] => [(name, value)]
  | entry :: rest =>
    if entry.1 = name then (name, value) :: rest else entry :: set rest name value

/-- Removes every entry for `name`. -/
def unset (env : Environment) (name : Bytes) : Environment :=
  env.filter (·.1 ≠ name)

/-- Whether there can be an entry for `name`: it is not empty and holds neither
the sign that ends a name nor the byte zero. -/
def admitsName (name : Bytes) : Bool :=
  !name.isEmpty && !name.contains '='.toUInt8 && !name.hasNul

/-- Whether there can be an entry of this name and value. -/
def admits (name value : Bytes) : Bool := admitsName name && !value.hasNul

/-- The `NAME=VALUE` entries. -/
def entries (env : Environment) : List Bytes :=
  env.map fun (name, value) => name ++ '='.toUInt8 :: value

/-- Replaces the first entry of every name in `variables`. Returns the
variables that had none as well. -/
def override (vars : Bindings) : Environment → Environment × Bindings
  | [] => ([], vars)
  | (name, value) :: rest =>
    match name.text?.bind fun text => (vars[text]?).map fun v => (text, v) with
    | some (text, assigned) =>
      let (changed, left) := override (vars.erase text) rest
      ((name, .ofString assigned) :: changed, left)
    | none =>
      let (changed, left) := override vars rest
      ((name, value) :: changed, left)

/-- The environment of a stage that sets `variables`: the inherited entries
in their order, then the variables that are not among them, by name. -/
def forStage (inherited : Environment) (vars : Bindings) : Environment :=
  let (changed, left) := override vars inherited
  changed ++ left.toList.map fun (name, value) => (.ofString name, .ofString value)

/-- What a started process receives: for each name the last entry, in the
order of the names. -/
def forProcess (env : Environment) : Environment :=
  (env.foldl (fun map (name, value) => map.insert name value)
    (∅ : Std.TreeMap Bytes Bytes)).toList

end Environment

end JobShell
