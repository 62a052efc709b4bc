import JobShell.Script.Builtin.Arguments

/-!
# The current directory

A script knows its directory by the path that led there. Unless links are to
be resolved, `..` takes the last name off that path.
-/

namespace JobShell.Script

open Machine (Action)

/-- The path that `path` leads to from `base`, as it is written. Two slashes
in front of it stay, any other number of them is one. -/
def joinLogically (base path : String) : String :=
  let isAbsolute := path.toList.head? = some '/'
  let start := match (if isAbsolute then path else base).toList with
    | '/' :: '/' :: '/' :: _ => "/"
    | '/' :: '/' :: _ => "//"
    | _ => "/"
  let names := (if isAbsolute then path else base ++ "/" ++ path).splitOn "/"
  let parts := names.foldl (fun parts part =>
    if part = "" ∨ part = "." then parts
    else if part = ".." then parts.drop 1
    else part :: parts) []
  start ++ "/".intercalate parts.reverse

/-- The current directory without links; it may be gone. -/
def physicalDirectory : Sh String := do
  match ← Action.askData .currentDirectory with
  | .ok path => return path.octets
  | .error cause =>
    complain ("getcwd() failed: " ++ Tool.errorWords cause)
    return ""

/-- Reads the options that say whether links are resolved; the last one
counts. -/
def readPhysical (arguments : List String) : Sh (Bool × List String) := do
  let (options, operands) ← readFlags "LP" "" arguments
  return (options.getLast?.map (·.1) = some 'P', operands)

/-- Enters a directory; whether that is possible. -/
def enter (physical : Bool) (target : String) : Sh Bool := do
  let old := (← get).directory
  let isLogical := !physical && (old ≠ "" || target.toList.head? = some '/')
  let place := if isLogical then joinLogically old target else target
  match ← Action.ask (.enterDirectory (.ofOctets place)) with
  | .error _ => return false
  | .ok () =>
    setVariable "OLDPWD" old true
    let new ← if isLogical then pure place else physicalDirectory
    modify fun s => { s with directory := new }
    setVariable "PWD" new true
    return true

/-- Whether a path begins at the root, at the current directory or at the one
above, so that it is not looked for elsewhere. -/
def isAnchored (path : String) : Bool :=
  match path.toList with
  | '/' :: _ | ['.'] | '.' :: '/' :: _ | ['.', '.'] | '.' :: '.' :: '/' :: _ => true
  | _ => false

/-- The first directory of that name along a search path, and whether it is
worth showing: it is not where the name alone leads. -/
def searchDirectory (name : String) : List String → Action (Option (String × Bool))
  | [] => return none
  | place :: rest => do
    let path := if place = "" then name else place ++ "/" ++ name
    match ← Action.facts (.ofOctets path) with
    | .ok facts =>
      if facts.kind = .directory then return some (path, place ≠ "")
      else searchDirectory name rest
    | .error _ => searchDirectory name rest

/-- Changes the directory. -/
def cdBuiltin (arguments : List String) : Sh Nat := do
  let (physical, operands) ← readPhysical arguments
  let s ← get
  let (wanted, returning) : String × Bool := match operands with
    | [] => ((s.value? "HOME").getD "", false)
    | "-" :: _ => ((s.value? "OLDPWD").getD "", true)
    | path :: _ => (path, false)
  let target := if wanted = "" then "." else wanted
  let found ← match s.value? "CDPATH" with
    | some places =>
      if isAnchored wanted then pure none
      else searchDirectory target (places.splitOn ":")
    | none => pure none
  let (path, elsewhere) := found.getD (target, false)
  if ← enter physical path then
    if returning || elsewhere then printed ((← get).directory ++ "\n") else return 0
  else abandon ("can't cd to " ++ target)

/-- Prints the current directory. -/
def pwdBuiltin (arguments : List String) : Sh Nat := do
  let (physical, _) ← readPhysical arguments
  let path ← if physical then physicalDirectory else do pure (← get).directory
  printed (path ++ "\n")

end JobShell.Script
