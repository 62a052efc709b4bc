import JobShell.Session.State
import JobShell.Text.Decimal

/-!
# Commands the shell carries out itself

Each of them sees its arguments only. It checks all of them before it
changes anything, so one that fails leaves the session as it was.
-/

namespace JobShell

/-- A command that the shell carries out itself. -/
inductive Builtin
  | cd
  | export_
  | exit
  | set
  | unset
  deriving DecidableEq, Repr

/-- Why such a command failed. -/
inductive BuiltinFault
  | homeNotSet
  | tooManyArguments (b : Builtin)
  | directory (target : String) (cause : OsError)
  | invalidIdentifier (b : Builtin) (word : String)
  | unsupportedOption (option : String)
  | notNumeric (word : String)
  deriving DecidableEq, Repr

namespace Builtin

/-- The name of the command. -/
def name : Builtin → String
  | cd => "cd"
  | export_ => "export"
  | exit => "exit"
  | set => "set"
  | unset => "unset"

/-- The command of a name. -/
def ofName? (word : String) : Option Builtin :=
  [cd, export_, exit, set, unset].find? (·.name = word)

end Builtin

/-- The wording of a fault. -/
def BuiltinFault.message : BuiltinFault → String
  | homeNotSet => "cd: HOME not set"
  | tooManyArguments b => b.name ++ ": too many arguments"
  | directory target cause => "cd: " ++ target ++ ": " ++ cause.message
  | invalidIdentifier b word => b.name ++ ": '" ++ word ++ "': not a valid identifier"
  | unsupportedOption option => "set: " ++ option ++ ": options are not supported"
  | notNumeric word => "exit: " ++ word ++ ": numeric argument required"

namespace Session

/-! ## Changing the directory -/

/-- The directory that the arguments of `cd` ask for. -/
def cdTarget (s : Session) : List String → Except BuiltinFault String
  | [] =>
    match s.vars.get? "HOME" with
    | some home => .ok home
    | none => .error .homeNotSet
  | [target] => .ok target
  | _ => .error (.tooManyArguments .cd)

/-- The directory at a path. -/
def findDirectory (s : Session) (path : Bytes) : Except OsError Machine.NodeId :=
  if path.hasNul then .error .nulInPath
  else
    let t := s.host.tree s.directory
    match t.find s.directory path with
    | .error cause => .error cause
    | .ok id => if t.isDirectory id then .ok id else .error .notDirectory

/-- Exports a variable, with a new value if there is one. -/
def exportVariable (s : Session) (name : String) (value : Option String) : Session :=
  let s := { s with vars := s.vars.exportName name value }
  match s.vars.get? name with
  | some _ => s.onHost (·.log .info s!"exporting {name}")
  | none => s

/-- Exports the path of the current directory as `PWD`. -/
def publishDirectory (s : Session) : Session :=
  match s.currentDirectory.toOption.bind Bytes.text? with
  | some path => s.exportVariable "PWD" (some path)
  | none => s

/-- Changes the current directory. -/
def changeDirectory (s : Session) (arguments : List String) : Except BuiltinFault Session := do
  let target ← s.cdTarget arguments
  match s.findDirectory (.ofString target) with
  | .error cause => .error (.directory target cause)
  | .ok directory =>
    let s := { s with directory }.publishDirectory
    .ok (s.onHost (·.log .info s!"changed directory to {target}"))

/-! ## Variables -/

/-- The name and the value, if any, that an argument of `export` gives. -/
def exportArgument (argument : String) : Except BuiltinFault (String × Option String) :=
  let (name, value) := match splitAtEquals argument.toList with
    | some (name, value) => (String.ofList name, some (String.ofList value))
    | none => (argument, none)
  if isVariableName name then .ok (name, value)
  else .error (.invalidIdentifier .export_ argument)

/-- Exports variables, some of them with new values. -/
def exportVariables (s : Session) (arguments : List String) : Except BuiltinFault Session := do
  let exports ← arguments.mapM exportArgument
  .ok (exports.foldl (fun s (name, value) => s.exportVariable name value) s)

/-- Forgets variables. -/
def unsetVariables (s : Session) (arguments : List String) : Except BuiltinFault Session :=
  match arguments.find? (!isVariableName ·) with
  | some word => .error (.invalidIdentifier .unset word)
  | none =>
    let s := arguments.foldl (fun s name => s.onHost (·.log .info s!"unsetting {name}")) s
    .ok { s with vars := arguments.foldl Variables.unset s.vars }

/-- Prints all variables. -/
def printVariables (s : Session) : List String → Except BuiltinFault Session
  | [] =>
    .ok (s.vars.listing.foldl (fun s line => s.onHost (·.print (line ++ "\n"))) s)
  | option :: _ => .error (.unsupportedOption option)

/-! ## Leaving -/

/-- The status that the arguments of `exit` ask for. -/
def exitStatus : List String → Except BuiltinFault Int
  | [] => .ok 0
  | [word] =>
    match Text.readInt32 word with
    | .ok status => .ok status
    | .error _ => .error (.notNumeric word)
  | _ => .error (.tooManyArguments .exit)

end Session

/-- Carries out a command with its arguments. -/
def Builtin.run (b : Builtin) (s : Session) (arguments : List String) :
    Except BuiltinFault (Flow × Session) :=
  match b with
  | .cd => (s.changeDirectory arguments).map (.continue_, ·)
  | .export_ => (s.exportVariables arguments).map (.continue_, ·)
  | .set => (s.printVariables arguments).map (.continue_, ·)
  | .unset => (s.unsetVariables arguments).map (.continue_, ·)
  | .exit => (Session.exitStatus arguments).map fun status => (.exit status, s)

end JobShell
