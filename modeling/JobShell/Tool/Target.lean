import JobShell.Text.Decimal
import JobShell.Tool.Entries

/-!
# Sources and targets

`cp`, `mv` and `ln` make something new for each of several sources: under a
name of its own, or in a directory under the name of the source. What is
already there can be kept under another name, a backup.
-/

namespace JobShell.Tool

open Machine (Action Facts FileKind)

/-- What a program makes: pairs of a source and the path of what is made. -/
abbrev Pairs := List (String × String)

/-- The path in a directory that a source is copied to. -/
def targetIn (directory source : String) : String :=
  let name := lastPart source
  if name = ".." then directory else entryPath directory name

/-- Why something can not be used as a directory. -/
def directoryFault? (path : String) (follow : Bool := true) : Action (Option OsError) := do
  match ← Action.facts (.ofOctets path) follow with
  | .ok facts => return if facts.kind = .directory then none else some .notDirectory
  | .error cause => return some cause

/-- The sources and targets that operands stand for. Without a directory that
an option names, the last operand is the target; it has to be a directory if
there are several sources. If `single` is set it is never taken for one. -/
def readPairs (i : Invocation) (directory : Option String) (single : Bool) (follow : Bool)
    (operands : List String) : Action Pairs := do
  match directory, operands.reverse with
  | _, [] => misused i "missing file operand"
  | some directory, _ => do
    if let some cause ← directoryFault? directory then
      complainThat i s!"target directory {Quoted.always directory}" cause
      Action.exit 1
    return operands.map fun source => (source, targetIn directory source)
  | none, [only] => misused i s!"missing destination file operand after {Quoted.always only}"
  | none, target :: source :: rest => do
    if single then
      match operands with
      | [source, target] => return [(source, target)]
      | operands =>
        let extra := (operands[2]?).getD ""
        misused i s!"extra operand {Quoted.always extra}"
    else
      match ← directoryFault? target follow, rest with
      | none, _ =>
        return (source :: rest).reverse.map fun source => (source, targetIn target source)
      | some _, [] => return [(source, target)]
      | some cause, _ => do
        complainThat i s!"target {Quoted.always target}" cause
        Action.exit 1

/-! ## Backups -/

/-- How backups are named. -/
inductive BackupNaming
  | simple
  | numbered
  /-- Numbered if there are numbered ones. -/
  | existing
  deriving DecidableEq, Repr

/-- Whether backups are made, and how they are named. -/
structure Backups where
  naming : Option BackupNaming := none
  ending : String := "~"

/-- The values of `--backup`. -/
def backupNames : List (String × Option BackupNaming) :=
  [("none", none), ("off", none), ("simple", some .simple), ("never", some .simple),
    ("existing", some .existing), ("nil", some .existing), ("numbered", some .numbered),
    ("t", some .numbered)]

/-- What options say about backups; `S` gives the ending, `b` and `B` ask for
backups, the latter with a value. -/
def readBackups (i : Invocation) (options : List GivenOption) : Action Backups := do
  let ending := optionValue? options 'S'
  let asked := options.reverse.find? fun (c, _) => c = 'b' || c = 'B'
  let naming ← match asked, ending with
    | some ('B', some text), _ => chooseBackup text
    | some _, _ | none, some _ => pure (some .existing)
    | none, none => pure none
  return { naming, ending := ending.getD "~" }
where
  chooseBackup (text : String) : Action (Option BackupNaming) := do
    let candidates := backupNames.filter fun (name, _) => name.startsWith text
    match backupNames.lookup text, candidates with
    | some naming, _ => return naming
    | none, [(_, naming)] => return naming
    | none, candidates => do
      let fault := if candidates = [] then "invalid" else "ambiguous"
      complainAs i.name s!"{fault} argument {Quoted.plain text} for 'backup type'"
      complain "Valid arguments are:\n"
      complain (joinLines (chooseFrom.alternatives backupNames))
      complain s!"Try '{i.name} --help' for more information.\n"
      Action.exit 1

/-- The number of a numbered backup of a file. -/
def backupNumber? (base name : String) : Option Nat :=
  let front := base ++ ".~"
  if name.startsWith front && name.endsWith "~" then
    Text.readNat? (String.ofList ((name.toList.drop front.length).dropLast))
  else none

/-- Keeps what is at a path under another name. The value is that name, if
backups are made. -/
def Backups.keep (b : Backups) (path : String) : Action (Except OsError (Option String)) := do
  match b.naming with
  | none => return .ok none
  | some naming => do
    let base := lastPart path
    let directory := String.ofList ((path.toList.reverse.dropWhile (· ≠ '/')).reverse)
    let listed ← Action.names (.ofOctets (if directory = "" then "." else directory))
    let names := (listed.toOption.getD []).map Bytes.octets
    let last := (names.filterMap (backupNumber? base)).foldl max 0
    let isNumbered := naming = .numbered || (naming = .existing && last ≠ 0)
    let copy := path ++ if isNumbered then s!".~{last + 1}~" else b.ending
    match ← Action.ask (.rename (.ofOctets path) (.ofOctets copy)) with
    | .ok () => return .ok (some copy)
    | .error cause => return .error cause

/-- What is told about a backup. -/
def backupWords : Option String → String
  | some copy => s!" (backup: {Quoted.always copy})"
  | none => ""

end JobShell.Tool
