import JobShell.Tool.Basic
import JobShell.Tool.Mode

/-!
# Programs for entries of directories

`mkdir`, `rmdir`, `touch` and `chmod`, and what the programs have in common
that do something with every operand: an operand that fails is reported, and
the others are still dealt with.
-/

namespace JobShell.Tool

open Machine (Action Call Facts FileKind OpenMode)

/-- Complains that something could not be done, and why. -/
def complainThat (i : Invocation) (what : String) (cause : OsError) : Action Unit :=
  complainAs i.name (what ++ ": " ++ errorWords cause)

/-- Does something with every item; whether it could be done with all. -/
def withAll (items : List α) (use : α → Action Bool) : Action Bool :=
  match items with
  | [] => return true
  | item :: rest => do
    let done ← use item
    let others ← withAll rest use
    return done && others

/-- Does something with every operand; the status is one if it failed for
any of them. A program without operands is called wrongly. -/
def forOperands (i : Invocation) (operands : List String) (use : String → Action Bool) :
    Action Unit := do
  if operands = [] then misused i "missing operand"
  Action.exit (if ← withAll operands use then 0 else 1)

/-- Makes a call for an operand, and complains if it fails. -/
def attempt (i : Invocation) (what : String) (call : Call) : Action Bool := do
  match ← Action.ask call with
  | .ok () => return true
  | .error cause => complainThat i what cause; return false

/-- Asks whether something should be done. The answer is a line of the
standard input; it begins with a letter for yes, or means no. -/
def confirm (i : Invocation) (question : String) : Action Bool := do
  complain s!"{i.name}: {question}? "
  go Action.manyTimes none
where
  go : Nat → Option Char → Action Bool
    | 0, _ => return false
    | count + 1, first => do
      let answer (first : Option Char) : Bool := first = some 'y' || first = some 'Y'
      match (← Action.readSome 0 1) with
      | [] => return answer first
      | b :: _ =>
        let c := Char.ofNat b.toNat
        if c = '\n' then return answer first else go count (some (first.getD c))

/-! ## Paths -/

/-- The last part of a path. -/
def lastPart (path : String) : String :=
  ((path.splitOn "/").filter (· ≠ "")).getLast?.getD "/"

/-- The path of an entry of a directory. -/
def entryPath (directory name : String) : String :=
  (Path.join (.ofOctets directory) (.ofOctets name)).octets

/-- Whether there is a slash behind a path. -/
def isSlashed (path : String) : Bool := path.toList.getLast? = some '/'

/-- A path without the slashes at its end. -/
def unslashed (path : String) : String :=
  match (path.toList.reverse.dropWhile (· = '/')).reverse with
  | [] => if path = "" then "" else "/"
  | cs => String.ofList cs

/-- The beginnings of a path that end in front of a slash, the shortest one
first. -/
def leadingParts (path : String) : List String :=
  let cs := (unslashed path).toList
  let ends := cs.zipIdx.filter fun (c, k) => c = '/' && 0 < k && cs[k - 1]? ≠ some '/'
  ends.map fun (_, k) => String.ofList (cs.take k)

/-- Whether a path leads to a directory. -/
def leadsToDirectory (path : String) : Action Bool := do
  match ← Action.facts (.ofOctets path) with
  | .ok facts => return facts.kind = .directory
  | .error _ => return false

/-! ## Directories -/

/-- Makes a directory that may be there already. Why it can not be made is
told for a directory that is only on the way, too. -/
def makeReachable (i : Invocation) (tells isLast : Bool) (path : String) : Action Bool := do
  match ← Action.ask (.makeDirectory (.ofOctets path)) with
  | .ok () => do
    if tells then say i.name s!"{i.name}: created directory {Quoted.always path}\n"
    return true
  | .error cause =>
    if ← leadsToDirectory path then return true
    else
      let exists_ := cause = .fileExists
      complainThat i s!"cannot create directory {Quoted.always path}"
        (if exists_ && !isLast then .notDirectory else cause)
      return false

/-- Makes directories. -/
def mkdir (i : Invocation) : Action Unit := do
  let (options, operands) ← i.options
    { flags := "pvZ", valued := "m", attached := "C"
      long := [("parents", 'p'), ("verbose", 'v'), ("mode", 'm'), ("context", 'C')] }
  if operands = [] then misused i "missing operand"
  if let some mode := optionValue? options 'm' then
    if (Mode.read mode).isNone then die i.name s!"invalid mode {Quoted.always mode}"
  let tells := hasOption options 'v'
  let rec makeAll : List String → String → Action Bool
    | [], operand => makeReachable i tells true operand
    | path :: rest, operand => do
      if ← makeReachable i tells false path then makeAll rest operand else return false
  forOperands i operands fun operand => do
    if hasOption options 'p' then makeAll (leadingParts operand) operand
    else
      let done ← attempt i s!"cannot create directory {Quoted.always operand}"
        (.makeDirectory (.ofOctets operand))
      if done && tells then
        say i.name s!"{i.name}: created directory {Quoted.always operand}\n"
      return done

/-- Removes empty directories. -/
def rmdir (i : Invocation) : Action Unit := do
  let (options, operands) ← i.options
    { flags := "pv"
      long := [("parents", 'p'), ("verbose", 'v'), ("ignore-fail-on-non-empty", 'E')] }
  let isIgnored (cause : OsError) : Bool := hasOption options 'E' && cause = .notEmpty
  let removeOne (what path : String) : Action Bool := do
    if hasOption options 'v' then
      say i.name s!"{i.name}: removing directory, {Quoted.always path}\n"
    match ← Action.ask (.removeDirectory (.ofOctets path)) with
    | .ok () => return true
    | .error cause =>
      if isIgnored cause then return true
      else
        let isLink := match ← Action.facts (.ofOctets (unslashed path)) false with
          | .ok facts => facts.kind = .link
          | .error _ => false
        if cause = .notDirectory && isSlashed path && isLink then
          complainAs i.name s!"{what} {Quoted.always path}: Symbolic link not followed"
        else complainThat i s!"{what} {Quoted.always path}" cause
        return false
  let rec removeParents : List String → Action Bool
    | [] => return true
    | path :: rest => do
      if ← removeOne "failed to remove directory" path then removeParents rest else return false
  forOperands i operands fun operand => do
    let done ← removeOne "failed to remove" operand
    if done && hasOption options 'p' then removeParents (leadingParts operand).reverse
    else return done

/-! ## Files -/

/-- Whether a text may be a date. -/
def looksLikeDate (text : String) : Bool :=
  let words := ["now", "today", "yesterday", "tomorrow", "ago", "next", "last", "day", "week",
    "month", "year", "noon", "midnight"]
  text.toList.any Char.isDigit || (text.splitOn " ").all fun word =>
    word = "" || words.contains (word.map Char.toLower)

/-- Whether a text may be a time stamp. -/
def looksLikeStamp (text : String) : Bool :=
  let (digits, seconds) := text.toList.span (· ≠ '.')
  digits.all Char.isDigit && [8, 10, 12].contains digits.length &&
    (seconds = [] || (seconds.length = 3 && seconds.tail.all Char.isDigit))

/-- Creates files that are missing. -/
def touch (i : Invocation) : Action Unit := do
  let (options, operands) ← i.options
    { flags := "acfhm", valued := "drt", longValued := "T"
      long := [("no-create", 'c'), ("date", 'd'), ("reference", 'r'), ("no-dereference", 'h'),
        ("time", 'T')] }
  if let some text := optionValue? options 'T' then
    let _ ← chooseFrom i "time" text
      [("atime", 0), ("access", 0), ("use", 0), ("mtime", 1), ("modify", 1)]
  if let some text := optionValue? options 'd' then
    if !looksLikeDate text then die i.name s!"invalid date format {Quoted.plain text}"
  if let some text := optionValue? options 't' then
    if !looksLikeStamp text then die i.name s!"invalid date format {Quoted.plain text}"
  if let some file := optionValue? options 'r' then
    if let .error cause ← Action.facts (.ofOctets file) then
      complainThat i s!"failed to get attributes of {Quoted.always file}" cause
      Action.exit 1
  let creates := !hasOption options 'c' && !hasOption options 'h'
  if operands = [] then misused i "missing file operand"
  forOperands i operands fun operand => do
    let path : Bytes := .ofOctets operand
    match ← Action.facts path (!hasOption options 'h') with
    | .ok _ => return true
    | .error cause =>
      if operand = "-" then return true
      else if !creates || isSlashed operand then
        if cause = .noEntry && hasOption options 'c' then return true
        else
          complainThat i s!"setting times of {Quoted.always operand}" cause
          return false
      else
        match ← Action.openFile path .append with
        | .ok fd => Action.close fd; return true
        | .error cause =>
          complainThat i s!"cannot touch {Quoted.always operand}" cause
          return false

/-! ## Modes -/

/-- The mode of a file, as far as it is known. -/
def modeOf (facts : Facts) : Nat := if facts.executable then 0o755 else 0o644

/-- What `chmod` tells about a change. -/
def changeWords (path : String) (before after : Nat) : String :=
  let shown (mode : Nat) : String := s!"{Mode.octal mode} ({Mode.letters mode})"
  if before = after then s!"mode of {Quoted.always path} retained as {shown after}\n"
  else s!"mode of {Quoted.always path} changed from {shown before} to {shown after}\n"

/-- A change of modes, with what is told about it. -/
structure ModeChange where
  apply : Nat → Bool → Nat
  /-- Every file is mentioned, or only those that changed. -/
  tells : Option Bool := none
  quiet : Bool := false
  recursive : Bool := false

/-- Changes the mode of a file, and of everything below it if that is wanted.
Links below an operand are left alone; `depth` bounds how deep. -/
def ModeChange.run (i : Invocation) (c : ModeChange) : (depth : Nat) → (isOperand : Bool) →
    String → Action Bool
  | 0, _, _ => return true
  | depth + 1, isOperand, path => do
    let own ← Action.facts (.ofOctets path) false
    let facts ← if isOperand then Action.facts (.ofOctets path) else pure own
    match facts, own with
    | .error _, .ok _ => do
      if !c.quiet then
        complainAs i.name s!"cannot operate on dangling symlink {Quoted.always path}"
      return false
    | .error cause, .error _ => do
      if !c.quiet then complainThat i s!"cannot access {Quoted.always path}" cause
      if c.tells = some true then say i.name s!"{Quoted.always path} could not be accessed\n"
      return false
    | .ok facts, _ => do
      if facts.kind = .link then return true
      let isDirectory := facts.kind = .directory
      let before := if isDirectory then 0o755 else modeOf facts
      let after := c.apply before isDirectory
      let result ← Action.ask (.setExecutable (.ofOctets path) (after &&& 0o111 ≠ 0))
      match result with
      | .error cause =>
        if !c.quiet then complainThat i s!"changing permissions of {Quoted.always path}" cause
        return false
      | .ok () => do
        if c.tells = some true || (c.tells = some false && before ≠ after) then
          say i.name (changeWords path before after)
        if c.recursive && isDirectory then
          match ← Action.names (.ofOctets path) with
          | .error _ => return true
          | .ok names => withAll names fun name => c.run i depth false (entryPath path name.octets)
        else return true

/-- Changes whether files can be executed. A mode may look like an option. -/
def chmod (i : Invocation) : Action Unit := do
  let isMode (argument : String) : Bool :=
    match argument.toList with
    | '-' :: c :: _ => "rwxXstugoa,+=01234567".contains c
    | _ => false
  let (front, back) := i.arguments.span (· ≠ "--")
  let modes := front.filter isMode
  let rest := front.filter (!isMode ·) ++ back
  let table : OptionTable := {
    flags := "Rcfv", longValued := "r"
    long := [("recursive", 'R'), ("changes", 'c'), ("quiet", 'f'), ("silent", 'f'),
      ("verbose", 'v'), ("reference", 'r'), ("preserve-root", 'p'), ("no-preserve-root", 'p')] }
  let (options, operands) ← ({ i with arguments := rest } : Invocation).options table
  let reference := optionValue? options 'r'
  let (mode, operands) ← match modes, reference, operands with
    | [], none, [] => misused i "missing operand"
    | [], none, [mode] => misused i s!"missing operand after {Quoted.plain mode}"
    | [], none, mode :: operands => pure (mode, operands)
    | modes, _, operands => pure (",".intercalate modes, operands)
  if operands = [] then misused i "missing operand"
  let apply ← match reference with
    | some file =>
      match ← Action.facts (.ofOctets file) with
      | .ok facts => pure fun (_ : Nat) (_ : Bool) => modeOf facts
      | .error cause => do
        complainThat i s!"failed to get attributes of {Quoted.always file}" cause
        Action.exit 1
    | none =>
      match Mode.read mode with
      | some apply => pure apply
      | none => misused i s!"invalid mode: {Quoted.plain mode}"
  let tells := (options.reverse.find? fun (c, _) => c = 'v' || c = 'c').map fun (c, _) => c = 'v'
  let change : ModeChange := {
    apply, tells, quiet := hasOption options 'f', recursive := hasOption options 'R' }
  forOperands i operands fun operand => change.run i 1000 true operand

end JobShell.Tool
