import JobShell.Tool.Naming
import JobShell.Tool.Target

/-!
# Copies, moves and links

`cp` copies files and directories, `mv` moves them, and `ln` makes links to
them. What is already at a target is replaced, kept, or asked about.
-/

namespace JobShell.Tool

open Machine (Action Facts FileKind OpenMode)

/-- What is done about a target that is already there. -/
inductive Replacing
  | always
  /-- A question is asked first. -/
  | asks
  | never
  /-- The same, without a word. -/
  | neverSilently
  /-- If the source is newer. -/
  | older
  deriving DecidableEq, Repr

/-- The values of `--update`. -/
def updateNames : List (String × Replacing) :=
  [("all", .always), ("none", .neverSilently), ("older", .older)]

/-- What options say about targets that are already there. -/
def readReplacing (i : Invocation) (options : List GivenOption) : Action Replacing := do
  let last := options.reverse.find? fun (c, _) => "finuU".contains c
  match last with
  | some ('i', _) => return .asks
  | some ('n', _) => return .never
  | some ('u', _) => return .older
  | some ('U', some text) => chooseFrom i "update" text updateNames
  | some ('U', none) => return .older
  | _ => return .always

/-! ## Copying -/

/-- What is made of a file. -/
inductive CopyKind
  | content
  | nothing
  | sharedFile
  | link
  deriving DecidableEq, Repr

/-- How files are copied. -/
structure Copying where
  kind : CopyKind := .content
  recursive : Bool := false
  /-- Links are followed that are operands. -/
  followsOperands : Bool := true
  /-- Links below operands are followed. -/
  followsOthers : Bool := true
  replacing : Replacing := .always
  /-- A target that can not be opened is replaced. -/
  forced : Bool := false
  /-- A target is removed first. -/
  removesFirst : Bool := false
  /-- Whether a mode is copied: always, never, or that of new files. -/
  copiesMode : Option Bool := none
  tells : Bool := false
  backups : Backups := {}

/-- The wording of a failure to create a file; a slash behind the name asks
for a directory. -/
def creationCause (target : String) (cause : OsError) : OsError :=
  if cause = .isDirectory && isSlashed target then .notDirectory else cause

/-- Copies the content of a file to one that can be written. -/
def copyContent (i : Invocation) (source target : String) (input output : Fd) : Action Bool := do
  let result ← Action.foldBlocks input (fun _ block => do
    match ← Action.writeAll output block with
    | .ok () => return (none, true)
    | .error cause => return (some cause, false)) none
  match result with
  | .ok none => return true
  | .ok (some cause) => do
    complainThat i s!"error writing {Quoted.always target}" cause
    return false
  | .error cause => do
    complainThat i s!"error reading {Quoted.always source}" cause
    return false

/-- Copies a file. -/
def Copying.copyFile (i : Invocation) (c : Copying) (source target : String) (facts : Facts)
    (isNew : Bool) : Action Bool := do
  match ← Action.openFile (.ofOctets source) .input with
  | .error cause => do
    complainThat i s!"cannot open {Quoted.always source} for reading" cause
    return false
  | .ok input =>
    let opened ← match ← Action.openFile (.ofOctets target) .output with
      | .ok output => pure (.ok output)
      | .error cause =>
        if c.forced && !isNew then do
          let _ ← Action.ask (.remove (.ofOctets target))
          Action.openFile (.ofOctets target) .output
        else pure (.error cause)
    match opened with
    | .error cause => do
      Action.close input
      complainThat i s!"cannot create regular file {Quoted.always target}"
        (creationCause target cause)
      return false
    | .ok output => do
      let done ← if c.kind = .nothing then pure true
        else copyContent i source target input output
      Action.close input
      Action.close output
      let setsMode : Bool := match c.copiesMode with
        | some copies => copies
        | none => isNew && facts.kind = .regular
      if setsMode then
        let _ ← Action.ask (.setExecutable (.ofOctets target) facts.executable)
      return done

/-- Whether a target that is there is replaced. -/
def Replacing.permits (i : Invocation) (r : Replacing) (source existing : Facts)
    (target : String) : Action (Except Bool Unit) := do
  match r with
  | .always => return .ok ()
  | .never => return .error false
  | .neverSilently => return .error true
  | .older =>
    if existing.identity < source.identity then return .ok () else return .error true
  | .asks =>
    if ← confirm i s!"overwrite {Quoted.always target}" then return .ok () else return .error false

/-- Makes a link or a shared file of a source. -/
def Copying.makeLink (i : Invocation) (c : Copying) (source target : String) : Action Bool := do
  if c.kind = .link then
    if !source.startsWith "/" && target.contains '/' then
      complainAs i.name s!"{target}: can make relative symbolic links only in current directory"
      return false
    else
      attempt i s!"cannot create symbolic link {Quoted.always target} to {Quoted.always source}"
        (.makeLink (.ofOctets source) (.ofOctets target))
  else
    attempt i s!"cannot create hard link {Quoted.always target} to {Quoted.always source}"
      (.share (.ofOctets source) (.ofOctets target) false)

/-- Makes a copy of something. What is below a directory is copied by
`copyBelow`, which is told what directory was made first. -/
def Copying.create (i : Invocation) (c : Copying)
    (copyBelow : Option Nat → (source target : String) → Action Bool) (made : Option Nat)
    (facts : Facts) (source target : String) (isNew : Bool) (backup : Option String) :
    Action Bool := do
  let tell (_ : Unit) : Action Unit :=
    if c.tells then
      say i.name (s!"{Quoted.always source} -> {Quoted.always target}" ++
        backupWords backup ++ "\n")
    else return ()
  match facts.kind with
  | .directory => do
    if isNew then
      match ← Action.ask (.makeDirectory (.ofOctets target)) with
      | .ok () => tell ()
      | .error cause => do
        complainThat i s!"cannot create directory {Quoted.always target}" cause
        return false
    let made ← match made with
      | some made => pure (some made)
      | none =>
        if isNew then pure ((← Action.facts (.ofOctets target)).toOption.map (·.identity))
        else pure none
    match ← Action.names (.ofOctets source) with
    | .error cause => do
      complainThat i s!"cannot access {Quoted.always source}" cause
      return false
    | .ok names =>
      let copyOne (name : Bytes) : Action Bool :=
        copyBelow made (entryPath source name.octets) (entryPath target name.octets)
      withAll names copyOne
  | .link =>
    if c.kind = .link || c.kind = .sharedFile then do
      tell ()
      c.makeLink i source target
    else
      match ← Action.askData (.linkTarget (.ofOctets source)) with
      | .error cause => do
        complainThat i s!"cannot read symbolic link {Quoted.always source}" cause
        return false
      | .ok text => do
        tell ()
        attempt i s!"cannot create symbolic link {Quoted.always target}"
          (.makeLink text (.ofOctets target))
  | _ => do
    tell ()
    if c.kind = .link || c.kind = .sharedFile then c.makeLink i source target
    else c.copyFile i source target facts isNew

/-- Copies something, with everything below it if that is wanted. `top` is
the pair of operands it is about, and `made` the directory that was made
first; `depth` bounds how deep. -/
def Copying.run (i : Invocation) (c : Copying) (top : String × String) : (depth : Nat) →
    (isOperand : Bool) → (made : Option Nat) → (source target : String) → Action Bool
  | 0, _, _, _, _ => return false
  | depth + 1, isOperand, made, source, target => do
    let create := c.create i (Copying.run i c top depth false)
    let follows := if isOperand then c.followsOperands else c.followsOthers
    match ← Action.facts (.ofOctets source) follows with
    | .error cause => do
      complainThat i s!"cannot stat {Quoted.always source}" cause
      return false
    | .ok facts => do
      if facts.kind = .directory && !c.recursive then
        complainAs i.name s!"-r not specified; omitting directory {Quoted.always source}"
        return false
      if facts.kind = .directory && made = some facts.identity then
        complainAs i.name (s!"cannot copy a directory, {Quoted.always top.1}, into itself, " ++
          Quoted.always top.2)
        return false
      let there ← Action.facts (.ofOctets target) (facts.kind ≠ .link)
      let own ← Action.facts (.ofOctets target) false
      let isLink := match own with
        | .ok own => own.kind = .link
        | .error _ => false
      match there with
      | .error cause =>
        if cause ≠ .noEntry then
          complainThat i s!"cannot stat {Quoted.always target}" cause
          return false
        else if isLink && !c.removesFirst && c.kind = .content && facts.kind ≠ .directory then
          complainAs i.name s!"not writing through dangling symlink {Quoted.always target}"
          return false
        else
          if isLink then
            let _ ← Action.ask (.remove (.ofOctets target))
          create made facts source target true none
      | .ok existing => do
        let isSame := existing.identity = facts.identity
        if isSame && facts.kind ≠ .directory && c.kind = .sharedFile then return true
        if isSame && facts.kind ≠ .directory && !(c.removesFirst && isLink) then
          complainAs i.name s!"{Quoted.always source} and {Quoted.always target} are the same file"
          return false
        if facts.kind ≠ .directory && existing.kind = .directory then
          complainAs i.name
            s!"cannot overwrite directory {Quoted.always target} with non-directory"
          return false
        if facts.kind = .directory && existing.kind ≠ .directory then
          complainAs i.name (s!"cannot overwrite non-directory {Quoted.always target} " ++
            s!"with directory {Quoted.always source}")
          return false
        if facts.kind = .directory then create made facts source target false none
        else
          match ← c.replacing.permits i facts existing target with
          | .error done => return done || c.replacing = .never
          | .ok () =>
            match ← c.backups.keep target with
            | .error cause => do
              complainThat i s!"cannot backup {Quoted.always target}" cause
              return false
            | .ok (some copy) => create made facts source target true (some copy)
            | .ok none => do
              let removes := c.removesFirst || facts.kind = .link ||
                (c.forced && (c.kind = .sharedFile || c.kind = .link))
              if removes then
                let _ ← Action.ask (.remove (.ofOctets target))
              create made facts source target removes none

/-- What can be preserved of a file. -/
def preservable : List (String × Bool) :=
  [("mode", true), ("timestamps", false), ("ownership", false), ("links", false),
    ("context", false), ("xattr", false), ("all", true)]

/-- Copies files. -/
def cp (i : Invocation) : Action Unit := do
  let table : OptionTable := {
    flags := "abdfHilLnpPrRsTuvxZ", valued := "St", attached := "BUVCr", longValued := "NAY"
    long := [("archive", 'a'), ("attributes-only", 'O'), ("backup", 'B'), ("copy-contents", 'K'),
      ("debug", 'v'), ("dereference", 'L'), ("force", 'f'), ("interactive", 'i'), ("link", 'l'),
      ("no-clobber", 'n'), ("no-dereference", 'P'), ("no-preserve", 'N'),
      ("no-target-directory", 'T'), ("one-file-system", 'x'), ("parents", 'D'),
      ("path", 'D'), ("preserve", 'V'), ("recursive", 'R'), ("reflink", 'C'),
      ("remove-destination", 'M'), ("sparse", 'Y'), ("strip-trailing-slashes", 'E'),
      ("suffix", 'S'), ("symbolic-link", 's'), ("target-directory", 't'), ("update", 'U'),
      ("verbose", 'v')] }
  let (options, operands) ← i.options table
  let has (c : Char) : Bool := hasOption options c
  if let some text := optionValue? options 'Y' then
    let _ ← chooseFrom i "sparse" text [("never", 0), ("auto", 1), ("always", 2)]
  if let some text := optionValue? options 'C' then
    let _ ← chooseFrom i "reflink" text [("auto", 0), ("always", 1), ("never", 2)]
  let modeGiven (c : Char) (option : String) : Action Bool := do
    match optionValue? options c with
    | none => return has c
    | some text => do
      let chosen ← (text.splitOn ",").mapM fun part => chooseFrom i option part preservable
      return chosen.any (· = true)
  let preserves ← modeGiven 'V' "preserve"
  let forgets ← modeGiven 'N' "no-preserve"
  let backups ← readBackups i options
  let replacing ← readReplacing i options
  if replacing = .never then
    complainAs i.name ("warning: behavior of -n is non-portable and may change in future; " ++
      "use --update=none instead")
  let operands := if has 'E' then operands.map unslashed else operands
  let recursive := has 'r' || has 'R' || has 'a'
  let following := (options.reverse.find? fun (c, _) => "HLPda".contains c).map (·.1)
  let c : Copying := {
    kind := if has 'l' then .sharedFile else if has 's' then .link
      else if has 'O' then .nothing else .content
    recursive
    followsOperands := match following with
      | some 'H' | some 'L' => true
      | some _ => false
      | none => !recursive && !has 'l'
    followsOthers := following = some 'L' || (following.isNone && !recursive)
    replacing
    forced := has 'f'
    removesFirst := has 'M'
    copiesMode := if forgets then some false
      else if has 'p' || has 'a' || preserves then some true else none
    tells := has 'v'
    backups }
  if has 'D' then
    let (sources, directory) ← match optionValue? options 't', operands.reverse with
      | some directory, _ => pure (operands, directory)
      | none, target :: source :: rest => pure ((source :: rest).reverse, target)
      | none, [only] => misused i s!"missing destination file operand after {Quoted.always only}"
      | none, [] => misused i "missing file operand"
    if !(← leadsToDirectory directory) then
      misused i "with --parents, the destination must be a directory"
    forOperands i sources fun source => do
      let target := entryPath directory (String.ofList (source.toList.dropWhile (· = '/')))
      let made ← withAll (leadingParts target) fun path => do
        if ← leadsToDirectory path then return true
        else
          let done ← attempt i s!"cannot make directory {Quoted.always path}"
            (.makeDirectory (.ofOctets path))
          if done && c.tells then
            say i.name s!"{path.drop (directory.length + 1)} -> {path}\n"
          return done
      if made then c.run i (source, target) 1000 true none source target else return false
  else
    let pairs ← readPairs i (optionValue? options 't') (has 'T') true operands
    let done ← withAll pairs fun (source, target) =>
      c.run i (source, target) 1000 true none source target
    Action.exit (if done then 0 else 1)

/-! ## Moving -/

/-- Moves one file or directory. -/
def moveOne (i : Invocation) (replacing : Replacing) (backups : Backups) (tells : Bool)
    (source target : String) : Action Bool := do
  let move (backup : Option String) : Action Bool := do
    match ← Action.ask (.rename (.ofOctets source) (.ofOctets target)) with
    | .ok () => do
      if tells then
        say i.name (s!"renamed {Quoted.always source} -> {Quoted.always target}" ++
          backupWords backup ++ "\n")
      return true
    | .error cause => do
      if cause = .invalidArgument then
        complainAs i.name (s!"cannot move {Quoted.always source} to a subdirectory of itself, " ++
          Quoted.always target)
      else if cause = .notEmpty || cause = .fileExists then
        complainThat i s!"cannot overwrite {Quoted.always target}" cause
      else complainThat i s!"cannot move {Quoted.always source} to {Quoted.always target}" cause
      return false
  match ← Action.facts (.ofOctets source) false with
  | .error cause => do
    complainThat i s!"cannot stat {Quoted.always source}" cause
    return false
  | .ok facts =>
    match ← Action.facts (.ofOctets target) false with
    | .error cause =>
      if cause = .noEntry then move none
      else do
        complainThat i s!"cannot stat {Quoted.always target}" cause
        return false
    | .ok existing => do
      if existing.identity = facts.identity && facts.kind ≠ .directory then
        complainAs i.name s!"{Quoted.always source} and {Quoted.always target} are the same file"
        return false
      if facts.kind ≠ .directory && existing.kind = .directory then
        complainAs i.name s!"cannot overwrite directory {Quoted.always target} with non-directory"
        return false
      if facts.kind = .directory && existing.kind ≠ .directory then
        complainAs i.name (s!"cannot overwrite non-directory {Quoted.always target} " ++
          s!"with directory {Quoted.always source}")
        return false
      match ← replacing.permits i facts existing target with
      | .error done => do
        if replacing = .never then
          complainAs i.name s!"not replacing {Quoted.always target}"
        return done
      | .ok () =>
        match ← backups.keep target with
        | .error cause => do
          complainThat i s!"cannot backup {Quoted.always target}" cause
          return false
        | .ok backup => move backup

/-- Moves files and directories. -/
def mv (i : Invocation) : Action Unit := do
  let (options, operands) ← i.options
    { flags := "bfinTuvZ", valued := "St", attached := "BU"
      long := [("backup", 'B'), ("force", 'f'), ("interactive", 'i'), ("no-clobber", 'n'),
        ("no-target-directory", 'T'), ("strip-trailing-slashes", 'E'), ("suffix", 'S'),
        ("target-directory", 't'), ("update", 'U'), ("verbose", 'v'), ("debug", 'v')] }
  let backups ← readBackups i options
  let replacing ← readReplacing i options
  let operands := if hasOption options 'E' then operands.map unslashed else operands
  let pairs ← readPairs i (optionValue? options 't') (hasOption options 'T') true operands
  let done ← withAll pairs fun (source, target) =>
    moveOne i replacing backups (hasOption options 'v') source target
  Action.exit (if done then 0 else 1)

/-! ## Linking -/

/-- How links are made. -/
structure Linking where
  symbolic : Bool := false
  /-- A source that is a link is followed. -/
  follows : Bool := false
  /-- Symbolic links are relative to where they are. -/
  isRelative : Bool := false
  replaces : Bool := false
  asks : Bool := false
  tells : Bool := false
  backups : Backups := {}

/-- Why a link could not be made, in words. -/
def Linking.complaint (l : Linking) (source target : String) (cause : OsError) : String :=
  if l.symbolic then
    s!"failed to create symbolic link {Quoted.always target}" ++
      if source = "" || cause = .nameTooLong then s!" -> {Quoted.always source}" else ""
  else
    s!"failed to create hard link {Quoted.always target}" ++
      if cause = .fileExists || cause = .noSpace then "" else s!" => {Quoted.always source}"

/-- The path that a relative link to a source holds. -/
def relativeSource (source target : String) : Action String := do
  let directory := String.ofList ((target.toList.reverse.dropWhile (· ≠ '/')).reverse)
  let directory := if directory = "" then "." else directory
  match ← canonical .allButLast directory, ← canonical .none source with
  | .ok directory, .ok source => return relativeTo directory source
  | _, _ => return source

/-- Makes one link. -/
def Linking.run (i : Invocation) (l : Linking) (source target : String) : Action Bool := do
  let sourceFacts ← Action.facts (.ofOctets source) (l.follows || isSlashed source)
  if !l.symbolic then
    match sourceFacts with
    | .error cause => do
      complainThat i s!"failed to access {Quoted.always source}" cause
      return false
    | .ok facts =>
      if facts.kind = .directory then
        complainAs i.name s!"{Quoted.forShell source}: hard link not allowed for directory"
        return false
  let shown := source
  let source ← if l.symbolic && l.isRelative then relativeSource source target else pure source
  let make (backup : Option String) : Action Bool := do
    let call := if l.symbolic then .makeLink (.ofOctets source) (.ofOctets target)
      else .share (.ofOctets source) (.ofOctets target) l.follows
    match ← Action.ask call with
    | .ok () => do
      if l.tells then
        let arrow := if l.symbolic then "->" else "=>"
        say i.name (s!"{Quoted.always target} {arrow} {Quoted.always source}" ++
          backupWords backup ++ "\n")
      return true
    | .error cause => do
      complainThat i (l.complaint source target cause) cause
      return false
  let existing ← Action.facts (.ofOctets target) false
  match existing with
  | .error _ => make none
  | .ok existing =>
    if !l.replaces && !l.asks && l.backups.naming.isNone then make none
    else
      if existing.kind = .directory then
        complainAs i.name s!"{Quoted.forShell target}: cannot overwrite directory"
        return false
      let isSame := match sourceFacts with
        | .ok facts => facts.identity = existing.identity && (!l.symbolic || shown = target)
        | .error _ => false
      if isSame && lastPart shown = lastPart target then
        complainAs i.name s!"{Quoted.always shown} and {Quoted.always target} are the same file"
        return false
      if l.asks then
        if !(← confirm i s!"replace {Quoted.always target}") then return false
      match ← l.backups.keep target with
      | .error cause => do
        complainThat i s!"cannot backup {Quoted.always target}" cause
        return false
      | .ok (some copy) => make (some copy)
      | .ok none => do
        let _ ← Action.ask (.remove (.ofOctets target))
        make none

/-- Makes links. -/
def ln (i : Invocation) : Action Unit := do
  let (options, operands) ← i.options
    { flags := "bdfFiLnPrsTv", valued := "St", attached := "B"
      long := [("backup", 'B'), ("directory", 'd'), ("force", 'f'), ("interactive", 'i'),
        ("logical", 'L'), ("no-dereference", 'n'), ("physical", 'P'), ("relative", 'r'),
        ("symbolic", 's'), ("suffix", 'S'), ("target-directory", 't'),
        ("no-target-directory", 'T'), ("verbose", 'v')] }
  let has (c : Char) : Bool := hasOption options c
  let backups ← readBackups i options
  if has 'r' && !has 's' then die i.name "cannot do --relative without --symbolic"
  let l : Linking := {
    symbolic := has 's'
    follows := ((options.reverse.find? fun (c, _) => c = 'L' || c = 'P').map (·.1)) = some 'L'
    isRelative := has 'r'
    replaces := has 'f'
    asks := ((options.reverse.find? fun (c, _) => c = 'i' || c = 'f').map (·.1)) = some 'i'
    tells := has 'v'
    backups }
  let directory := optionValue? options 't'
  if let some directory := directory then
    match ← directoryFault? directory with
    | some .notDirectory => die i.name s!"target {Quoted.always directory} is not a directory"
    | some cause => do
      complainThat i s!"failed to access {Quoted.always directory}" cause
      Action.exit 1
    | none => pure ()
  let directory := match directory, operands with
    | none, [_] => if has 'T' then none else some "."
    | directory, _ => directory
  let pairs ← readPairs i directory (has 'T') (!has 'n') operands
  let done ← withAll pairs fun (source, target) => l.run i source target
  Action.exit (if done then 0 else 1)

/-- Gives a file a second name. -/
def link (i : Invocation) : Action Unit := do
  let (_, operands) ← i.options {}
  match operands with
  | [] => misused i "missing operand"
  | [source] => misused i s!"missing operand after {Quoted.plain source}"
  | [source, target] => do
    let done ← attempt i s!"cannot create link {Quoted.always target} to {Quoted.always source}"
      (.share (.ofOctets source) (.ofOctets target) false)
    Action.exit (if done then 0 else 1)
  | _ :: _ :: extra :: _ => misused i s!"extra operand {Quoted.plain extra}"

end JobShell.Tool
