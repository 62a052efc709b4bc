import JobShell.Tool.Entries

/-!
# Programs for paths

`basename` and `dirname` take paths apart. `readlink` and `realpath` find
out where they lead, and `pwd` where one is.
-/

namespace JobShell.Tool

open Machine (Action FileKind)

/-! ## Taking paths apart -/

/-- Prints paths without their directories, and without an ending. -/
def basename (i : Invocation) : Action Unit := do
  let (options, operands) ← i.options
    { flags := "az", valued := "s"
      long := [("multiple", 'a'), ("suffix", 's'), ("zero", 'z')] } 1 true
  let newline := if hasOption options 'z' then "\x00" else "\n"
  let strip (ending path : String) : String :=
    let name := if path = "" then "" else lastPart path
    if ending ≠ "" && name ≠ ending && name.endsWith ending then
      String.ofList (name.toList.take (name.length - ending.length))
    else name
  let all := hasOption options 'a' || hasOption options 's'
  match operands with
  | [] => misused i "missing operand"
  | path :: rest =>
    if all then
      let ending := (optionValue? options 's').getD ""
      say i.name (joinLines (operands.map (strip ending)) newline)
    else
      match rest with
      | _ :: extra :: _ => misused i s!"extra operand {Quoted.plain extra}"
      | rest => say i.name (joinLines [strip (rest.headD "") path] newline)

/-- The directory part of a path. -/
def directoryPart (path : String) : String :=
  let strip (cs : List Char) : List Char := (cs.reverse.dropWhile (· = '/')).reverse
  let cs := strip path.toList
  let front := (cs.reverse.dropWhile (· ≠ '/')).reverse
  match front with
  | [] => if cs = [] ∧ path ≠ "" then "/" else "."
  | _ => if strip front = [] then "/" else String.ofList (strip front)

/-- Prints the directory parts of paths. -/
def dirname (i : Invocation) : Action Unit := do
  let (options, operands) ← i.options { flags := "z", long := [("zero", 'z')] }
  if operands = [] then misused i "missing operand"
  let newline := if hasOption options 'z' then "\x00" else "\n"
  say i.name (joinLines (operands.map directoryPart) newline)

/-! ## Canonical paths -/

/-- Which parts of a path have to exist. -/
inductive Existing
  | all
  | allButLast
  | none
  deriving DecidableEq, Repr

/-- The parts of a path. A slash at the end asks for a directory. -/
def pathParts (path : String) : List String :=
  let parts := (path.splitOn "/").filter (· ≠ "")
  if isSlashed path ∧ parts ≠ [] then parts ++ ["."] else parts

/-- Follows the parts of a path from the place `done` on. Links are resolved
as long as `links` are left, unless they are kept. -/
def resolveParts (mode : Existing) (keepsLinks : Bool) : (steps links : Nat) → (done : String) →
    List String → Action (Except OsError String)
  | 0, _, _, _ => return .error .tooManyLinks
  | _, _, done, [] => return .ok done
  | steps + 1, links, done, part :: rest => do
    if part = "." then
      if mode = .none then resolveParts mode keepsLinks steps links done rest
      else
        match ← Action.facts (.ofOctets (done ++ "/.")) with
        | .ok _ => resolveParts mode keepsLinks steps links done rest
        | .error cause =>
          if mode = .allButLast && rest = [] && cause = .noEntry then return .ok done
          else return .error cause
    else if part = ".." then
      let front := ((done.toList.reverse.dropWhile (· ≠ '/')).drop 1).reverse
      resolveParts mode keepsLinks steps links
        (if front = [] then "/" else String.ofList front) rest
    else
      let path := if done = "/" then "/" ++ part else done ++ "/" ++ part
      let target ← if keepsLinks then pure (.error .invalidArgument)
        else Action.askData (.linkTarget (.ofOctets path))
      match target with
      | .ok target =>
        match links with
        | 0 =>
          if mode = .none then resolveParts mode keepsLinks steps 0 path rest
          else return .error .tooManyLinks
        | links + 1 =>
          let target := target.octets
          resolveParts mode keepsLinks steps links (if target.startsWith "/" then "/" else done)
            (pathParts target ++ rest)
      | .error _ =>
        match mode, ← Action.facts (.ofOctets path) false with
        | .none, _ | _, .ok _ => resolveParts mode keepsLinks steps links path rest
        | mode, .error cause =>
          if mode = .allButLast && cause = .noEntry && rest.all (· = ".") then return .ok path
          else return .error cause

/-- The path of a file from the root on, without links in it. -/
def canonical (mode : Existing) (path : String) (keepsLinks : Bool := false) :
    Action (Except OsError String) := do
  if path = "" then return .error .noEntry
  else
    let start ← if path.startsWith "/" then pure (.ok (.ofString "/"))
      else Action.askData .currentDirectory
    match start with
    | .error cause => return .error cause
    | .ok start => resolveParts mode keepsLinks 100000 40 start.octets (pathParts path)

/-- A path as it is seen from a directory; both are canonical. -/
def relativeTo (directory path : String) : String :=
  let parts (path : String) : List String := (path.splitOn "/").filter (· ≠ "")
  let rec go : List String → List String → String
    | a :: as, b :: bs =>
      if a = b then go as bs
      else "/".intercalate ((a :: as).map (fun _ => "..") ++ b :: bs)
    | [], [] => "."
    | as, bs => "/".intercalate (as.map (fun _ => "..") ++ bs)
  go (parts directory) (parts path)

/-- Prints what links point to, or where paths lead. -/
def readlink (i : Invocation) : Action Unit := do
  let (options, operands) ← i.options
    { flags := "femnqsvz"
      long := [("canonicalize", 'f'), ("canonicalize-existing", 'e'),
        ("canonicalize-missing", 'm'), ("no-newline", 'n'), ("quiet", 'q'), ("silent", 's'),
        ("verbose", 'v'), ("zero", 'z')] }
  if operands = [] then misused i "missing operand"
  let noNewline := hasOption options 'n'
  if noNewline && operands.length > 1 then
    complainAs i.name "ignoring --no-newline with multiple arguments"
  let newline := if noNewline && operands.length = 1 then ""
    else if hasOption options 'z' then "\x00" else "\n"
  let mode := options.reverse.findSome? fun (c, _) =>
    [('f', Existing.allButLast), ('e', .all), ('m', .none)].lookup c
  let tells := options.reverse.findSome? fun (c, _) =>
    [('v', true), ('q', false), ('s', false)].lookup c
  forOperands i operands fun operand => do
    let result ← match mode with
      | none => do
        let target ← Action.askData (.linkTarget (.ofOctets operand))
        pure (target.map Bytes.octets)
      | some mode => canonical mode operand
    match result with
    | .ok text => say i.name (text ++ newline); return true
    | .error cause => do
      if tells = some true then complainAbout i operand cause
      return false

/-- Prints where paths lead. -/
def realpath (i : Invocation) : Action Unit := do
  let (options, operands) ← i.options
    { flags := "emLPqsz", longValued := "rb"
      long := [("canonicalize-existing", 'e'), ("canonicalize-missing", 'm'), ("logical", 'L'),
        ("physical", 'P'), ("quiet", 'q'), ("strip", 's'), ("no-symlinks", 's'), ("zero", 'z'),
        ("relative-to", 'r'), ("relative-base", 'b')] }
  if operands = [] then misused i "missing operand"
  let mode := (options.reverse.findSome? fun (c, _) =>
    [('e', Existing.all), ('m', .none)].lookup c).getD .allButLast
  let keepsLinks := hasOption options 's'
  let newline := if hasOption options 'z' then "\x00" else "\n"
  let directory (c : Char) : Action (Option String) := do
    match optionValue? options c with
    | none => return none
    | some path =>
      match ← canonical mode path keepsLinks with
      | .ok path => return some path
      | .error cause => do
        complainAbout i path cause
        Action.exit 1
  let to_ ← directory 'r'
  let base ← directory 'b'
  let isBelow (base path : String) : Bool :=
    base = "/" || path = base || path.startsWith (base ++ "/")
  forOperands i operands fun operand => do
    match ← canonical mode operand keepsLinks with
    | .ok path =>
      let shown := match to_, base with
        | none, none => path
        | some to_, none => relativeTo to_ path
        | to_, some base =>
          let to_ := to_.getD base
          if isBelow base path && isBelow base to_ then relativeTo to_ path else path
      say i.name (shown ++ newline)
      return true
    | .error cause => do
      if !hasOption options 'q' then complainAbout i operand cause
      return false

/-- Prints the path of the current directory. A path in the environment is
taken on demand if it leads there. -/
def pwd (i : Invocation) : Action Unit := do
  let (options, operands) ← i.options
    { flags := "LP", long := [("logical", 'L'), ("physical", 'P')] }
  if operands ≠ [] then complainAs i.name "ignoring non-option arguments"
  let logical := (options.getLast?.map (·.1)) = some 'L'
  let given := ((i.environment.get? (.ofString "PWD")).getD []).octets
  let isPlain := given.startsWith "/" &&
    !(given.splitOn "/").any fun part => part = "." || part = ".."
  let fits ← if logical && isPlain then
      match ← Action.facts (.ofOctets given), ← Action.facts (.ofString ".") with
      | .ok facts, .ok here => pure (facts.identity == here.identity)
      | _, _ => pure false
    else pure false
  if fits then say i.name (given ++ "\n")
  else
    match ← Action.askData .currentDirectory with
    | .ok path => say i.name (path.octets ++ "\n")
    | .error _ => die i.name "couldn't find directory entry in '..' with matching i-node"

end JobShell.Tool
