import JobShell.Numbers
import JobShell.OsError
import JobShell.Path
import Std.Data.TreeMap.Basic

/-!
# File trees

The files of a machine are numbered nodes. Directories map names to nodes,
symbolic links hold a path, and everything else is a leaf. `Tree.walk`
follows a path part by part; it gives up after forty links. Where it leads
is a `Spot`: a node, or a name that is still free in an existing directory.

Some nodes are not kept but made up whenever they are looked at. Their
numbers begin at `firstMadeUp`, and nothing can be created among them.
-/

namespace JobShell.Machine

/-- The number of a node. -/
abbrev NodeId := Nat

/-- A special file. -/
inductive Device
  | null
  | zero
  | full
  | terminal
  deriving DecidableEq, Repr

/-- What a node is. -/
inductive Node
  | file (data : Bytes) (executable : Bool)
  | directory (parent : NodeId) (entries : Std.TreeMap Bytes NodeId)
  | link (target : Bytes)
  | device (device : Device)
  /-- A program that comes with the machine. -/
  | tool (name : String)
  /-- A file whose text is made up when it is opened. -/
  | notes (text : Bytes)
  /-- Another node under a second name, wherever that node is. -/
  | alias (id : NodeId)
  /-- An open file that has no name of its own. -/
  | opened (file : Nat)

/-- All nodes; the number of a node is its place. Node zero is the root. -/
structure Tree where
  nodes : Array Node
  /-- The nodes that are made up. -/
  madeUp : NodeId → Option Node := fun _ => none

/-- Where a path leads. -/
inductive Spot
  | found (id : NodeId)
  | vacant (directory : NodeId) (name : Bytes)
  deriving DecidableEq, Repr

/-- What a path is followed for. -/
inductive Purpose
  /-- The entry it names, even if that is a link. -/
  | entry
  /-- What is there in the end. -/
  | target
  /-- What is there in the end, or a new file. The name of a new file has no
  slash behind it. -/
  | creation
  deriving DecidableEq, Repr

/-- What a file is opened for. -/
structure OpenMode where
  reads : Bool := false
  writes : Bool := false
  /-- Every write goes to the end. -/
  appends : Bool := false
  creates : Bool := false
  truncates : Bool := false
  deriving DecidableEq, Repr

namespace OpenMode

def input : OpenMode := { reads := true }
def output : OpenMode := { writes := true, creates := true, truncates := true }
def append : OpenMode := { writes := true, creates := true, appends := true }
def update : OpenMode := { reads := true, writes := true, creates := true }

end OpenMode

/-- How many links a path may lead through. -/
def maxLinks : Nat := 40

/-- The longest name of a directory entry. -/
def maxName : Nat := 255

/-- Paths have to be shorter than this. -/
def pathLimit : Nat := 4096

namespace Tree

def root : NodeId := 0

/-- Where the numbers of the nodes begin that are made up. -/
def firstMadeUp : NodeId := 2 ^ 40

/-- A tree with nothing but its root. -/
def empty : Tree := { nodes := #[.directory root ∅] }

def node? (t : Tree) (id : NodeId) : Option Node :=
  if id < firstMadeUp then t.nodes[id]? else t.madeUp id

def setNode (t : Tree) (id : NodeId) (node : Node) : Tree :=
  { t with nodes := t.nodes.setIfInBounds id node }

/-- The tree without what was made up. -/
def kept (t : Tree) : Tree := { nodes := t.nodes }

/-- The tree with a node that no directory names. -/
def addLoose (t : Tree) (node : Node) : NodeId × Tree :=
  (t.nodes.size, { t with nodes := t.nodes.push node })

/-- Enters `id` under `name` in a directory. -/
def enter (t : Tree) (directory : NodeId) (name : Bytes) (id : NodeId) : Tree :=
  match t.node? directory with
  | some (.directory parent entries) =>
    t.setNode directory (.directory parent (entries.insert name id))
  | _ => t

/-- The tree with a new node under `name` in a directory. -/
def add (t : Tree) (directory : NodeId) (name : Bytes) (node : Node) : NodeId × Tree :=
  let (id, t) := t.addLoose node
  (id, t.enter directory name id)

/-- Takes the entry `name` out of a directory. -/
def leave (t : Tree) (directory : NodeId) (name : Bytes) : Tree :=
  match t.node? directory with
  | some (.directory parent entries) =>
    t.setNode directory (.directory parent (entries.erase name))
  | _ => t

/-! ## Paths -/

def endsWithSlash (path : Bytes) : Bool := path.getLast? = some slash

/-- What stands for a slash at the end of a path. -/
def finalSlash : Bytes := []

/-- The parts of a path that are walked. A slash at the end asks for a
directory, just as a final `.` does. -/
def parts (path : Bytes) : List Bytes :=
  let named := (Bytes.splitAt slash path).filter (· ≠ [])
  if endsWithSlash path then named ++ [finalSlash] else named

/-- Walks on from the node `at_`. -/
def walk (t : Tree) (purpose : Purpose) (links : Nat) (at_ : NodeId) :
    List Bytes → Except OsError Spot
  | [] => .ok (.found at_)
  | name :: rest =>
    match t.node? at_ with
    | some (.directory parent entries) =>
      if name.length > maxName then .error .nameTooLong
      else if name = Path.here ∨ name = finalSlash then walk t purpose links at_ rest
      else if name = Path.above then walk t purpose links parent rest
      else if purpose = .creation ∧ rest = [finalSlash] then .error .isDirectory
      else
        match entries[name]? with
        | none => if rest = [] then .ok (.vacant at_ name) else .error .noEntry
        | some id =>
          match t.node? id with
          | some (.link target) =>
            if rest = [] ∧ purpose = .entry then .ok (.found id)
            else
              match links with
              | 0 => .error .tooManyLinks
              | links + 1 =>
                let start := if Path.isAbsolute target then root else at_
                walk t purpose links start (parts target ++ rest)
          | some (.alias target) =>
            if rest = [] ∧ purpose = .entry then .ok (.found id)
            else walk t purpose links target rest
          | _ => walk t purpose links id rest
    | _ => .error .notDirectory
termination_by names => (links, names.length)

/-- Where a path leads, seen from the directory `base`. -/
def locate (t : Tree) (base : NodeId) (path : Bytes) (purpose : Purpose := .target) :
    Except OsError Spot :=
  if path = [] then .error .noEntry
  else if pathLimit ≤ path.length then .error .nameTooLong
  else t.walk purpose maxLinks (if Path.isAbsolute path then root else base) (parts path)

/-- The node a path leads to. -/
def find (t : Tree) (base : NodeId) (path : Bytes) (purpose : Purpose := .target) :
    Except OsError NodeId := do
  match ← t.locate base path purpose with
  | .found id => .ok id
  | .vacant .. => .error .noEntry

/-- Whether a path leads to a regular file. -/
def isRegularFile (t : Tree) (base : NodeId) (path : Bytes) : Bool :=
  !path.hasNul &&
    match t.find base path with
    | .ok id =>
      match t.node? id with
      | some (.file ..) | some (.tool _) | some (.notes _) => true
      | _ => false
    | .error _ => false

/-- Whether a node is a directory. -/
def isDirectory (t : Tree) (id : NodeId) : Bool :=
  match t.node? id with
  | some (.directory ..) => true
  | _ => false

/-- The paths among `paths` that lead to directories. -/
def existingDirectories (t : Tree) (base : NodeId) (paths : List Bytes) : List Bytes :=
  paths.filter fun path =>
    !path.hasNul &&
      match t.find base path with
      | .ok id => t.isDirectory id
      | .error _ => false

/-- The contents of a file; any other node has none. -/
def contents (t : Tree) (id : NodeId) : Bytes :=
  match t.node? id with
  | some (.file data _) => data
  | _ => []

/-- The name under which a directory holds a node. -/
def nameOf? (t : Tree) (directory id : NodeId) : Option Bytes :=
  match t.node? directory with
  | some (.directory _ entries) => (entries.toList.find? (·.2 = id)).map (·.1)
  | _ => none

/-- Whether a directory was removed from the tree; nothing can be made in it. -/
def isDetached (t : Tree) (id : NodeId) : Bool :=
  match t.node? id with
  | some (.directory parent _) => id ≠ root && (t.nameOf? parent id).isNone
  | _ => false

/-- The names on the way from the root down to a directory. -/
def namesTo (t : Tree) : (depth : Nat) → NodeId → Except OsError (List Bytes)
  | 0, _ => .error .noEntry
  | depth + 1, id =>
    if id = root then .ok []
    else
      match t.node? id with
      | some (.directory parent _) =>
        match t.nameOf? parent id with
        | some name => do .ok ((← namesTo t depth parent) ++ [name])
        | none => .error .noEntry
      | _ => .error .notDirectory

/-- The absolute path of a directory. One that was removed has none. -/
def pathTo (t : Tree) (id : NodeId) : Except OsError Bytes := do
  let names ← t.namesTo (t.nodes.size + 1) id
  if names = [] then .ok [slash] else .ok (names.flatMap (slash :: ·))

/-- The path of a node that some directory holds. -/
def pathOf? (t : Tree) (id : NodeId) : Option Bytes :=
  if t.isDirectory id then (t.pathTo id).toOption
  else
    (List.range t.nodes.size).findSome? fun directory =>
      (t.nameOf? directory id).bind fun name =>
        (t.pathTo directory).toOption.map (Path.join · name)

/-- Everything below a directory, with paths that begin with `start`.
Links are not followed. -/
def below (t : Tree) : (depth : Nat) → (start : Bytes) → NodeId → List (Bytes × Node)
  | 0, _, _ => []
  | depth + 1, start, id =>
    match t.node? id with
    | some (.directory _ entries) =>
      entries.toList.flatMap fun (name, child) =>
        match t.node? child with
        | none => []
        | some node =>
          let path := if start = [] then name else start ++ slash :: name
          (path, node) :: below t depth path child
    | _ => []

/-- Everything below a directory by its path relative to it, in the order
of the paths. -/
def listing (t : Tree) (id : NodeId) : List (Bytes × Node) :=
  (t.below (t.nodes.size + 1) [] id).mergeSort fun a b => !decide (b.1 < a.1)

/-! ## Opening files -/

/-- The part of a path in front of its last name, as seen from `base`. -/
def parentOf (t : Tree) (base : NodeId) (path : Bytes) : Except OsError NodeId := do
  let start := if Path.isAbsolute path then root else base
  let names := (Bytes.splitAt slash path).filter (· ≠ [])
  match ← t.walk .target maxLinks start names.dropLast with
  | .found id => if t.isDirectory id then .ok id else .error .notDirectory
  | .vacant .. => .error .noEntry

/-- Opens the node that is there already. -/
def openFound (t : Tree) (id : NodeId) (mode : OpenMode) : Except OsError (NodeId × Tree) :=
  match t.node? id with
  | some (.directory ..) =>
    if mode.writes || mode.creates then .error .isDirectory else .ok (id, t)
  | some (.file _ executable) =>
    if mode.truncates then .ok (id, t.setNode id (.file [] executable)) else .ok (id, t)
  | some (.tool _) => if mode.writes then .error .textBusy else .ok (id, t)
  | some _ => .ok (id, t)
  | none => .error .noEntry

/-- Whether new entries can be made in a directory. -/
def takesEntries (t : Tree) (directory : NodeId) : Bool :=
  directory < firstMadeUp && !t.isDetached directory

/-- Opens the file at a path: finds it, or creates it where the mode says
so, and empties it where the mode says so. -/
def openPath (t : Tree) (base : NodeId) (path : Bytes) (mode : OpenMode) :
    Except OsError (NodeId × Tree) := do
  match ← t.locate base path (if mode.creates then .creation else .target) with
  | .found id => t.openFound id mode
  | .vacant directory name =>
    if !(mode.creates && t.takesEntries directory) then .error .noEntry
    else if firstMadeUp ≤ t.nodes.size then .error .noSpace
    else .ok (t.add directory name (.file [] false))

/-- Puts `data` into a file at `offset`; a gap is filled with zeros. -/
def write (t : Tree) (id : NodeId) (offset : Nat) (data : Bytes) : Tree :=
  match t.node? id with
  | some (.file old executable) =>
    let before := old.take offset
    let gap := List.replicate (offset - old.length) 0
    t.setNode id (.file (before ++ gap ++ data ++ old.drop (offset + data.length)) executable)
  | _ => t

/-! ## Changing directories' entries -/

/-- A new directory at a path. -/
def makeDirectory (t : Tree) (base : NodeId) (path : Bytes) : Except OsError Tree := do
  let names := (Bytes.splitAt slash path).filter (· ≠ [])
  let plain := if endsWithSlash path then
      (if Path.isAbsolute path then [slash] else []) ++ [slash].intercalate names
    else path
  match ← t.locate base plain .entry with
  | .found _ => .error .fileExists
  | .vacant directory name =>
    if !t.takesEntries directory then .error .noEntry
    else .ok (t.add directory name (.directory directory ∅)).2

/-- A path and those of the directories above it, the highest one first. -/
def leadingPaths (path : Bytes) : List Bytes :=
  let names := (Bytes.splitAt slash path).filter (· ≠ [])
  let start := if Path.isAbsolute path then [slash] else []
  (List.range names.length).map fun i => start ++ [slash].intercalate (names.take (i + 1))

/-- Makes the directories of some paths, where they are missing. -/
def makeMissing (t : Tree) (base : NodeId) (paths : List Bytes) : Tree :=
  paths.foldl (fun t path => (t.makeDirectory base path).toOption.getD t) t

/-- Makes the directory at a path and those above it, where they are missing. -/
def makeDirectories (t : Tree) (base : NodeId) (path : Bytes) : Tree :=
  t.makeMissing base (leadingPaths path)

/-- Adds a node at a path where there is none, with the directories it needs. -/
def put (t : Tree) (base : NodeId) (path : Bytes) (node : Node) : Tree :=
  let t := t.makeMissing base (leadingPaths path).dropLast
  match t.locate base path .entry with
  | .ok (.vacant directory name) => (t.add directory name node).2
  | _ => t

/-- Writes a file, with the directories it needs. -/
def writeFile (t : Tree) (base : NodeId) (path data : Bytes) (executable : Bool) : Tree :=
  let t := t.makeMissing base (leadingPaths path).dropLast
  match t.openPath base path .output with
  | .ok (id, t) => t.setNode id (.file data executable)
  | .error _ => t

/-- The entry that a path names. -/
structure Entry where
  directory : NodeId
  /-- Its name; that of the root is empty. -/
  name : Bytes
  /-- The node under that name, if there is one. -/
  node : Option NodeId
  /-- There is a slash behind the name. -/
  slashed : Bool

/-- Whether an entry can be changed: the root, `.` and `..` can not. -/
def Entry.isPlain (e : Entry) : Bool := e.name ≠ [] && e.name ≠ Path.here && e.name ≠ Path.above

/-- The entry that a path names, even if that is a link. -/
def entry (t : Tree) (base : NodeId) (path : Bytes) : Except OsError Entry := do
  if path = [] then throw .noEntry
  if pathLimit ≤ path.length then throw .nameTooLong
  let directory ← t.parentOf base path
  let name := ((Bytes.splitAt slash path).filter (· ≠ [])).getLast?.getD []
  if maxName < name.length then throw .nameTooLong
  let node := match t.node? directory with
    | some (.directory _ entries) => entries[name]?
    | _ => none
  return { directory, name, node, slashed := endsWithSlash path }

/-- Why a slash may not stand behind the name of a node. -/
def slashFault (t : Tree) (id : NodeId) : OsError :=
  if t.isDirectory id then .isDirectory else .notDirectory

/-- Removes the entry of a path that is no directory. -/
def remove (t : Tree) (base : NodeId) (path : Bytes) : Except OsError Tree := do
  let e ← t.entry base path
  if !e.isPlain then throw .isDirectory
  match e.node with
  | none => throw .noEntry
  | some id =>
    if e.slashed || t.isDirectory id then throw (t.slashFault id)
    else return t.leave e.directory e.name

/-- Removes an empty directory. -/
def removeDirectory (t : Tree) (base : NodeId) (path : Bytes) : Except OsError Tree := do
  let e ← t.entry base path
  if e.name = [] then throw .busy
  if e.name = Path.here then throw .invalidArgument
  if e.name = Path.above then throw .notEmpty
  match e.node.map t.node? with
  | none => throw .noEntry
  | some (some (.directory _ entries)) =>
    if entries.isEmpty then return t.leave e.directory e.name else throw .notEmpty
  | some _ => throw .notDirectory

/-- Whether a directory is another one or somewhere below it; `depth` bounds
how deep. -/
def isWithin (t : Tree) (outer : NodeId) : (depth : Nat) → NodeId → Bool
  | 0, _ => false
  | depth + 1, id =>
    id = outer ||
      match t.node? id with
      | some (.directory parent _) => id ≠ root && isWithin t outer depth parent
      | _ => false

/-- Why a node can not take the place of another. -/
def replaceFault? (t : Tree) (id other : NodeId) : Option OsError :=
  match t.isDirectory id, t.node? other with
  | true, some (.directory _ entries) => if entries.isEmpty then none else some .notEmpty
  | true, _ => some .notDirectory
  | false, some (.directory ..) => some .isDirectory
  | false, _ => none

/-- Moves the entry of one path to another, where it takes the place of what
was there. -/
def rename (t : Tree) (base : NodeId) (source target : Bytes) : Except OsError Tree := do
  let e ← t.entry base source
  let e' ← t.entry base target
  if !e.isPlain || !e'.isPlain then throw .busy
  match e.node with
  | none => throw .noEntry
  | some id =>
    let isDirectory := t.isDirectory id
    if !isDirectory && (e.slashed || e'.slashed) then throw .notDirectory
    if isDirectory && t.isWithin id (t.nodes.size + 1) e'.directory then throw .invalidArgument
    if e'.node = some id then return t
    if let some other := e'.node then
      if let some fault := t.replaceFault? id other then throw fault
    if !t.takesEntries e'.directory then throw .noEntry
    let moved := (t.leave e.directory e.name).enter e'.directory e'.name id
    match t.node? id with
    | some (.directory _ entries) => return moved.setNode id (.directory e'.directory entries)
    | _ => return moved

/-- The entry of a path at which something new can be made. -/
def newEntry (t : Tree) (base : NodeId) (path : Bytes) : Except OsError Entry := do
  let e ← t.entry base path
  if !e.isPlain || e.node.isSome then throw .fileExists
  if e.slashed || !t.takesEntries e.directory then throw .noEntry
  return e

/-- A symbolic link at `path`. -/
def makeLink (t : Tree) (base : NodeId) (target path : Bytes) : Except OsError Tree := do
  let e ← t.newEntry base path
  if target = [] then throw .noEntry
  return (t.add e.directory e.name (.link target)).2

/-- A second name for the file at `source`, which is followed or not if it is
a link. Directories have one name only. -/
def share (t : Tree) (base : NodeId) (source path : Bytes) (follow : Bool) :
    Except OsError Tree := do
  let id ← t.find base source (if follow then .target else .entry)
  let e ← t.newEntry base path
  if t.isDirectory id then throw .notPermitted
  return t.enter e.directory e.name id

/-- Changes whether a file can be executed. -/
def setExecutable (t : Tree) (base : NodeId) (path : Bytes) (executable : Bool) :
    Except OsError Tree := do
  let id ← t.find base path
  match t.node? id with
  | some (.file data _) => .ok (t.setNode id (.file data executable))
  | _ => .ok t

end Tree

end JobShell.Machine
