import JobShell.Text.Bytes

/-!
# Paths

A path is a byte string whose parts are separated by slashes. Joining is
textual; the components are what remains when repeated and trailing slashes
and inner `.` parts are left out.
-/

namespace JobShell

/-- The byte that separates the parts of a path. -/
def slash : UInt8 := '/'.toUInt8

/-- The byte that separates the entries of a search path. -/
def colon : UInt8 := ':'.toUInt8

/-- The stretches of `bs` between the bytes equal to `separator`; there is
always at least one. -/
def Bytes.splitAt (separator : UInt8) : Bytes → List Bytes
  | [] => [[]]
  | b :: rest =>
    if b = separator then [] :: Bytes.splitAt separator rest
    else
      match Bytes.splitAt separator rest with
      | [] => [[b]]
      | first :: others => (b :: first) :: others

namespace Path

/-- A part of a path that matters. -/
inductive Component
  | root
  /-- A `.` at the very beginning. -/
  | current
  | parent
  | normal (name : Bytes)
  deriving DecidableEq, Repr

def isAbsolute (path : Bytes) : Bool := path.head? = some slash

/-- The path `path` as seen from `base`. -/
def join (base path : Bytes) : Bytes :=
  if isAbsolute path then path
  else if base = [] ∨ base.getLast? = some slash then base ++ path
  else base ++ slash :: path

/-- The name of the current directory. -/
def here : Bytes := ['.'.toUInt8]

/-- The name of the directory above. -/
def above : Bytes := ['.'.toUInt8, '.'.toUInt8]

/-- What a part of a path stands for, unless it can be left out. -/
def component? (part : Bytes) : Option Component :=
  if part = [] ∨ part = here then none
  else if part = above then some .parent
  else some (.normal part)

/-- The components of a path. -/
def components (path : Bytes) : List Component :=
  let parts := Bytes.splitAt slash path
  let start : List Component :=
    if isAbsolute path then [.root]
    else if parts.head? = some here then [.current]
    else []
  start ++ parts.filterMap component?

/-- Whether a command name says where the file is: taking its last component
away leaves something, or it has none to take away. -/
def isQualified (path : Bytes) : Bool :=
  match components path with
  | [] | [.root] => true
  | [_] => false
  | _ => true

/-- The directories of a search path. An empty entry is the current
directory. -/
def searchDirectories (searchPath : Bytes) : List Bytes :=
  (Bytes.splitAt colon searchPath).map fun entry => if entry = [] then here else entry

end Path

end JobShell
