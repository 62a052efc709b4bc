import JobShell.Failure
import JobShell.Path

/-!
# Finding the file of a command

A name with a slash is a path. Any other name is looked up in the
directories of the search path, and the first regular file wins. All that
has to be known about the file system is which paths are regular files and
what the current directory is.
-/

namespace JobShell

/-- The search path used where the environment has none. -/
def defaultSearchPath : Bytes :=
  .ofString "/usr/local/bin:/usr/bin:/bin:/usr/local/sbin:/usr/sbin:/sbin"

/-- What resolution needs to know about the file system. -/
structure FileView where
  isRegularFile : Bytes → Bool
  currentDirectory : Except OsError Bytes

namespace FileView

/-- `path` as an absolute path. -/
def absolute (v : FileView) (path : Bytes) : Except Failure Bytes :=
  if Path.isAbsolute path then .ok path
  else
    match v.currentDirectory with
    | .ok directory => .ok (Path.join directory path)
    | .error cause => .error (.io cause)

/-- The absolute path of the file that `command` runs. -/
def resolve (v : FileView) (searchPath command : Bytes) : Except Failure Bytes :=
  if command = [] then .error (.commandNotFound command)
  else if Path.isQualified command then do
    let path ← v.absolute command
    if v.isRegularFile path then .ok path else .error (.commandNotFound path)
  else
    let candidates := (Path.searchDirectories searchPath).map (Path.join · command)
    match candidates.find? v.isRegularFile with
    | some candidate => v.absolute candidate
    | none => .error (.commandNotFound command)

end FileView

end JobShell
