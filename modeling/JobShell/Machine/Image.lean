import JobShell.Machine.World

/-!
# Executing files

Which program a file contains. A file that begins with `#!` names its
interpreter on the first line, together with at most one argument; the
interpreter is executed instead, with the path of the file behind that
argument. A file the machine knows nothing about is handed to the command
interpreter by those who execute commands.
-/

namespace JobShell.Machine

/-- How many bytes at the beginning of a file are looked at, without the
mark of an interpreted file. -/
def interpreterRoom : Nat := 254

/-- How many interpreters may be interpreted themselves. -/
def maxInterpreters : Nat := 5

/-- The longest single argument or environment entry, with its final zero. -/
def maxArgument : Nat := 131072

/-- The room for all arguments and environment entries together. -/
def argumentRoom : Nat := 2097152

/-- The command interpreter. -/
def interpreterPath : Bytes := .ofString "/bin/sh"

/-- A program found in a file. -/
structure Image where
  /-- The last part of the path. -/
  name : Bytes
  program : Program

namespace World

/-- Whether a byte separates the words of an interpreter line. -/
def isLineBlank (b : UInt8) : Bool := b = 32 || b = 9

/-- The line that names an interpreter, from what stands behind the mark. A
line that is not whole ends one byte before the room does, and the name of
the interpreter must end in that room. Behind the end of a file there are
zeros. -/
def interpreterText? (rest : Bytes) : Option Bytes :=
  let block := rest.take interpreterRoom
  if 10 ∈ block then
    some ((block.takeWhile (· ≠ 10)).reverse.dropWhile isLineBlank).reverse
  else
    let block := if rest.length < interpreterRoom then block ++ [0] else block
    let named := block.dropWhile isLineBlank
    if named.any fun b => isLineBlank b || b = 0 then
      some ((block.take (interpreterRoom - 1)).reverse.dropWhile isLineBlank).reverse
    else none

/-- The interpreter and its argument that a file names on its first line.
Both end at a zero. -/
def interpreterLine? (data : Bytes) : Option (Bytes × Option Bytes) :=
  match data with
  | 35 :: 33 :: rest => do
    let named := (← interpreterText? rest).dropWhile isLineBlank
    guard (named ≠ [])
    let path := named.takeWhile fun b => !isLineBlank b && b ≠ 0
    match (named.drop path.length).span isLineBlank with
    | ([], _) | (_, []) => return (path, none)
    | (_, argument) => return (path, some (argument.takeWhile (· ≠ 0)))
  | _ => none

/-- Whether a file can be executed at all. -/
def canExecute (t : Tree) (id : NodeId) : Bool :=
  match t.node? id with
  | some (.file _ executable) => executable
  | some (.tool _) => true
  | _ => false

/-- The program that executing a path begins. The empty path is that of the
directory. -/
def image (w : World) (t : Tree) (base : NodeId) (environment : Environment) :
    (depth : Nat) → (path : Bytes) → List Bytes → Except OsError Image
  | 0, _, _ => .error .tooManyLinks
  | depth + 1, path, arguments => do
    let id ← if path = [] then .ok base else t.find base path
    if !canExecute t id then .error .accessDenied
    else
      match t.node? id with
      | some (.tool name) =>
        match w.library name with
        | some program =>
          .ok { name := ((Bytes.splitAt slash path).getLast?).getD [],
                program := program arguments environment }
        | none => .error .notExecutable
      | some (.file data _) =>
        match interpreterLine? data with
        | some (interpreter, argument) =>
          let first := match argument with
            | some argument => [interpreter, argument]
            | none => [interpreter]
          let arguments := first ++ path :: arguments.drop 1
          let image ← w.image t base environment depth interpreter arguments
          .ok { image with name := ((Bytes.splitAt slash path).getLast?).getD [] }
        | none => .error .notExecutable
      | _ => .error .accessDenied

/-- Whether arguments and environment fit into a new process. -/
def fits (arguments : List Bytes) (environment : Environment) : Bool :=
  let sizes := (arguments ++ environment.entries).map (·.length + 1)
  sizes.all (· ≤ maxArgument) && sizes.sum ≤ argumentRoom

/-- The program that a process in the directory `base` begins when it
executes a path of the tree it finds. -/
def execute (w : World) (t : Tree) (base : NodeId) (path : Bytes) (arguments : List Bytes)
    (environment : Environment) : Except OsError Image :=
  if path = [] then .error .noEntry
  else if !fits arguments environment then
    match t.find base path with
    | .error e => .error e
    | .ok id => if canExecute t id then .error .argumentListTooLong else .error .accessDenied
  else w.image t base environment maxInterpreters path arguments

/-- The program that is begun for a command: a file the machine knows
nothing about is interpreted as a script. -/
def executeCommand (w : World) (t : Tree) (base : NodeId) (path : Bytes)
    (arguments : List Bytes) (environment : Environment) : Except OsError Image :=
  match w.execute t base path arguments environment with
  | .error (.code 8) =>
    w.execute t base interpreterPath (interpreterPath :: path :: arguments.drop 1) environment
  | result => result

end World

end JobShell.Machine
