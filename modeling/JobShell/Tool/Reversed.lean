import JobShell.Tool.Basic

/-!
# Turned around

`rev` prints the characters of every line backwards, `tac` the lines of
every input. Neither adds an end to a last line that has none.
-/

namespace JobShell.Tool

open Machine (Action)

/-- Prints every line backwards. -/
def rev (i : Invocation) : Action Unit := do
  let (options, operands) ← i.options { flags := "0", long := [("zero", '0')] }
  let newline : UInt8 := if hasOption options '0' then 0 else 10
  let copy (fd : Fd) : Action (Except OsError Unit) := do
    let result ← Action.foldBlocks fd (fun held block => do
      let lines := Bytes.splitAt newline (held ++ block)
      let whole := lines.dropLast.flatMap fun line => line.reverse ++ [newline]
      say i.name (Bytes.octets whole)
      return (lines.getLastD [], true)) []
    match result with
    | .ok held => say i.name (Bytes.octets held.reverse); return .ok ()
    | .error cause => return .error cause
  let rec go (status : Nat) : List String → Action Unit
    | [] => Action.exit status
    | operand :: rest => do
      match ← Action.openFile (.ofOctets operand) .input with
      | .error cause =>
        complainAs i.name (s!"cannot open {operand}: " ++ errorWords cause)
        go 1 rest
      | .ok fd =>
        let result ← copy fd
        Action.close fd
        match result with
        | .ok () => go status rest
        | .error cause => complainAs i.name (operand ++ ": " ++ errorWords cause); go 1 rest
  if operands = [] then
    match ← copy 0 with
    | .ok () => Action.exit 0
    | .error cause => die i.name ("stdin: " ++ errorWords cause)
  else go 0 operands

/-- The records of a text: what stands between separators, each with the
separator behind it, or with the one in front of it. -/
def recordsOf (separator : String) (inFront : Bool) (text : String) : List String :=
  match text.splitOn separator with
  | [] => []
  | first :: rest =>
    if inFront then first :: rest.map (separator ++ ·)
    else (first :: rest).dropLast.map (· ++ separator) ++ [(first :: rest).getLastD ""]

/-- Prints the lines of every input, the last one first. -/
def tac (i : Invocation) : Action Unit := do
  let (options, operands) ← i.options
    { flags := "br", valued := "s",
      long := [("before", 'b'), ("regex", 'r'), ("separator", 's')] }
  let separator := match optionValue? options 's' with
    | none => "\n"
    | some "" => "\x00"
    | some text => text
  let rec go (status : Nat) : List String → Action Unit
    | [] => Action.exit status
    | operand :: rest => do
      match ← openInput operand with
      | .error cause =>
        complainAs i.name
          (s!"failed to open {Quoted.always operand} for reading: " ++ errorWords cause)
        go 1 rest
      | .ok fd =>
        let data ← Action.readAll fd
        closeInput fd
        match data with
        | .ok data =>
          let records := recordsOf separator (hasOption options 'b') data.octets
          say i.name (String.join records.reverse)
          go status rest
        | .error cause =>
          complainAs i.name (Quoted.forShell operand ++ ": read error: " ++ errorWords cause)
          go 1 rest
  go 0 (if operands = [] then ["-"] else operands)

end JobShell.Tool
