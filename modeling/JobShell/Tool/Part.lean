import JobShell.Tool.Copy
import JobShell.Tool.Count

/-!
# Beginnings and ends

`head` copies the first lines or bytes of its inputs, `tail` the last ones.
-/

namespace JobShell.Tool

open Machine (Action)

namespace Part

/-- What is copied of an input. -/
structure Extent where
  byBytes : Bool := false
  count : Nat := 10
  /-- The count is that of what is left out at the other end. -/
  others : Bool := false

/-- How the inputs are presented. -/
structure Setting where
  extent : Extent := {}
  /-- Whether inputs have headers; it depends on their number if nothing is
  said. -/
  headers : Option Bool := none
  /-- What ends a line. -/
  newline : UInt8 := 10

/-- Reads a count behind its sign. -/
def readExtent (i : Invocation) (byBytes : Bool) (sign : Char) (text : String) : Action Extent := do
  let (others, digits) : Bool × String := match text.toList with
    | c :: rest => if c = sign then (true, String.ofList rest) else (false, text)
    | [] => (false, text)
  let digits := match digits.toList with
    | '-' :: rest => if sign = '+' then String.ofList rest else digits
    | _ => digits
  match readCount "bkKmMGTPEZYRQ" digits with
  | .ok count => return { byBytes, count, others }
  | .error fault =>
    die i.name ("invalid number of " ++ (if byBytes then "bytes" else "lines") ++ ": " ++
      Quoted.plain digits ++ fault.words)

/-- Applies options, one after the other. If `lasting` holds, what a sign
says also holds for counts without a sign behind it. -/
def applyOptions (i : Invocation) (sign : Char) (lasting : Bool) (s : Setting) :
    List GivenOption → Action Setting
  | [] => return s
  | (c, value) :: rest => do
    let text := value.getD ""
    let others := lasting && s.extent.others
    let s ← match c with
      | 'n' =>
        let extent ← readExtent i false sign text
        pure { s with extent := { extent with others := extent.others || others } }
      | 'c' =>
        let extent ← readExtent i true sign text
        pure { s with extent := { extent with others := extent.others || others } }
      | 'q' => pure { s with headers := some false }
      | 'v' => pure { s with headers := some true }
      | 'z' => pure { s with newline := 0 }
      | _ => pure s
    applyOptions i sign lasting s rest

/-- The length of the first `count` lines of a block, and how many lines are
still wanted. -/
def lineExtent (newline : UInt8) : (count : Nat) → Bytes → Nat × Nat
  | 0, _ => (0, 0)
  | count, [] => (0, count)
  | count + 1, b :: rest =>
    let (length, left) := lineExtent newline (if b = newline then count else count + 1) rest
    (length + 1, left)

/-- How many lines a text has; the last one may have no end. -/
def countLines (newline : UInt8) (data : Bytes) : Nat :=
  data.count newline + (if data.getLast?.all (· = newline) then 0 else 1)

/-- The header in front of an input. -/
def header (i : Invocation) (first : Bool) (operand : String) : Action Unit :=
  say i.name ((if first then "" else "\n") ++ "==> " ++
    (if operand = "-" then "standard input" else operand) ++ " <==\n")

/-- Does something with every input, behind its header. If `strict` holds, one
that can not be read is the last. -/
def forEach (i : Invocation) (s : Setting) (strict : Bool) (operands : List String)
    (use : Fd → Action (Except OsError Unit)) : Action Unit := do
  let operands := if operands = [] then ["-"] else operands
  let headers := s.headers.getD (operands.length > 1)
  let rec go (status : Nat) (first : Bool) : List String → Action Unit
    | [] => Action.exit status
    | operand :: rest => do
      let shown := Quoted.always (if operand = "-" then "standard input" else operand)
      match ← openInput operand with
      | .error cause =>
        complainAs i.name (s!"cannot open {shown} for reading: " ++ errorWords cause)
        go 1 first rest
      | .ok fd =>
        if headers then header i first operand
        let result ← use fd
        closeInput fd
        match result with
        | .ok () => go status false rest
        | .error cause =>
          complainAs i.name (s!"error reading {shown}: " ++ errorWords cause)
          if strict then Action.exit 1
          go 1 false rest
  go 0 true operands

/-- Copies the beginning of an input. What was read too far is given back,
if the input allows it. -/
def copyBeginning (i : Invocation) (s : Setting) (fd : Fd) : Action (Except OsError Unit) := do
  let extent := s.extent
  if extent.others then
    match ← Action.readAll fd with
    | .error cause => return .error cause
    | .ok data =>
      let length :=
        if extent.byBytes then data.length - extent.count
        else (lineExtent s.newline (countLines s.newline data - extent.count) data).1
      say i.name (Bytes.octets (data.take length))
      return .ok ()
  else if extent.count = 0 then return .ok ()
  else
    let result ← Action.foldBlocks fd (fun left block => do
      let (length, left) :=
        if extent.byBytes then (min left block.length, left - block.length)
        else lineExtent s.newline left block
      say i.name (Bytes.octets (block.take length))
      if left = 0 ∧ length < block.length then
        let _ ← Action.call (.seek fd (length - block.length : Int))
      return (left, left ≠ 0)) extent.count
    return result.map fun _ => ()

/-- Copies the end of an input. -/
def copyEnd (i : Invocation) (s : Setting) (fd : Fd) : Action (Except OsError Unit) := do
  let extent := s.extent
  match ← Action.readAll fd with
  | .error cause => return .error cause
  | .ok data =>
    let length := if extent.byBytes then data.length else countLines s.newline data
    let skipped := if extent.others then extent.count - 1 else length - extent.count
    let skippedBytes :=
      if extent.byBytes then skipped else (lineExtent s.newline skipped data).1
    say i.name (Bytes.octets (data.drop skippedBytes))
    return .ok ()

/-- The setting of arguments that begin with a count such as `-5`, and the
arguments behind it. -/
def readOldHead (i : Invocation) (arguments : List String) : Action (Setting × List String) := do
  match arguments with
  | [] => return ({}, [])
  | first :: rest =>
    match first.toList with
    | '-' :: cs =>
      let (digits, letters) := cs.span Char.isDigit
      if digits = [] then return ({}, arguments)
      else
        let rec go (s : Setting) (unit : String) : List Char → Action (Setting × String)
          | [] => return (s, unit)
          | c :: cs => do
            match c with
            | 'c' => go { s with extent.byBytes := true } "" cs
            | 'b' | 'k' | 'm' => go { s with extent.byBytes := true } c.toString cs
            | 'l' => go { s with extent.byBytes := false } unit cs
            | 'q' => go { s with headers := some false } unit cs
            | 'v' => go { s with headers := some true } unit cs
            | 'z' => go { s with newline := 0 } unit cs
            | c => misused i s!"invalid trailing option -- {c}"
        let (s, unit) ← go {} "" letters
        let extent ← readExtent i s.extent.byBytes '-' (String.ofList digits ++ unit)
        return ({ s with extent }, rest)
    | _ => return ({}, arguments)

/-- The extent that an argument such as `-5` or `+5c` asks for. -/
def oldTailExtent? (argument : String) : Option Extent :=
  let read (others : Bool) (cs : List Char) : Option Extent :=
    let (digits, letters) := cs.span Char.isDigit
    let count := if digits = [] then 10 else Text.natOfDigits digits
    match letters with
    | [] | ['l'] => some { byBytes := false, count, others }
    | ['c'] => some { byBytes := true, count, others }
    | ['b'] => some { byBytes := true, count := 512 * count, others }
    | _ => none
  match argument.toList with
  | '+' :: cs => read true cs
  | '-' :: cs => if cs = [] ∨ cs = ['c'] then none else read false cs
  | _ => none

/-- The setting of arguments that consist of an extent and at most one
operand, and that operand. -/
def readOldTail (arguments : List String) : Setting × List String :=
  let isOption (operand : String) : Bool := operand.length > 1 && operand.toList.head? = some '-'
  match arguments with
  | first :: rest =>
    let operands : Option (List String) := match rest with
      | [] => some []
      | [operand] => if isOption operand then none else some [operand]
      | ["--", operand] => some [operand]
      | _ => none
    match oldTailExtent? first, operands with
    | some extent, some operands => ({ extent }, operands)
    | _, _ => ({}, arguments)
  | [] => ({}, [])

end Part

/-- Copies the first lines or bytes of its inputs. -/
def head (i : Invocation) : Action Unit := do
  let (start, arguments) ← Part.readOldHead i i.arguments
  let (options, operands) ← { i with arguments }.options
    { flags := "qvz0123456789", valued := "nc",
      long := [("bytes", 'c'), ("lines", 'n'), ("quiet", 'q'), ("silent", 'q'), ("verbose", 'v'),
        ("zero-terminated", 'z')] }
  if let some (digit, _) := options.find? (·.1.isDigit) then
    misused i s!"invalid trailing option -- {digit}"
  let s ← Part.applyOptions i '-' false start options
  Part.forEach i s false operands (Part.copyBeginning i s)

/-- Copies the last lines or bytes of its inputs. -/
def tail (i : Invocation) : Action Unit := do
  let (start, arguments) := Part.readOldTail i.arguments
  let (options, operands) ← { i with arguments }.options
    { flags := "fFqvz0123456789", valued := "ncs", longValued := "P",
      long := [("bytes", 'c'), ("lines", 'n'), ("quiet", 'q'), ("silent", 'q'), ("verbose", 'v'),
        ("zero-terminated", 'z'), ("sleep-interval", 's'), ("pid", 'P')] }
  if let some (digit, _) := options.find? (·.1.isDigit) then
    die i.name s!"option used in invalid context -- {digit}"
  let s ← Part.applyOptions i '+' true start options
  let extent := s.extent
  if extent.count = 0 ∧ !extent.others then Action.exit 0
  Part.forEach i s extent.byBytes operands (Part.copyEnd i s)

end JobShell.Tool
