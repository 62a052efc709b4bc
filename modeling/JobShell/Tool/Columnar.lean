import JobShell.Tool.Basic

/-!
# Lines side by side

`paste` joins the lines of several inputs, `comm` sets the lines of two
sorted ones in columns: those of the first alone, of the second alone, and of
both.
-/

namespace JobShell.Tool

open Machine (Action)

/-! ## Joining lines -/

namespace Joined

/-- The texts of a list of delimiters; none is left out if it ends in a
backslash. -/
def delimiters : List Char → Option (List String)
  | [] => some []
  | ['\\'] => none
  | '\\' :: c :: rest =>
    let text := match c with
      | '0' => ""
      | 'b' => "\x08"
      | 'f' => "\x0c"
      | 'n' => "\n"
      | 'r' => "\r"
      | 't' => "\t"
      | 'v' => "\x0b"
      | c => c.toString
    (delimiters rest).map (text :: ·)
  | c :: rest => (delimiters rest).map (c.toString :: ·)

/-- Texts with delimiters in between, which are taken in turn. -/
def join (delimiters : List String) (texts : List String) : String :=
  match texts with
  | [] => ""
  | first :: rest =>
    first ++ String.join (rest.zipIdx.map fun (text, k) =>
      (delimiters[k % delimiters.length]?).getD "" ++ text)

/-- The rows that several columns of lines make; `count` is the number of
lines of the longest one. -/
def rows (columns : List (List String)) : List (List String) :=
  let count := (columns.map List.length).foldl max 0
  (List.range count).map fun k => columns.map fun lines => (lines[k]?).getD ""

end Joined

/-- Gives every use of the standard input the lines that are left for it in
turn. -/
def dealLines (lines : List String) (count : Nat) : List (List String) :=
  (List.range count).map fun k =>
    lines.zipIdx.filterMap fun (line, j) => if j % count = k then some line else none

/-- Joins the lines of its inputs. -/
def paste (i : Invocation) : Action Unit := do
  let (options, operands) ← i.options
    { flags := "sz", valued := "d",
      long := [("delimiters", 'd'), ("serial", 's'), ("zero-terminated", 'z')] }
  let newline := if hasOption options 'z' then "\x00" else "\n"
  let written := (optionValue? options 'd').getD "\t"
  let delimiters ← match Joined.delimiters written.toList with
    | some [] => pure [""]
    | some texts => pure texts
    | none =>
      die i.name ("delimiter list ends with an unescaped backslash: " ++ written)
  let operands := if operands = [] then ["-"] else operands
  let serial := hasOption options 's'
  let rec collect : List String → Action (Nat × List (Option (List String)))
    | [] => return (0, [])
    | operand :: rest => do
      match ← openInput operand with
      | .error cause =>
        complainAbout i operand cause
        if !serial then Action.exit 1
        let (_, others) ← collect rest
        return (1, none :: others)
      | .ok fd =>
        if fd = 0 && !serial then
          let (status, others) ← collect rest
          return (status, some [] :: others)
        else
          let data ← Action.readAll fd
          closeInput fd
          match data with
          | .error cause =>
            complainAbout i operand cause
            let (_, others) ← collect rest
            return (1, none :: others)
          | .ok data =>
            let (status, others) ← collect rest
            return (status, some (splitLines data.octets newline).1 :: others)
  let (status, columns) ← collect operands
  if serial then
    say i.name (joinLines (columns.filterMap fun lines =>
      lines.map (Joined.join delimiters)) newline)
  else
    let shared := operands.filter (· = "-")
    let dealt ← if shared = [] then pure [] else do
      match ← Action.readAll 0 with
      | .error cause => complainAbout i "-" cause; Action.exit 1
      | .ok data => pure (dealLines (splitLines data.octets newline).1 shared.length)
    let columns := place dealt (operands.zip columns)
    say i.name (joinLines ((Joined.rows columns).map (Joined.join delimiters)) newline)
  Action.exit status
where
  /-- Puts the dealt lines where the standard input stands. -/
  place : List (List String) → List (String × Option (List String)) → List (List String)
    | _, [] => []
    | dealt, (operand, lines) :: rest =>
      if operand = "-" then dealt.headD [] :: place dealt.tail rest
      else lines.getD [] :: place dealt rest

/-! ## Comparing sorted lines -/

namespace Common

/-- Where a line occurs. -/
inductive Place
  | first
  | second
  | both
  deriving DecidableEq

/-- The column of lines that occur at a place. -/
def Place.column : Place → Nat
  | .first => 0
  | .second => 1
  | .both => 2

/-- What is noticed while two lists of lines are gone through. -/
inductive Event
  | line (place : Place) (text : String)
  /-- A list is not sorted. -/
  | disorder (place : Place)
  deriving DecidableEq

/-- Whether the line behind `line` in a list is smaller. -/
def isDisordered (line : String) (rest : List String) : Bool :=
  rest.head?.any fun next => decide (next < line)

/-- Goes through two lists of lines at once; `count` bounds how many there
are. -/
def merge : (count : Nat) → List String → List String → List Event
  | 0, _, _ => []
  | _, [], [] => []
  | count + 1, a :: as, [] => .line .first a :: noted .first a as ++ merge count as []
  | count + 1, [], b :: bs => .line .second b :: noted .second b bs ++ merge count [] bs
  | count + 1, a :: as, b :: bs =>
    if a < b then .line .first a :: noted .first a as ++ merge count as (b :: bs)
    else if b < a then .line .second b :: noted .second b bs ++ merge count (a :: as) bs
    else .line .both a :: noted .first a as ++ noted .second b bs ++ merge count as bs
where
  noted (place : Place) (line : String) (rest : List String) : List Event :=
    if isDisordered line rest then [.disorder place] else []

end Common

/-- Sets the lines of two sorted inputs in columns. -/
def comm (i : Invocation) : Action Unit := do
  let (options, operands) ← i.options
    { flags := "123z", longValued := "D"
      long := [("check-order", 'k'), ("nocheck-order", 'K'), ("output-delimiter", 'D'),
        ("total", 'T'), ("zero-terminated", 'z')] }
  let (first, second) ← match operands with
    | [] => misused i "missing operand"
    | [only] => misused i s!"missing operand after {Quoted.plain only}"
    | [first, second] => pure (first, second)
    | _ :: _ :: extra :: _ => misused i s!"extra operand {Quoted.plain extra}"
  let newline := if hasOption options 'z' then "\x00" else "\n"
  let delimiter := match optionValue? options 'D' with
    | none => "\t"
    | some "" => "\x00"
    | some text => text
  let read (operand : String) : Action (List String) := do
    match ← openInput operand with
    | .error cause => complainAbout i operand cause; Action.exit 1
    | .ok fd =>
      let data ← Action.readAll fd
      closeInput fd
      match data with
      | .error cause => complainAbout i operand cause; Action.exit 1
      | .ok data => return (splitLines data.octets newline).1
  let a ← read first
  let b ← read second
  let events := Common.merge (a.length + b.length) a b
  let hidden (place : Common.Place) : Bool :=
    hasOption options ((['1', '2', '3'][place.column]?).getD '3')
  let shown (place : Common.Place) (text : String) : List String :=
    if hidden place then []
    else
      let before := [Common.Place.first, .second, .both].filter fun other =>
        other.column < place.column && !hidden other
      [String.join (before.map fun _ => delimiter) ++ text]
  let checks := hasOption options 'k'
  let isUnpaired := events.any fun event => match event with
    | .line .both _ => false
    | .line _ _ => true
    | .disorder _ => false
  let minds := checks || (!hasOption options 'K' && isUnpaired)
  let rec go (noticed : List Common.Place) : List Common.Event → Action (List Common.Place)
    | [] => return noticed
    | .line place text :: rest => do
      say i.name (joinLines (shown place text) newline)
      go noticed rest
    | .disorder place :: rest => do
      if !minds || noticed.contains place then go noticed rest
      else
        let number := place.column + 1
        complainAs i.name s!"file {number} is not in sorted order"
        if checks then Action.exit 1
        go (place :: noticed) rest
  let noticed ← go [] events
  if hasOption options 'T' then
    let count (place : Common.Place) : String := toString (events.countP fun event =>
      match event with
      | .line other _ => other = place
      | .disorder _ => false)
    say i.name (delimiter.intercalate [count .first, count .second, count .both, "total"] ++
      newline)
  if noticed ≠ [] then die i.name "input is not in sorted order"
  else Action.exit 0

end JobShell.Tool
