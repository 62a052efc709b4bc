import JobShell.Text.Decimal
import JobShell.Tool.Basic

/-!
# Parts of lines

`cut` prints listed places of every line: characters, or fields between
delimiters. A list consists of spans of places, which `Span.merge` brings
into order.
-/

namespace JobShell.Tool

open Machine (Action)

namespace Columns

/-- Places of a line, from `first` on, up to `last` if there is one. -/
structure Span where
  first : Nat
  last : Option Nat
  deriving DecidableEq, Repr

/-- Whether a place is in a span. -/
def Span.holds (s : Span) (place : Nat) : Bool := s.first ≤ place && s.last.all (place ≤ ·)

/-- Why a text is no list of places. -/
inductive ListFault
  | zero
  | twoDashes
  | noEnds
  | decreasing
  | tooLarge (digits : String)
  | invalid (rest : String)
  deriving DecidableEq, Repr

/-- The wording of a fault in a list of fields, or in one of other places. -/
def ListFault.message (ofFields : Bool) : ListFault → String
  | zero => (if ofFields then "fields" else "byte/character positions") ++ " are numbered from 1"
  | twoDashes => if ofFields then "invalid field range" else "invalid byte or character range"
  | noEnds => "invalid range with no endpoint: -"
  | decreasing => "invalid decreasing range"
  | tooLarge digits =>
    (if ofFields then "field number " else "byte/character offset ") ++ Quoted.plain digits ++
      " is too large"
  | invalid rest =>
    (if ofFields then "invalid field value " else "invalid byte/character position ") ++
      Quoted.plain rest

/-- Whether a character stands between the spans of a list. -/
def isSeparator (c : Char) : Bool := c = ',' || c = ' ' || c = '\t'

/-- The number that digits denote; zero if there are none. -/
def readPlace (digits : List Char) : Except ListFault Nat :=
  let n := Text.natOfDigits digits
  if n < 2 ^ 64 - 1 then .ok n else .error (.tooLarge (String.ofList digits))

/-- Reads one span, up to a separator. -/
def readSpan (cs : List Char) : Except ListFault (Span × List Char) := do
  let (left, rest) := cs.span Char.isDigit
  let first ← readPlace left
  match rest with
  | '-' :: rest =>
    if left ≠ [] ∧ first = 0 then .error .zero
    else
      let (right, rest) := rest.span Char.isDigit
      let last ← readPlace right
      let start := if left = [] then 1 else first
      match rest with
      | '-' :: _ => .error .twoDashes
      | c :: _ =>
        if isSeparator c then finish start last left right rest
        else .error (.invalid (String.ofList rest))
      | [] => finish start last left right rest
  | c :: _ =>
    if !isSeparator c then .error (.invalid (String.ofList rest))
    else if first = 0 then .error .zero
    else .ok (⟨first, some first⟩, rest)
  | [] => if first = 0 then .error .zero else .ok (⟨first, some first⟩, rest)
where
  finish (start last : Nat) (left right rest : List Char) : Except ListFault (Span × List Char) :=
    if left = [] ∧ right = [] then .error .noEnds
    else if right = [] then .ok (⟨start, none⟩, rest)
    else if last < start then .error .decreasing
    else .ok (⟨start, some last⟩, rest)

/-- Reads a list of spans; `length` bounds how many there are. -/
def readSpans : (length : Nat) → List Char → Except ListFault (List Span)
  | 0, _ => .ok []
  | length + 1, cs => do
    match ← readSpan cs with
    | (span, _ :: rest) => return span :: (← readSpans length rest)
    | (span, []) => return [span]

/-- Joins spans that overlap. Each begins no earlier than the one in front
of it. -/
def mergeOrdered : List Span → List Span
  | [] => []
  | s :: rest =>
    match mergeOrdered rest with
    | [] => [s]
    | next :: others =>
      if s.last.all (next.first ≤ ·) then
        let last := match s.last, next.last with
          | some a, some b => some (max a b)
          | _, _ => none
        ⟨s.first, last⟩ :: others
      else s :: next :: others

/-- The spans of a list in order, without overlaps. -/
def Span.merge (spans : List Span) : List Span :=
  mergeOrdered (spans.mergeSort fun a b => a.first ≤ b.first)

/-- The places from `start` on that no span holds. -/
def others (start : Nat) : List Span → List Span
  | [] => [⟨start, none⟩]
  | s :: rest =>
    let gap := if start < s.first then [⟨start, some (s.first - 1)⟩] else []
    match s.last with
    | some last => gap ++ others (last + 1) rest
    | none => gap

/-- What is printed of a line. -/
structure Style where
  spans : List Span
  /-- The delimiter of the fields; without one, places are characters. -/
  delimiter : Option Char
  /-- What is put between the parts, if something was chosen. -/
  joint : Option String
  /-- Lines without any delimiter are left out. -/
  onlyDelimited : Bool

/-- The characters of a line that are printed. A joint stands in front of
every span but the first that is printed. -/
def Style.characters (style : Style) (line : List Char) : List Char :=
  let rec go (begun : Bool) : List (Char × Nat) → List Char
    | [] => []
    | (c, k) :: rest =>
      let place := k + 1
      if style.spans.any (·.holds place) then
        let starts := style.spans.any (·.first = place)
        let joint := if begun && starts then (style.joint.getD "").toList else []
        joint ++ c :: go true rest
      else go begun rest
  go false line.zipIdx

/-- What is printed of a line; `none` if not even its end is. -/
def Style.cut (style : Style) (line : String) : Option String :=
  match style.delimiter with
  | none => some (String.ofList (style.characters line.toList))
  | some delimiter =>
    let fields := line.splitOn delimiter.toString
    if fields.length = 1 then if style.onlyDelimited then none else some line
    else
      let chosen := fields.zipIdx.filter fun (_, k) => style.spans.any (·.holds (k + 1))
      some ((style.joint.getD delimiter.toString).intercalate (chosen.map (·.1)))

end Columns

/-- Prints parts of every line. -/
def cut (i : Invocation) : Action Unit := do
  let (options, operands) ← i.options
    { flags := "nsz", valued := "bcdf", longValued := "O",
      long := [("bytes", 'b'), ("characters", 'c'), ("fields", 'f'), ("delimiter", 'd'),
        ("only-delimited", 's'), ("output-delimiter", 'O'), ("complement", 'C'),
        ("zero-terminated", 'z')] }
  let orZero (text : String) : String := if text = "" then "\x00" else text
  let delimiter := (optionValue? options 'd').map orZero
  let lists := options.filter fun (c, _) => c = 'b' || c = 'c' || c = 'f'
  if lists.length > 1 then misused i "only one list may be specified"
  if delimiter.any (·.length > 1) then misused i "the delimiter must be a single character"
  match lists with
  | [(kind, some text)] => do
    let byField := kind = 'f'
    if !byField && delimiter.isSome then
      misused i "an input delimiter may be specified only when operating on fields"
    if !byField && hasOption options 's' then
      misused i ("suppressing non-delimited lines makes sense\n" ++
        "\tonly when operating on fields")
    match Columns.readSpans (text.length + 1) text.toList with
    | .error fault => misused i (fault.message byField)
    | .ok spans =>
      let spans := Columns.Span.merge spans
      let style : Columns.Style := {
        spans := if hasOption options 'C' then Columns.others 1 spans else spans
        delimiter := if byField then some ((delimiter.getD "\t").toList.headD '\t') else none
        joint := (optionValue? options 'O').map orZero
        onlyDelimited := hasOption options 's' }
      let newline := if hasOption options 'z' then "\x00" else "\n"
      Action.exit (← forInputs i operands fun _ fd =>
        foldLines i.name fd (fun () line => ((), (style.cut line).toList, true)) () newline)
  | _ => misused i "you must specify a list of bytes, characters, or fields"

end JobShell.Tool
