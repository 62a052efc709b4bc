import JobShell.Text.Decimal
import JobShell.Text.Regex

/-!
# Reading patterns

Patterns are written in the basic or in the extended way. They differ in
which characters need a backslash to have a meaning: in basic patterns
groups, alternatives and counts need one, in extended patterns they lose
their meaning behind one. Programs also differ in how strict they are with
repetitions of nothing.
-/

namespace JobShell.Text.Regex

/-- A way to write patterns. -/
structure Dialect where
  extended : Bool := false
  /-- Repetitions of nothing are faults. -/
  strict : Bool := false

/-- Why a text is no pattern. -/
inductive Fault
  | invalid
  | bracket
  | openGroup
  | closeGroup
  | openCount
  | badCount
  | tooBig
  | repetition
  | range
  | className
  | collation
  | backslash
  | backReference
  | classPlacement
  deriving DecidableEq, Repr

/-- The wording of a fault. -/
def Fault.message : Fault → String
  | invalid => "Invalid regular expression"
  | bracket => "Unmatched [, [^, [:, [., or [="
  | openGroup => "Unmatched ( or \\("
  | closeGroup => "Unmatched ) or \\)"
  | openCount => "Unmatched \\\x7b"
  | badCount => "Invalid content of \\\x7b\\\x7d"
  | tooBig => "Regular expression too big"
  | repetition => "Invalid preceding regular expression"
  | range => "Invalid range end"
  | className => "Invalid character class name"
  | collation => "Invalid collation character"
  | backslash => "Trailing backslash"
  | backReference => "Invalid back reference"
  | classPlacement => "character class syntax is [[:space:]], not [:space:]"

/-- A pattern that was read. -/
structure Source where
  regex : Regex
  /-- How many groups it has. -/
  groups : Nat
  /-- What is strange about it. -/
  warnings : List String := []

/-! ## Brackets -/

/-- The characters of a named class. -/
def classRanges : String → List (Char × Char)
  | "alpha" => [('a', 'z'), ('A', 'Z')]
  | "digit" => [('0', '9')]
  | "alnum" => [('a', 'z'), ('A', 'Z'), ('0', '9')]
  | "upper" => [('A', 'Z')]
  | "lower" => [('a', 'z')]
  | "space" => [('\t', '\r'), (' ', ' ')]
  | "blank" => [('\t', '\t'), (' ', ' ')]
  | "punct" => [('!', '/'), (':', '@'), ('[', Char.ofNat 96), (Char.ofNat 123, '~')]
  | "print" => [(' ', '~')]
  | "graph" => [('!', '~')]
  | "cntrl" => [(Char.ofNat 0, Char.ofNat 31), (Char.ofNat 127, Char.ofNat 127)]
  | "xdigit" => [('0', '9'), ('a', 'f'), ('A', 'F')]
  | _ => []

/-- A part of a bracket expression. -/
inductive Element
  | single (c : Char)
  | ranges (ranges : List (Char × Char))

/-- The name in front of the mark and a bracket. -/
def untilMark (mark : Char) : List Char → Option (List Char × List Char)
  | [] => none
  | c :: rest =>
    if c = mark ∧ rest.head? = some ']' then some ([], rest.tail)
    else (untilMark mark rest).map fun (name, rest) => (c :: name, rest)

/-- Reads one part of a bracket expression. -/
def readElement : List Char → Except Fault (Element × List Char)
  | '[' :: mark :: rest =>
    if mark = ':' ∨ mark = '.' ∨ mark = '=' then
      match untilMark mark rest with
      | none => .error .bracket
      | some (name, rest) =>
        if mark = ':' then
          match classRanges (String.ofList name) with
          | [] => .error .className
          | ranges => .ok (.ranges ranges, rest)
        else
          match name with
          | [c] => .ok (if mark = '.' then .single c else .ranges [(c, c)], rest)
          | _ => .error .collation
    else .ok (.single '[', mark :: rest)
  | c :: rest => .ok (.single c, rest)
  | [] => .error .bracket

/-- Reads the parts of a bracket expression up to its end. `length` bounds
their number. -/
def readElements : (length : Nat) → (first : Bool) → List Char →
    Except Fault (List (Char × Char) × List Char)
  | 0, _, _ | _, _, [] => .error .bracket
  | length + 1, first, c :: rest => do
    if c = ']' ∧ !first then .ok ([], rest)
    else if c = '-' ∧ !first ∧ rest.head? ≠ some ']' then
      .error (if rest = [] then .bracket else .range)
    else
      let (element, rest) ← readElement (c :: rest)
      match element, rest with
      | .single low, '-' :: next :: behind =>
        if next = ']' then
          let (ranges, rest) ← readElements length false rest
          return ((low, low) :: ranges, rest)
        else
          match ← readElement (next :: behind) with
          | (.single high, rest) =>
            if high < low then .error .range
            else
              let (ranges, rest) ← readElements length false rest
              return ((low, high) :: ranges, rest)
          | (.ranges _, _) => .error .range
      | .single c, rest =>
        let (ranges, rest) ← readElements length false rest
        return ((c, c) :: ranges, rest)
      | .ranges named, rest =>
        let (ranges, rest) ← readElements length false rest
        return (named ++ ranges, rest)

/-- Whether a bracket expression looks like a class that lacks its second
pair of brackets. -/
def looksLikeClass (inside : List Char) : Bool :=
  inside.length > 1 && inside.head? = some ':' && inside.getLast? = some ':' &&
    (inside.drop 1).dropLast.all Char.isAlpha && inside.length > 2

/-- Reads a bracket expression behind its first bracket. -/
def readBracket (cs : List Char) : Except Fault (Regex × List Char) := do
  let (negated, body) : Bool × List Char := match cs with
    | '^' :: body => (true, body)
    | body => (false, body)
  if cs = [] then .error .invalid
  else
    let (ranges, rest) ← readElements (body.length + 1) true body
    if !negated && looksLikeClass (body.take (body.length - rest.length - 1)) then
      .error .classPlacement
    else return (.oneOf negated ranges, rest)

/-! ## Counts -/

/-- The greatest count of repetitions. -/
def maxCount : Nat := 32767

/-- The text of a bound up to a comma or the end of the count, and whether
that is the end. -/
def untilBound (extended : Bool) : List Char → Option (List Char × Bool × List Char)
  | [] => none
  | c :: rest =>
    let closes := if extended then c = Char.ofNat 125
      else c = '\\' && rest.head? = some (Char.ofNat 125)
    if closes then some ([], true, if extended then rest else rest.tail)
    else if c = ',' then some ([], false, rest)
    else (untilBound extended rest).map fun (text, last, rest) => (c :: text, last, rest)

/-- Reads a count of repetitions behind its brace. It is no count at all if
that is allowed and there is something else than numbers. -/
def readCount (d : Dialect) (cs : List Char) :
    Except Fault (Option (Nat × Option Nat × List Char)) :=
  let malformed (fault : Fault) : Except Fault (Option (Nat × Option Nat × List Char)) :=
    if d.extended ∧ !d.strict then .ok none else .error fault
  let check (least : Nat) (most : Option Nat) (rest : List Char) :
      Except Fault (Option (Nat × Option Nat × List Char)) :=
    if most.any (· < least) then .error .badCount
    else if maxCount < most.getD least then .error .tooBig
    else .ok (some (least, most, rest))
  match untilBound d.extended cs with
  | none => malformed .openCount
  | some ([], true, _) => .error .badCount
  | some (text, true, rest) =>
    if text.all Char.isDigit then check (natOfDigits text) (some (natOfDigits text)) rest
    else malformed .badCount
  | some (text, false, rest) =>
    if !text.all Char.isDigit then malformed .badCount
    else
      match untilBound d.extended rest with
      | none => malformed .openCount
      | some (text', last, rest) =>
        if !text'.all Char.isDigit then malformed .badCount
        else if !last then .error .badCount
        else check (natOfDigits text) (if text' = [] then none else some (natOfDigits text')) rest

/-! ## Pieces -/

/-- A piece of a pattern. -/
inductive Token
  | item (r : Regex)
  | boundary (b : Boundary)
  | openGroup
  | closeGroup
  | bar
  /-- A repetition, and how it is shown. -/
  | times (shown : String) (literal : Char) (least : Nat) (most : Option Nat)
  | back (number : Nat)

/-- The piece that stands for one of several characters, none of a negated
list. -/
def classItem (negated : Bool) (ranges : List (Char × Char)) : Token :=
  .item (.oneOf negated ranges)

/-- The characters of words. -/
def wordRanges : List (Char × Char) := ('_', '_') :: classRanges "alnum"

/-- What a character means behind a backslash, whatever the dialect. -/
def escaped? (c : Char) : Option Token :=
  match c with
  | '<' => some (.boundary .wordStart)
  | '>' => some (.boundary .wordEnd)
  | 'b' => some (.boundary .wordEdge)
  | 'B' => some (.boundary .noWordEdge)
  | '\'' => some (.boundary .textEnd)
  | 'w' => some (classItem false wordRanges)
  | 'W' => some (classItem true wordRanges)
  | 's' => some (classItem false (classRanges "space"))
  | 'S' => some (classItem true (classRanges "space"))
  | c =>
    if c = Char.ofNat 96 then some (.boundary .textStart)
    else if '1' ≤ c ∧ c ≤ '9' then some (.back (c.toNat - 48))
    else none

/-- What a character means if it has the meaning that dialects differ in. -/
def active? (d : Dialect) (c : Char) (rest : List Char) :
    Except Fault (Option (Token × List Char)) :=
  match c with
  | '(' => .ok (some (.openGroup, rest))
  | ')' => .ok (some (.closeGroup, rest))
  | '|' => .ok (some (.bar, rest))
  | '+' => .ok (some (.times "+" '+' 1 none, rest))
  | '?' => .ok (some (.times "?" '?' 0 (some 1), rest))
  | c =>
    if c = Char.ofNat 123 then do
      match ← readCount d rest with
      | some (least, most, rest) =>
        let shown := String.ofList [Char.ofNat 123, '.', '.', '.', Char.ofNat 125]
        return some (.times shown c least most, rest)
      | none => return none
    else .ok none

/-- Whether a dollar sign in front of `rest` is the end of a line. -/
def endsHere (d : Dialect) (rest : List Char) : Bool :=
  d.extended || match rest with
    | [] | '\\' :: ')' :: _ | '\\' :: '|' :: _ => true
    | _ => false

/-- Reads one piece. In basic patterns a circumflex is the start of a line
only where an alternative is `fresh`, and a brace behind nothing that can be
`repeatable` may stand for itself. -/
def readToken (d : Dialect) (fresh repeatable : Bool) :
    List Char → Except Fault (Token × List Char)
  | [] => .error .invalid
  | '\\' :: rest =>
    match rest with
    | [] => .error .backslash
    | c :: rest => do
      let literal := d.extended || (c = Char.ofNat 123 && !repeatable && !d.strict)
      match ← if literal then .ok none else active? d c rest with
      | some result => return result
      | none => return ((escaped? c).getD (.item (.char c)), rest)
  | '.' :: rest => .ok (.item .any, rest)
  | '*' :: rest => .ok (.times "*" '*' 0 none, rest)
  | '[' :: rest => do
    let (r, rest) ← readBracket rest
    return (.item r, rest)
  | '^' :: rest =>
    .ok (if d.extended || fresh then .boundary .lineStart else .item (.char '^'), rest)
  | '$' :: rest =>
    .ok (if endsHere d rest then .boundary .lineEnd else .item (.char '$'), rest)
  | c :: rest => do
    if d.extended && d.strict && !repeatable && c = Char.ofNat 123 then .error .repetition
    match ← if d.extended then active? d c rest else .ok none with
    | some result => return result
    | none => return (.item (.char c), rest)

/-! ## Whole patterns -/

/-- What was read of a group: finished alternatives, the sequence that was
begun, and its last item, which a repetition applies to. -/
structure Draft where
  alternatives : Option Regex := none
  sequence : Regex := .empty
  last : Option Regex := none
  /-- Nothing was read of the alternative. -/
  fresh : Bool := true
  /-- The last item is a repetition. -/
  isRepeated : Bool := false

namespace Draft

/-- The sequence with its last item. -/
def sequenced (d : Draft) : Regex :=
  match d.last with
  | none => d.sequence
  | some last => .cat d.sequence last

/-- Adds an item. -/
def push (d : Draft) (r : Regex) : Draft :=
  { d with sequence := d.sequenced, last := some r, fresh := false, isRepeated := false }

/-- Adds a condition, which can not be repeated. -/
def pushBoundary (d : Draft) (b : Boundary) : Draft :=
  { d with sequence := .cat d.sequenced (.boundary b), last := none, fresh := false
           isRepeated := false }

/-- The pattern that was read. -/
def finish (d : Draft) : Regex :=
  match d.alternatives with
  | none => d.sequenced
  | some left => .or left d.sequenced

end Draft

/-- How far reading has come. -/
structure State where
  draft : Draft := {}
  /-- The groups that are open, the innermost first. -/
  stack : List (Nat × Draft) := []
  groups : Nat := 0
  /-- The groups that are closed. -/
  closed : List Nat := []
  warnings : List String := []

/-- Takes up a piece. -/
def State.take (d : Dialect) (s : State) : Token → Except Fault State
  | .item r => .ok { s with draft := s.draft.push r }
  | .boundary b => .ok { s with draft := s.draft.pushBoundary b }
  | .openGroup =>
    .ok { s with draft := {}, stack := (s.groups + 1, s.draft) :: s.stack
                 groups := s.groups + 1 }
  | .closeGroup =>
    match s.stack with
    | (number, outer) :: stack =>
      .ok { s with draft := outer.push (.group number s.draft.finish), stack
                   closed := number :: s.closed }
    | [] =>
      if d.extended ∧ !d.strict then .ok { s with draft := s.draft.push (.char ')') }
      else .error .closeGroup
  | .bar => .ok { s with draft := { alternatives := some s.draft.finish } }
  | .back number =>
    if s.closed.contains number then .ok { s with draft := s.draft.push (.back number) }
    else .error .backReference
  | .times shown literal least most =>
    match s.draft.last with
    | some last =>
      if d.strict ∧ !d.extended ∧ s.draft.isRepeated ∧ (literal = '*' ∨ literal = Char.ofNat 123)
      then .error .repetition
      else
        .ok { s with draft := { s.draft with last := some (.repeated last least most)
                                             isRepeated := true } }
    | none =>
      if d.extended then
        if d.strict then .error .repetition
        else .ok { s with warnings := s.warnings ++ [shown ++ " at start of expression"] }
      else if d.strict ∧ literal = Char.ofNat 123 then .error .repetition
      else .ok { s with draft := s.draft.push (.char literal) }

/-- Reads pieces up to the end; `length` bounds their number. -/
def State.run (d : Dialect) : (length : Nat) → State → List Char → Except Fault State
  | 0, s, _ | _, s, [] => .ok s
  | length + 1, s, cs => do
    let (token, rest) ← readToken d s.draft.fresh s.draft.last.isSome cs
    run d length (← s.take d token) rest

/-- The pattern that a text denotes. -/
def read (d : Dialect) (text : String) : Except Fault Source := do
  let s ← State.run d (text.length + 1) {} text.toList
  if s.stack ≠ [] then .error .openGroup
  else return { regex := s.draft.finish, groups := s.groups, warnings := s.warnings }

end JobShell.Text.Regex
