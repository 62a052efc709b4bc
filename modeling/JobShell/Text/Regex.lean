/-!
# Patterns

Regular expressions, and where they match in a text. `Regex.reach` computes
the places where matches from given places end, all at once; so the longest
match is known before anything is said about its groups. `Regex.trace` then
follows one way through the pattern to that place, long repetitions and
alternatives further to the left first, and notes the groups.
-/

namespace JobShell.Text

/-- A condition on a place between characters. -/
inductive Boundary
  | lineStart
  | lineEnd
  | textStart
  | textEnd
  | wordStart
  | wordEnd
  /-- Where a word starts or ends. -/
  | wordEdge
  | noWordEdge
  deriving DecidableEq, Repr

/-- What a pattern matches. -/
inductive Regex
  | empty
  | char (c : Char)
  | any
  | oneOf (negated : Bool) (ranges : List (Char × Char))
  | boundary (b : Boundary)
  | group (number : Nat) (r : Regex)
  /-- The text of a group once more. -/
  | back (number : Nat)
  | cat (a b : Regex)
  | or (a b : Regex)
  | repeated (r : Regex) (least : Nat) (most : Option Nat)

/-- A text in which matches are looked for. -/
structure Subject where
  text : Array Char
  /-- Capital and small letters are the same. -/
  folded : Bool := false
  /-- Lines start and end inside of the text, too. -/
  manyLines : Bool := false

/-- A match, with the places where each group starts and ends. -/
structure Match where
  start : Nat
  finish : Nat
  groups : List (Nat × Nat × Nat) := []

namespace Subject

/-- Whether two characters are the same here. -/
def same (s : Subject) (a b : Char) : Bool :=
  a = b || (s.folded && a.toLower = b.toLower)

/-- Whether a character is in one of the ranges. -/
def isIn (s : Subject) (ranges : List (Char × Char)) (c : Char) : Bool :=
  let within (c : Char) : Bool := ranges.any fun (low, high) => low ≤ c && c ≤ high
  within c || (s.folded && (within c.toLower || within c.toUpper))

/-- Whether a character belongs to words. -/
def isWordChar (c : Char) : Bool := c.isAlphanum || c = '_'

/-- Whether a condition holds at a place. -/
def holdsAt (s : Subject) (b : Boundary) (place : Nat) : Bool :=
  let before : Option Char := if place = 0 then none else s.text[place - 1]?
  let behind : Option Char := s.text[place]?
  let inWord (c : Option Char) : Bool := c.any isWordChar
  match b with
  | .textStart => place = 0
  | .textEnd => place = s.text.size
  | .lineStart => place = 0 || (s.manyLines && before = some '\n')
  | .lineEnd => place = s.text.size || (s.manyLines && behind = some '\n')
  | .wordStart => !inWord before && inWord behind
  | .wordEnd => inWord before && !inWord behind
  | .wordEdge => inWord before != inWord behind
  | .noWordEdge => inWord before == inWord behind

/-- The characters between two places. -/
def slice (s : Subject) (start finish : Nat) : List Char := (s.text.extract start finish).toList

end Subject

namespace Regex

/-- The pattern that matches a text literally. -/
def literal (text : String) : Regex :=
  text.toList.foldl (fun r c => .cat r (.char c)) .empty

/-- Whether a pattern asks for the text of a group. -/
def hasBack : Regex → Bool
  | back _ => true
  | group _ r | repeated r _ _ => r.hasBack
  | cat a b | or a b => a.hasBack || b.hasBack
  | _ => false

/-- The pattern for texts of several lines: it only matches ends of lines
where it names them. -/
def withinLines : Regex → Regex
  | any => oneOf true [('\n', '\n')]
  | oneOf true ranges => oneOf true (('\n', '\n') :: ranges)
  | group number r => group number r.withinLines
  | cat a b => cat a.withinLines b.withinLines
  | or a b => or a.withinLines b.withinLines
  | repeated r least most => repeated r.withinLines least most
  | r => r

/-! ## Where matches end -/

/-- Joins ascending lists of places. -/
def mergePlaces : List Nat → List Nat → List Nat
  | [], bs => bs
  | as, [] => as
  | a :: as, b :: bs =>
    if a < b then a :: mergePlaces as (b :: bs)
    else if b < a then b :: mergePlaces (a :: as) bs
    else a :: mergePlaces as bs
termination_by as bs => as.length + bs.length

/-- The places of the first list that are not in the second; both ascend. -/
def newPlaces : List Nat → List Nat → List Nat
  | [], _ => []
  | as, [] => as
  | a :: as, b :: bs =>
    if a < b then a :: newPlaces as (b :: bs)
    else if b < a then newPlaces (a :: as) bs
    else newPlaces as bs
termination_by as bs => as.length + bs.length

/-- The places that at most `rounds` steps lead to. Only what was reached
last is looked at again. -/
def spread (step : List Nat → List Nat) : (rounds : Nat) → (seen last : List Nat) → List Nat
  | 0, seen, _ => seen
  | rounds + 1, seen, last =>
    match newPlaces (step last) seen with
    | [] => seen
    | fresh => spread step rounds (mergePlaces seen fresh) fresh

/-- Does a step `count` times, as long as there are places left. -/
def advance (step : List Nat → List Nat) : (count : Nat) → List Nat → List Nat
  | _, [] => []
  | 0, places => places
  | count + 1, places => advance step count (step places)

/-- The places, ascending, where matches end that start at one of `places`.
The text of a group is taken for any text. -/
def reach (s : Subject) : Regex → List Nat → List Nat
  | empty, places => places
  | char c, places => places.filterMap fun k =>
    (s.text[k]?).bind fun d => if s.same c d then some (k + 1) else none
  | any, places => places.filterMap fun k => (s.text[k]?).map fun _ => k + 1
  | oneOf negated ranges, places => places.filterMap fun k =>
    (s.text[k]?).bind fun d => if s.isIn ranges d != negated then some (k + 1) else none
  | boundary b, places => places.filter (s.holdsAt b)
  | group _ r, places => reach s r places
  | back _, places =>
    match places with
    | [] => []
    | k :: _ => List.range' k (s.text.size + 1 - k)
  | cat a b, places => reach s b (reach s a places)
  | or a b, places => mergePlaces (reach s a places) (reach s b places)
  | repeated r least most, places =>
    let start := advance (reach s r) least places
    spread (reach s r) ((most.map (· - least)).getD (s.text.size + 1)) start start

/-! ## Groups -/

/-- Follows a pattern from a place, and then goes on with `next`. `depth`
bounds how deep patterns and repetitions nest. -/
def trace (s : Subject) : (depth : Nat) → Regex → (place : Nat) → List (Nat × Nat × Nat) →
    (Nat → List (Nat × Nat × Nat) → Option α) → Option α
  | 0, _, _, _, _ => none
  | depth + 1, r, place, groups, next =>
    match r with
    | group number inner =>
      trace s depth inner place groups fun finish groups =>
        next finish ((number, place, finish) :: groups.filter (·.1 ≠ number))
    | back number =>
      match groups.lookup number with
      | none => none
      | some (start, finish) =>
        let length := finish - start
        let same := (s.slice start finish).zip (s.slice place (place + length))
        if place + length ≤ s.text.size ∧ same.all fun (a, b) => s.same a b then
          next (place + length) groups
        else none
    | cat a b =>
      trace s depth a place groups fun place groups => trace s depth b place groups next
    | or a b =>
      match trace s depth a place groups next with
      | some result => some result
      | none => trace s depth b place groups next
    | repeated inner least most =>
      let again :=
        if most = some 0 then none
        else
          trace s depth inner place groups fun finish groups =>
            if finish = place ∧ least = 0 then none
            else
              trace s depth (repeated inner (least - 1) (most.map (· - 1))) finish groups next
      match again with
      | some result => some result
      | none => if least = 0 then next place groups else none
    | single =>
      match reach s single [place] with
      | finish :: _ => next finish groups
      | [] => none

/-- How deep a pattern nests, with the repetitions it asks for. -/
def weight : Regex → Nat
  | group _ r => r.weight + 1
  | cat a b | or a b => a.weight + b.weight + 1
  | repeated r least _ => (r.weight + 1) * (least + 1) + 1
  | _ => 1

/-- The groups of the match between two places, if there is one. -/
def groupsBetween (r : Regex) (s : Subject) (start finish : Nat) :
    Option (List (Nat × Nat × Nat)) :=
  trace s ((r.weight + 2) * (s.text.size + 2)) r start [] fun place groups =>
    if place = finish then some groups else none

/-! ## Searching -/

/-- The places, ascending, where the matches end that start at a place. -/
def endsAt (r : Regex) (s : Subject) (start : Nat) : List Nat :=
  let ends := reach s r [start]
  if r.hasBack then ends.filter fun finish => (r.groupsBetween s start finish).isSome else ends

/-- The places from `from_` on where matches may start. -/
def starts (r : Regex) (s : Subject) (from_ : Nat) : List Nat :=
  let places := List.range' from_ (s.text.size + 1 - from_)
  if reach s r places = [] then [] else places

/-- The longest of the first matches that start at `from_` or later, without
its groups. -/
def find? (r : Regex) (s : Subject) (from_ : Nat) : Option Match :=
  (r.starts s from_).findSome? fun start =>
    (r.endsAt s start).getLast?.map fun finish => { start, finish }

/-- The longest of the first matches, with its groups. -/
def findGroups? (r : Regex) (s : Subject) (from_ : Nat) : Option Match :=
  (r.find? s from_).map fun m =>
    { m with groups := (r.groupsBetween s m.start m.finish).getD [] }

/-- Whether there is a match anywhere. -/
def isIn (r : Regex) (s : Subject) : Bool :=
  if r.hasBack then (r.find? s 0).isSome
  else reach s r (List.range (s.text.size + 1)) ≠ []

end Regex

end JobShell.Text
