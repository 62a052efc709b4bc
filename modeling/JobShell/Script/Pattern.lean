import JobShell.Text.Bytes

/-!
# Patterns for names

Patterns with `*`, `?` and `[...]`. Every character of a pattern knows
whether it is active; one that was quoted stands for itself.
-/

namespace JobShell.Script

/-- A character of a pattern, and whether it may have a special meaning. -/
abbrev PatternChar := Char × Bool

/-- A pattern. -/
abbrev Pattern := List PatternChar

namespace Pattern

/-- The pattern of a text, all of it active or none. -/
def ofText (text : String) (active : Bool) : Pattern := text.toList.map fun c => (c, active)

/-- The text of a pattern. -/
def text (p : Pattern) : String := String.ofList (p.map (·.1))

/-- Whether a pattern may match anything but its own text. -/
def isProper (p : Pattern) : Bool :=
  p.any fun (c, active) => active && (c = '*' || c = '?' || c = '[')

/-- The items of a bracket expression and what follows it. -/
def bracket (first : Bool) (p : Pattern) : Option (List (Char × Char) × Pattern) :=
  match _h : p with
  | [] => none
  | (c, active) :: ('-', true) :: (high, highActive) :: more =>
    if c = ']' ∧ active ∧ first = false then some ([], ('-', true) :: (high, highActive) :: more)
    else if high = ']' ∧ highActive then
      (bracket false (('-', true) :: (high, highActive) :: more)).map fun (ranges, left) =>
        ((c, c) :: ranges, left)
    else (bracket false more).map fun (ranges, left) => ((c, high) :: ranges, left)
  | (c, active) :: rest =>
    if c = ']' ∧ active ∧ first = false then some ([], rest)
    else (bracket false rest).map fun (ranges, left) => ((c, c) :: ranges, left)
termination_by p.length

/-- Whether a pattern matches a text. -/
def isMatch : Pattern → List Char → Bool
  | [], cs => cs.isEmpty
  | (c, active) :: rest, cs =>
    if active ∧ c = '*' then
      isMatch rest cs || match cs with
        | [] => false
        | _ :: more => isMatch ((c, active) :: rest) more
    else
      match cs with
      | [] => false
      | d :: more =>
        if active ∧ c = '?' then isMatch rest more
        else if active ∧ c = '[' then
          let (negated, body) : Bool × Pattern := match rest with
            | ('!', true) :: body | ('^', true) :: body => (true, body)
            | body => (false, body)
          match bracket true body with
          | some (ranges, left) =>
            (ranges.any fun (low, high) => low ≤ d && d ≤ high) != negated && isMatch left more
          | none => c = d && isMatch rest more
        else c = d && isMatch rest more
termination_by p cs => (cs.length, p.length)

/-- The shortest or the longest beginning of a text that a pattern matches:
the rest behind it. -/
def dropMatchingPrefix (p : Pattern) (longest : Bool) (text : String) : String :=
  let cs := text.toList
  let lengths := List.range (cs.length + 1)
  let lengths := if longest then lengths.reverse else lengths
  match lengths.find? fun n => p.isMatch (cs.take n) with
  | some n => String.ofList (cs.drop n)
  | none => text

/-- The shortest or the longest end of a text that a pattern matches: the
part in front of it. -/
def dropMatchingSuffix (p : Pattern) (longest : Bool) (text : String) : String :=
  let cs := text.toList
  let lengths := List.range (cs.length + 1)
  let lengths := if longest then lengths else lengths.reverse
  match lengths.find? fun n => p.isMatch (cs.drop n) with
  | some n => String.ofList (cs.take n)
  | none => text

end Pattern

end JobShell.Script
