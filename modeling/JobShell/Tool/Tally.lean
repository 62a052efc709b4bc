import JobShell.Tool.Basic

/-!
# Counts

`wc` counts the lines, words and bytes of its inputs, and measures their
longest lines.
-/

namespace JobShell.Tool

open Machine (Action)

/-- What is counted. -/
structure Tally where
  lines : Nat := 0
  words : Nat := 0
  bytes : Nat := 0
  /-- The width of the longest line. -/
  longest : Nat := 0

namespace Tally

/-- The counts of two inputs together. -/
def add (a b : Tally) : Tally :=
  ⟨a.lines + b.lines, a.words + b.words, a.bytes + b.bytes, max a.longest b.longest⟩

/-- Counts in the middle of an input. -/
structure Progress where
  tally : Tally := {}
  /-- Whether a word was begun. -/
  inWord : Bool := false
  /-- The width of the line so far. -/
  width : Nat := 0

namespace Progress

/-- The end of a word, if one was begun. -/
def endWord (p : Progress) : Progress :=
  { p with tally.words := p.tally.words + (if p.inWord then 1 else 0), inWord := false }

/-- The end of a line, or a way back to its beginning. -/
def endLine (p : Progress) : Progress :=
  { p with tally.longest := max p.tally.longest p.width, width := 0 }

/-- Counts one byte. What can not be printed has no width, begins no word
and ends none. -/
def count (p : Progress) (b : UInt8) : Progress :=
  let p := { p with tally.bytes := p.tally.bytes + 1 }
  match b with
  | 10 =>
    let p := p.endLine.endWord
    { p with tally.lines := p.tally.lines + 1 }
  | 12 | 13 => p.endLine.endWord
  | 9 => { p with width := p.width + 8 - p.width % 8 }.endWord
  | 32 => { p with width := p.width + 1 }.endWord
  | 11 => p.endWord
  | b => if 32 < b && b < 127 then { p with width := p.width + 1, inWord := true } else p

/-- The counts at the end of an input. -/
def finish (p : Progress) : Tally := p.endLine.endWord.tally

end Progress

/-- When the sum of all counts is shown. -/
inductive Total
  | usual
  | always
  | only
  | never
  deriving DecidableEq

end Tally

/-- The columns that options ask for, in the order they are shown. -/
def tallyColumns (options : List GivenOption) : List (Tally → Nat) :=
  let chosen := [('l', Tally.lines), ('w', Tally.words), ('m', Tally.bytes), ('c', Tally.bytes),
    ('L', Tally.longest)].filter fun (c, _) => hasOption options c
  if chosen = [] then [Tally.lines, Tally.words, Tally.bytes] else chosen.map (·.2)

/-- The width of the columns: that of the size of all regular files, and at
least seven if there is anything else. -/
def tallyWidth (inputs : List String) : Action Nat := do
  let rec go (size least : Nat) : List String → Action Nat
    | [] => return max least (toString size).length
    | input :: rest => do
      let facts ← if input = "-" then Action.factsOf 0 else Action.facts (.ofOctets input)
      match facts with
      | .error _ => go size least rest
      | .ok facts =>
        if facts.kind = .regular then go (size + facts.size) least rest
        else go size 7 rest
  go 0 1 inputs

/-- Counts lines, words and bytes. -/
def wc (i : Invocation) : Action Unit := do
  let (options, operands) ← i.options
    { flags := "lwcmL", longValued := "T",
      long := [("lines", 'l'), ("words", 'w'), ("bytes", 'c'), ("chars", 'm'),
        ("max-line-length", 'L'), ("total", 'T')] }
  let total ← match optionValue? options 'T' with
    | none => pure Tally.Total.usual
    | some text =>
      chooseFrom i "total" text
        [("auto", .usual), ("always", .always), ("only", .only), ("never", .never)]
  let columns := tallyColumns options
  let inputs := if operands = [] then ["-"] else operands
  let width ←
    if total = .only || (columns.length = 1 && inputs.length = 1) then pure 1
    else tallyWidth inputs
  let present (tally : Tally) (label : String) : Action Unit :=
    let numbers := columns.map fun column =>
      let digits := toString (column tally)
      "".pushn ' ' (width - digits.length) ++ digits
    say i.name (" ".intercalate numbers ++ label ++ "\n")
  let rec go (status : Nat) (sum : Tally) : List String → Action (Nat × Tally)
    | [] => return (status, sum)
    | input :: rest => do
      if input = "" then
        complainAs i.name "invalid zero-length file name"
        go 1 sum rest
      else
        match ← openInput input with
        | .error cause => complainAbout i input cause; go 1 sum rest
        | .ok fd => do
          let named := if operands = [] then "" else " " ++ Quoted.ifBroken input
          let (tally, cause?) ← count fd
          closeInput fd
          if let some cause := cause? then
            complainAbout i (if operands = [] then "standard input" else input) cause
          if total ≠ .only then present tally named
          go (if cause?.isSome then 1 else status) (sum.add tally) rest
  let (status, sum) ← go 0 {} inputs
  match total with
  | .usual => if inputs.length > 1 then present sum " total"
  | .always => present sum " total"
  | .only => present sum ""
  | .never => pure ()
  Action.exit status
where
  /-- The counts of an input, and why it could not be read, if so. -/
  count (fd : Fd) : Action (Tally × Option OsError) := do
    let start : Tally.Progress := {}
    match ← Action.foldBlocks fd (fun (p : Tally.Progress) block =>
        return (block.foldl Tally.Progress.count p, true)) start with
    | .ok p => return (p.finish, none)
    | .error cause => return ({}, some cause)

end JobShell.Tool
