import JobShell.Text.Regex

/-!
# Editing scripts

What `sed` does is told by a script: edits, one after the other, each for the
lines that its selector picks. A pattern that is left out is the one that was
used last, so scripts do not tell everything about their patterns.
-/

namespace JobShell.Tool.Editing

open Text (Regex)

/-- A pattern with the way it is matched. -/
structure Pattern where
  regex : Regex
  folded : Bool := false
  /-- Lines start and end inside of the text, too. -/
  manyLines : Bool := false

/-- A way to point at lines. -/
inductive Address
  | line (n : Nat)
  /-- Every so many lines, beginning with one. -/
  | every (first step : Nat)
  | last
  /-- The lines that a pattern is in. -/
  | matching (p : Option Pattern)

/-- Where a range of lines ends. -/
inductive RangeEnd
  | address (a : Address)
  /-- So many lines behind the first. -/
  | after (count : Nat)
  /-- At the next line whose number is a multiple. -/
  | multiple (n : Nat)

/-- The lines that an edit is for. -/
inductive Selector
  | all
  | only (a : Address)
  | range (first : Address) (finish : RangeEnd)

/-- What becomes of letters. -/
inductive LetterCase
  | kept
  | upper
  | lower
  deriving DecidableEq, Repr

/-- A letter in its case. -/
def LetterCase.apply : LetterCase → Char → Char
  | kept, c => c
  | upper, c => c.toUpper
  | lower, c => c.toLower

/-- A piece of a replacement. -/
inductive Piece
  | char (c : Char)
  /-- The text of a group; that with number zero is the match. -/
  | group (number : Nat)
  /-- What becomes of all letters from here on. -/
  | letters (letterCase : LetterCase)
  /-- What becomes of the next letter. -/
  | letter (letterCase : LetterCase)
  deriving Repr

/-- Matches are replaced. -/
structure Substitution where
  pattern : Option Pattern
  replacement : List Piece
  /-- The number of the first match that is replaced. -/
  first : Nat := 1
  everywhere : Bool := false
  prints : Bool := false
  /-- The result is a command; its output takes the place of the text. -/
  runs : Bool := false
  /-- A file that the result is written to. -/
  file : Option String := none

/-- When a jump is made. -/
inductive JumpCondition
  | always
  /-- Something was replaced since a line was read or a jump asked for it. -/
  | replaced
  | notReplaced
  deriving DecidableEq, Repr

/-- What is done to a line. The text that is edited is called the line here,
though it can consist of several. Besides there is a kept text. -/
inductive Edit
  | openBlock
  | closeBlock
  | label (name : String)
  | jump (condition : JumpCondition) (label : String)
  | showNumber
  | showName
  /-- Prints a text behind the line. -/
  | append (text : String)
  /-- Prints a text in front of the line. -/
  | insert (text : String)
  /-- Prints a text instead of the line. -/
  | change (text : String)
  | insertFile (name : String)
  /-- Prints the next line of a file behind the line. -/
  | insertLine (name : String)
  /-- Runs a command, or the line if there is none. -/
  | run (command : Option String)
  | delete
  | deleteFirst
  | print
  | printFirst
  | write (file : String)
  | writeFirst (file : String)
  /-- Shows the line unambiguously, in lines of limited length. -/
  | list (width : Option Nat)
  | fetch
  | fetchMore
  | keep
  | keepMore
  | exchange
  | clear
  | next
  | nextMore
  | quit (prints : Bool) (status : Nat)
  | substitute (s : Substitution)
  | translate (table : List (Char × Char))

/-- A step of a script. -/
structure Step where
  selector : Selector := .all
  /-- The edit is for all other lines. -/
  negated : Bool := false
  edit : Edit

/-- The steps behind the end of the block that was opened in front of them.
`depth` blocks inside of it are open. -/
def skipBlock : (depth : Nat) → List (Nat × Step) → List (Nat × Step)
  | _, [] => []
  | depth, (_, step) :: rest =>
    match step.edit, depth with
    | .openBlock, depth => skipBlock (depth + 1) rest
    | .closeBlock, 0 => rest
    | .closeBlock, depth + 1 => skipBlock depth rest
    | _, depth => skipBlock depth rest

/-- The steps behind a label; an empty one is the end of the script. -/
def behindLabel? (name : String) (steps : List (Nat × Step)) : Option (List (Nat × Step)) :=
  if name = "" then some []
  else
    let isHere : Nat × Step → Bool := fun (_, step) =>
      match step.edit with
      | .label here => here = name
      | _ => false
    match steps.dropWhile fun step => !isHere step with
    | [] => none
    | _ :: rest => some rest

/-- A label that is jumped to and is nowhere. -/
def missingLabel? (steps : List (Nat × Step)) : Option String :=
  steps.findSome? fun (_, step) =>
    match step.edit with
    | .jump _ name => if (behindLabel? name steps).isNone then some name else none
    | _ => none

/-- The files that a script writes to. -/
def outputFiles (steps : List Step) : List String :=
  steps.filterMap fun step =>
    match step.edit with
    | .write file | .writeFirst file => some file
    | .substitute s => s.file
    | _ => none

end JobShell.Tool.Editing
