import JobShell.Tool.Editing.Script
import JobShell.Tool.Quoted

/-!
# Passages

A passage is the text that is edited at a time: one line, or several that
were joined. Here is what edits do to it as far as that does not depend on
anything else.
-/

namespace JobShell.Tool.Editing

open Text (Regex Subject Match)

/-- A text that stands where lines are, and whether its last line has an end. -/
structure Passage where
  text : String := ""
  isEnded : Bool := true
  deriving DecidableEq, Repr

namespace Passage

/-- The first line, and what is behind it if there is more than one. -/
def firstLine (p : Passage) (newline : Char) : String × Option String :=
  match p.text.toList.span (· ≠ newline) with
  | (first, []) => (String.ofList first, none)
  | (first, _ :: rest) => (String.ofList first, some (String.ofList rest))

/-- A passage with another one behind it. -/
def append (p : Passage) (newline : Char) (q : Passage) : Passage :=
  { text := p.text ++ newline.toString ++ q.text, isEnded := p.isEnded || q.isEnded }

/-- A passage in which characters are replaced by others. -/
def translate (p : Passage) (table : List (Char × Char)) : Passage :=
  { p with text := p.text.map fun c => (table.lookup c).getD c }

end Passage

namespace Pattern

/-- A passage as a text in which matches are looked for. -/
def subject (p : Pattern) (text : String) : Subject :=
  { text := text.toList.toArray, folded := p.folded, manyLines := p.manyLines }

/-- Whether there is a match in a text. -/
def isIn (p : Pattern) (text : String) : Bool := p.regex.isIn (p.subject text)

end Pattern

/-! ## Replacing -/

/-- What becomes of the letters that come next. -/
structure Casing where
  all : LetterCase := .kept
  /-- What becomes of the first of them. -/
  first : Option LetterCase := none

/-- The text of a group of a match. -/
def groupText (s : Subject) (m : Match) (number : Nat) : List Char :=
  if number = 0 then s.slice m.start m.finish
  else
    match m.groups.lookup number with
    | some (start, finish) => s.slice start finish
    | none => []

/-- The text that takes the place of a match. -/
def replacementFor (s : Subject) (m : Match) : Casing → List Piece → List Char
  | _, [] => []
  | _, .letters c :: rest => replacementFor s m { all := c } rest
  | casing, .letter c :: rest => replacementFor s m { casing with first := some c } rest
  | casing, .char c :: rest =>
    (casing.first.getD casing.all).apply c :: replacementFor s m { all := casing.all } rest
  | casing, .group number :: rest =>
    match groupText s m number with
    | [] => replacementFor s m casing rest
    | c :: cs =>
      (casing.first.getD casing.all).apply c :: cs.map casing.all.apply ++
        replacementFor s m { all := casing.all } rest

/-- Replaces matches from `from_` on, of which `count` were seen before; the
last one ended at `lastEnd`. Right behind a match there is no empty one. The
flag says whether something was replaced. `length` bounds how many places
are left. -/
def Substitution.replaceFrom (sub : Substitution) (r : Regex) (s : Subject) :
    (length count from_ : Nat) → (lastEnd : Option Nat) → List Char × Bool
  | 0, _, from_, _ => (s.slice from_ s.text.size, false)
  | length + 1, count, from_, lastEnd =>
    match find from_ with
    | none => (s.slice from_ s.text.size, false)
    | some m =>
      let front := s.slice from_ m.start
      if m.start = m.finish ∧ lastEnd = some m.start then
        let (rest, any) := sub.replaceFrom r s length count (m.finish + 1) none
        (front ++ s.slice m.finish (m.finish + 1) ++ rest, any)
      else
        let replaces := sub.first ≤ count + 1
        let text :=
          if replaces then replacementFor s m {} sub.replacement else s.slice m.start m.finish
        if replaces ∧ !sub.everywhere then
          (front ++ text ++ s.slice m.finish s.text.size, true)
        else
          let isEmpty := m.start = m.finish
          let next := if isEmpty then m.finish + 1 else m.finish
          let (rest, any) :=
            if s.text.size < next then ([], false)
            else sub.replaceFrom r s length (count + 1) next (if isEmpty then none else some next)
          (front ++ text ++ s.slice m.finish next ++ rest, replaces || any)
where
  /-- The next match; its groups are only looked for if they are used. -/
  find (from_ : Nat) : Option Match :=
    let usesGroups := sub.replacement.any fun piece =>
      match piece with
      | .group number => number ≠ 0
      | _ => false
    if usesGroups then r.findGroups? s from_ else r.find? s from_

/-- A text in which matches are replaced, if there is one that is. -/
def Substitution.apply? (sub : Substitution) (p : Pattern) (text : String) : Option String :=
  let s := p.subject text
  match sub.replaceFrom p.regex s (s.text.size + 2) 0 0 none with
  | (text, true) => some (String.ofList text)
  | (_, false) => none

/-! ## Listing -/

/-- What stands for a character in a listing. -/
def listed (c : Char) : List Char :=
  if c = '\\' then ['\\', '\\'] else (Quoted.escape? c).getD [c]

/-- Breaks a listing into lines of less than `width` characters, with a
backslash at the end of all but the last; `used` characters are on the line. -/
def breakListing (width : Nat) : (used : Nat) → List (List Char) → List Char
  | _, [] => []
  | used, piece :: rest =>
    if width ≠ 0 ∧ width - 1 < used + piece.length then
      '\\' :: '\n' :: piece ++ breakListing width piece.length rest
    else piece ++ breakListing width (used + piece.length) rest

/-- A text in a form that shows what can not be seen; with `width` zero on
one line. -/
def listing (width : Nat) (text : String) : String :=
  String.ofList (breakListing width 0 (text.toList.map listed) ++ ['$'])

end JobShell.Tool.Editing
