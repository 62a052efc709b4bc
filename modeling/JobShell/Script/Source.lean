import JobShell.Script.Syntax

/-!
# Scripts that are being read

`Read` reads a script from left to right. It knows the number of the current
line for messages, a token that was looked at and given back, and the
documents that were asked for on the current line: their text begins on the
next one. A script may be known only up to some point; reading stops there,
and begins again when more is known.
-/

namespace JobShell.Script

/-- A document whose text is not reached yet. -/
structure PendingDocument where
  number : Nat
  /-- The line that ends it. -/
  delimiter : String
  /-- Nothing in it is expanded. -/
  verbatim : Bool
  /-- Its lines lose their leading tabs. -/
  strip : Bool

/-- What is left of a script. -/
structure Source where
  rest : List Char
  /-- Nothing follows. Otherwise it is not known yet what follows. -/
  whole : Bool := true
  line : Nat := 1
  /-- A token that was given back. -/
  given : Option Token := none
  pending : List PendingDocument := []
  /-- How many documents were asked for so far. -/
  asked : Nat := 0
  /-- The documents that were read, by their numbers. -/
  documents : List (Nat × Word) := []
  /-- The abbreviations of commands. -/
  aliases : List (String × String) := []
  /-- The abbreviations whose text is being read, with how much of the script
  is left behind that text. -/
  expanded : List (String × Nat) := []

/-- Why reading stops. -/
inductive Halt
  | fault (line : Nat) (fault : Fault)
  /-- What follows has to be known. -/
  | unfinished

/-- A part of reading a script. -/
abbrev Read := StateT Source (Except Halt)

namespace Read

/-- Stops reading because of a fault. -/
def fail (fault : Fault) : Read α := do throw (.fault (← get).line fault)

/-- Goes on behind the last known character only if nothing follows. -/
def atEnd : Read Unit := do
  if !(← get).whole then throw .unfinished

/-- A token stands where it may not. -/
def unexpected (token : Token) (expected : Option Token := none) : Read α :=
  fail (.unexpected token expected)

/-! ## Characters -/

/-- Leaves out the next character. -/
def skip : Read Unit := modify fun s =>
  match s.rest with
  | [] => s
  | c :: rest => { s with rest, line := if c = '\n' then s.line + 1 else s.line }

/-- Leaves out the ends of lines that are joined with the next one. -/
def joinLines : List Char → Nat → List Char × Nat
  | '\\' :: '\n' :: rest, line => joinLines rest (line + 1)
  | cs, line => (cs, line)

/-- The next character as it stands there. -/
def peek : Read (Option Char) := do
  match (← get).rest with
  | [] =>
    atEnd
    return none
  | c :: _ => return some c

/-- The next character; lines that end in a backslash are joined. -/
def look : Read (Option Char) := do
  let s ← get
  let (rest, line) := joinLines s.rest s.line
  if rest = ['\\'] then atEnd
  set { s with rest, line }
  peek

/-- Whether the next character is `c`; it is left out then. -/
def accept (c : Char) : Read Bool := do
  if (← look) = some c then
    skip
    return true
  else return false

/-- The next characters as long as they satisfy `p`, at most `count`. -/
def takeWhile (p : Char → Bool) : (count : Nat) → Read (List Char)
  | 0 => return []
  | count + 1 => do
    match ← look with
    | none => return []
    | some c =>
      if p c then
        skip
        return c :: (← takeWhile p count)
      else return []

/-- How many characters are left. -/
def remaining : Read Nat := do return (← get).rest.length

/-- Leaves out blanks and a comment. -/
def skipBlanks : (count : Nat) → Read Unit
  | 0 => return ()
  | count + 1 => do
    match ← look with
    | some c =>
      if c = ' ' ∨ c = '\t' then
        skip
        skipBlanks count
      else if c = '#' then modify fun s => { s with rest := s.rest.dropWhile (· ≠ '\n') }
      else return ()
    | none => return ()

/-- The text up to a quote; lines are not joined in it. -/
def singleQuoted : Read (List Char) := do
  let s ← get
  let (text, rest) := s.rest.span (· ≠ '\'')
  set { s with rest, line := s.line + text.count '\n' }
  if rest = [] then
    atEnd
    fail .unterminatedQuote
  else
    skip
    return text

/-- The script up to the mark that ends it. Backslashes in front of `marks`
protect them and are left out. -/
def markedScript (mark : Char) (marks : List Char) : (count : Nat) → Read (List Char)
  | 0 => fail .unterminatedOutput
  | count + 1 => do
    match ← look with
    | none => fail .unterminatedOutput
    | some c => do
      skip
      if c = mark then return []
      else if c ≠ '\\' then return c :: (← markedScript mark marks count)
      else
        match ← look with
        | none => fail .unterminatedOutput
        | some e => do
          skip
          let rest ← markedScript mark marks count
          return if marks.contains e then e :: rest else '\\' :: e :: rest

/-! ## Tokens given back -/

/-- Gives a token back, to be read again. -/
def giveBack (token : Token) : Read Unit := modify fun s => { s with given := some token }

/-- The token that was given back. -/
def takeGiven : Read (Option Token) := do
  let s ← get
  set { s with given := none }
  return s.given

/-! ## Abbreviations -/

/-- Puts the text of an abbreviation in its place, if the word is one. An
abbreviation is not replaced in its own text. -/
def expandAlias (w : Word) : Read Bool := do
  let s ← get
  let left := s.rest.length
  let expanded := s.expanded.filter fun (_, behind) => behind ≤ left
  match w.plainText?.bind fun name => (s.aliases.lookup name).map fun text => (name, text) with
  | none => return false
  | some (name, text) =>
    if expanded.any (·.1 = name) then return false
    else
      set { s with rest := text.toList ++ s.rest, expanded := (name, left) :: expanded }
      return true

/-! ## Documents -/

/-- Asks for a document; its number. -/
def askDocument (delimiter : String) (verbatim strip : Bool) : Read Nat := do
  let s ← get
  let document : PendingDocument := { number := s.asked, delimiter, verbatim, strip }
  set { s with asked := s.asked + 1, pending := s.pending ++ [document] }
  return s.asked

/-- The document that comes next. -/
def nextDocument : Read (Option PendingDocument) := do
  let s ← get
  match s.pending with
  | [] => return none
  | document :: pending =>
    set { s with pending }
    return some document

/-- Keeps the text of a document. -/
def keepDocument (number : Nat) (text : Word) : Read Unit :=
  modify fun s => { s with documents := (number, text) :: s.documents }

/-- Leaves out the tabs that a line of a document loses. -/
def stripTabs (d : PendingDocument) : Read Unit := do
  if d.strip then modify fun s => { s with rest := s.rest.dropWhile (· = '\t') }

/-- Whether a document ends here, at the beginning of a line. The line that
ends it is left out then. -/
def atDocumentEnd (d : PendingDocument) : Read Bool := do
  let s ← get
  let line := s.rest.takeWhile (· ≠ '\n')
  if line.length = s.rest.length then atEnd
  if s.rest = [] then return true
  else if line = d.delimiter.toList then
    let rest := s.rest.drop (line.length + 1)
    set { s with rest, line := s.line + 1 }
    return true
  else return false

/-- The lines of a document in which nothing is expanded. -/
def verbatimDocument (d : PendingDocument) : (lines : Nat) → Read (List Char)
  | 0 => return []
  | lines + 1 => do
    stripTabs d
    if ← atDocumentEnd d then return []
    else
      let s ← get
      let (text, rest) := s.rest.span (· ≠ '\n')
      set { s with rest }
      let ended := rest ≠ []
      skip
      return text ++ (if ended then ['\n'] else []) ++ (← verbatimDocument d lines)

end Read

end JobShell.Script
