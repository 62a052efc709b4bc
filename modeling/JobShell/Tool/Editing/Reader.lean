import JobShell.Text.Regex.Reader
import JobShell.Tool.Editing.Script
import JobShell.Tool.Format

/-!
# Reading editing scripts

A script comes in parts, each with an origin: arguments and files. Blocks may
be opened in one part and closed in another, and a text may go on in the next
part; a `Draft` is what was read up to now. A fault is reported with the
place up to which its part was read.
-/

namespace JobShell.Tool.Editing

open Text (Regex natOfDigits)

/-- How scripts are understood. -/
structure Dialect where
  /-- Patterns are extended ones. -/
  extended : Bool := false
  /-- Scripts can not get at files and commands. -/
  confined : Bool := false
  deriving Repr

/-- Why a text is no script. -/
inductive Fault
  | missingCommand
  | unknownCommand (c : Char)
  | junk
  | comma
  | stepFirst
  | lineZero
  | bangs
  | addressedComment
  | addressedLabel
  | addressedBrace
  | oneAddress
  | closedBrace
  | openBrace
  | noLabel
  | noText
  | noFile
  | openAddress
  | openSubstitution
  | openTranslation
  | lengths
  | flag
  | flagTwice (name : String)
  | flagZero
  | emptyModified
  | reference (number : Nat)
  | noPattern
  | version
  | confined
  | pattern (fault : Regex.Fault)
  deriving DecidableEq, Repr

/-- A name as messages of this tool quote it. -/
def quoted (text : String) : String := (Char.ofNat 96).toString ++ text ++ "'"

/-- The wording of a fault. -/
def Fault.message : Fault → String
  | missingCommand => "missing command"
  | unknownCommand c => "unknown command: " ++ quoted c.toString
  | junk => "extra characters after command"
  | comma => "unexpected " ++ quoted ","
  | stepFirst => "invalid usage of +N or ~N as first address"
  | lineZero => "invalid usage of line address 0"
  | bangs => "multiple " ++ quoted "!" ++ "s"
  | addressedComment => "comments don't accept any addresses"
  | addressedLabel => ": doesn't want any addresses"
  | addressedBrace => quoted "\x7d" ++ " doesn't want any addresses"
  | oneAddress => "command only uses one address"
  | closedBrace => "unexpected " ++ quoted "\x7d"
  | openBrace => "unmatched " ++ quoted "\x7b"
  | noLabel => "\":\" lacks a label"
  | noText => "expected \\ after " ++ quoted "a" ++ ", " ++ quoted "c" ++ " or " ++ quoted "i"
  | noFile => "missing filename in r/R/w/W commands"
  | openAddress => "unterminated address regex"
  | openSubstitution => "unterminated " ++ quoted "s" ++ " command"
  | openTranslation => "unterminated " ++ quoted "y" ++ " command"
  | lengths => "strings for " ++ quoted "y" ++ " command are different lengths"
  | flag => "unknown option to " ++ quoted "s"
  | flagTwice name => "multiple " ++ name ++ " options to " ++ quoted "s" ++ " command"
  | flagZero => "number option to " ++ quoted "s" ++ " command may not be zero"
  | emptyModified => "cannot specify modifiers on empty regexp"
  | reference number => s!"invalid reference \\{number} on " ++ quoted "s" ++ " command's RHS"
  | noPattern => "no previous regular expression"
  | version => "expected newer version of sed"
  | confined => "e/r/w commands disabled in sandbox mode"
  | pattern fault => fault.message

/-! ## Reading characters -/

/-- A fault with what was not read when it was found. -/
structure Failure where
  fault : Fault
  rest : List Char

/-- Reads something from the beginning of a text. -/
abbrev Reading := StateT (List Char) (Except Failure)

namespace Reading

/-- Reports a fault here. -/
def fail (fault : Fault) : Reading α := fun rest => .error { fault, rest }

/-- The next character. -/
def next? : Reading (Option Char) := fun cs => .ok (cs.head?, cs.tail)

/-- Reports a fault behind the next character. -/
def refuse (fault : Fault) : Reading α := do
  let _ ← next?
  fail fault

/-- Whether a character separates the parts of a command. -/
def isBlank (c : Char) : Bool := c = ' ' || c = '\t'

/-- Whether a character separates commands, or may stand between them. -/
def isSpace (c : Char) : Bool := c = ' ' || ('\t' ≤ c && c ≤ '\r')

/-- Skips characters. -/
def skip (p : Char → Bool) : Reading Unit := modify fun cs => cs.dropWhile p

/-- The next character that is no blank. It is not read. -/
def peek? : Reading (Option Char) := do
  skip isBlank
  return (← get).head?

/-- The characters at the beginning with a property. -/
def span (p : Char → Bool) : Reading (List Char) := fun cs => .ok (cs.span p)

/-- A number; no digits at all are zero. -/
def number : Reading Nat := return natOfDigits (← span Char.isDigit)

/-- What is left of a line. -/
def restOfLine : Reading (List Char) := do
  let line ← span (· ≠ '\n')
  let _ ← next?
  return line

/-- Nothing more but the end of the command. -/
def endOfCommand : Reading Unit := do
  match ← peek? with
  | some c =>
    if c = '#' ∨ c = Char.ofNat 125 then return ()
    else if c = '\n' ∨ c = ';' then let _ ← next?
    else refuse .junk
  | none => return ()

end Reading

/-! ## Escapes -/

/-- The octet that a number behind a backslash stands for. -/
def numberEscape? (base limit : Nat) (cs : List Char) : Option (Char × List Char) :=
  let (n, rest) := Format.readDigits base limit 0 cs
  if rest.length = cs.length then none else some (Char.ofNat (n % 256), rest)

/-- The octet that the characters behind a backslash stand for. -/
def escape? : List Char → Option (Char × List Char)
  | 'a' :: rest => some ('\x07', rest)
  | 'f' :: rest => some ('\x0c', rest)
  | 'r' :: rest => some ('\r', rest)
  | 't' :: rest => some ('\t', rest)
  | 'v' :: rest => some ('\x0b', rest)
  | ['c'] => some ('\\', [])
  | 'c' :: c :: rest => some (Char.ofNat (c.toUpper.toNat ^^^ 64), rest)
  | 'd' :: rest => numberEscape? 10 3 rest
  | 'o' :: rest => numberEscape? 8 3 rest
  | 'x' :: rest => numberEscape? 16 2 rest
  | _ => none

/-- A text in which `other` tells what a backslash and a character are that
are no escape. `length` bounds how many characters are left. -/
def unescapeWith (other : Char → List Char) : (length : Nat) → List Char → List Char
  | 0, cs => cs
  | _, [] => []
  | length + 1, '\\' :: rest =>
    match escape? rest, rest with
    | some (c, rest), _ => c :: unescapeWith other length rest
    | none, c :: rest => other c ++ unescapeWith other length rest
    | none, [] => ['\\']
  | length + 1, c :: rest => c :: unescapeWith other length rest

/-- A pattern in which escapes are octets. -/
def unescapePattern (cs : List Char) : List Char :=
  unescapeWith (fun c => ['\\', c]) cs.length cs

/-- A text in which escapes are octets. Other characters lose the backslash. -/
def unescapeText (cs : List Char) : List Char :=
  unescapeWith (fun c => [if c = 'n' then '\n' else c]) cs.length cs

/-- The pieces of a replacement. -/
def readReplacement : (length : Nat) → List Char → List Piece
  | 0, _ | _, [] => []
  | length + 1, '\\' :: rest =>
    match escape? rest, rest with
    | some (c, rest), _ => .char c :: readReplacement length rest
    | none, c :: rest => piece c :: readReplacement length rest
    | none, [] => [.char '\\']
  | length + 1, '&' :: rest => .group 0 :: readReplacement length rest
  | length + 1, c :: rest => .char c :: readReplacement length rest
where
  /-- The piece that a character behind a backslash is. -/
  piece (c : Char) : Piece :=
    match c with
    | 'U' => .letters .upper
    | 'L' => .letters .lower
    | 'E' => .letters .kept
    | 'u' => .letter .upper
    | 'l' => .letter .lower
    | 'n' => .char '\n'
    | c => if c.isDigit then .group (c.toNat - 48) else .char c

/-! ## Delimited texts -/

/-- Where in a pattern a character stands: outside of brackets, at their
beginning, inside of them, or in a class with a name. -/
inductive Bracket
  | outside
  | begun (negatable : Bool)
  | inside
  | named (mark : Char)

/-- Where the next character stands. -/
def Bracket.next (rest : List Char) : Bracket → Char → Bracket
  | outside, c => if c = '[' then begun true else outside
  | begun negatable, c => if c = '^' ∧ negatable then begun false else inside' c false
  | inside, c => inside' c true
  | named mark, c => if c = mark ∧ rest.head? = some ']' then begun false else named mark
where
  /-- Inside of brackets, which a bracket closes unless it comes first. -/
  inside' (c : Char) (closes : Bool) : Bracket :=
    if c = ']' ∧ closes then outside
    else if c = '[' then
      match rest with
      | mark :: _ => if mark = ':' ∨ mark = '.' ∨ mark = '=' then named mark else inside
      | [] => inside
    else inside

/-- The text up to a delimiter, which has no meaning in brackets and behind a
backslash, and what is behind it. If there is none on the line, the value is
what was not read. -/
def untilDelimiter (delimiter : Char) (isPattern : Bool) : Bracket → List Char →
    Except (List Char) (List Char × List Char)
  | _, [] => .error []
  | _, ['\\'] => .error []
  | place, '\\' :: c :: rest =>
    let isOutside := match place with
      | .outside => true
      | _ => false
    if c = 'n' ∧ isPattern ∧ (c ≠ delimiter ∨ !isOutside) then
      prepend ['\n'] (untilDelimiter delimiter isPattern
        (if isOutside then .outside else .inside) rest)
    else if !isOutside then
      prepend ['\\'] (untilDelimiter delimiter isPattern (place.next (c :: rest) '\\') (c :: rest))
    else
      let plain := c = '\n' || (c = delimiter && (isPattern || c ≠ '&'))
      prepend (if plain then [c] else ['\\', c])
        (untilDelimiter delimiter isPattern place rest)
  | place, c :: rest =>
    let closes : Bool := match place with
      | .outside => c = delimiter
      | _ => false
    if c = '\n' then .error (c :: rest)
    else if closes then .ok ([], rest)
    else
      prepend [c] (untilDelimiter delimiter isPattern
        (if isPattern then place.next rest c else .outside) rest)
where
  prepend (front : List Char) (result : Except (List Char) (List Char × List Char)) :
      Except (List Char) (List Char × List Char) :=
    result.map fun (text, rest) => (front ++ text, rest)

namespace Reading

/-- The text up to a delimiter; `fault` is that there is none. -/
def delimited (delimiter : Char) (isPattern : Bool) (fault : Fault) : Reading (List Char) :=
  fun cs =>
    match untilDelimiter delimiter isPattern .outside cs with
    | .ok result => .ok result
    | .error rest => .error { fault, rest }

/-- The pattern that a text denotes; none if the text is empty. A replacement
may refer to groups up to a number. -/
def pattern (d : Dialect) (text : List Char) (folded manyLines : Bool) (references : Nat := 0) :
    Reading (Option Pattern) := do
  if text = [] then
    if folded || manyLines then fail .emptyModified else return none
  else
    match Regex.read { extended := d.extended, strict := true }
        (String.ofList (unescapePattern text)) with
    | .error fault => fail (.pattern fault)
    | .ok source =>
      if source.groups < references then fail (.reference references)
      else
        let regex := if manyLines then source.regex.withinLines else source.regex
        return some { regex, folded, manyLines }

/-! ## Addresses -/

/-- The letters behind a pattern: whether letters of either case are the
same, and whether lines are looked at. -/
def addressFlags : (length : Nat) → (folded manyLines : Bool) → Reading (Bool × Bool)
  | 0, folded, manyLines => return (folded, manyLines)
  | length + 1, folded, manyLines => do
    match ← peek? with
    | some 'I' => do
      let _ ← next?
      addressFlags length true manyLines
    | some 'M' => do
      let _ ← next?
      addressFlags length folded true
    | _ => return (folded, manyLines)

/-- A pattern as an address, behind its delimiter. -/
def patternAddress (d : Dialect) (delimiter : Char) : Reading RangeEnd := do
  let text ← delimited delimiter true .openAddress
  let (folded, manyLines) ← addressFlags (← get).length false false
  return .address (.matching (← pattern d text folded manyLines))

/-- An address, if there is one. -/
def address? (d : Dialect) : Reading (Option RangeEnd) := do
  match ← peek? with
  | none => return none
  | some '/' => do
    let _ ← next?
    return some (← patternAddress d '/')
  | some '\\' => do
    let _ ← next?
    match ← next? with
    | none => fail .openAddress
    | some delimiter => return some (← patternAddress d delimiter)
  | some '$' => do
    let _ ← next?
    return some (.address .last)
  | some '+' => do
    let _ ← next?
    let _ ← peek?
    return some (.after (← number))
  | some '~' => do
    let _ ← next?
    let _ ← peek?
    return some (.multiple (← number))
  | some c =>
    if !c.isDigit then return none
    else do
      let first ← number
      if (← peek?) = some '~' then
        let _ ← next?
        let _ ← peek?
        let step ← number
        return some (.address (if step = 0 then .line first else .every first step))
      else return some (.address (.line first))

/-- The lines that a command is for. -/
def selector (d : Dialect) : Reading Selector := do
  match ← address? d with
  | none => return .all
  | some (.after _) | some (.multiple _) => fail .stepFirst
  | some (.address first) => do
    let startsAtZero := match first with
      | .line 0 => true
      | _ => false
    match ← peek? with
    | some ',' => do
      let _ ← next?
      match ← address? d with
      | none => refuse .comma
      | some finish => do
        let _ ← peek?
        let isPattern := match finish with
          | .address (.matching _) => true
          | _ => false
        if startsAtZero && !isPattern then refuse .lineZero
        else return .range first finish
    | _ => if startsAtZero then refuse .lineZero else return .only first

/-! ## Arguments of commands -/

/-- A label. -/
def label : Reading String := do
  let _ ← peek?
  return String.ofList (← span fun c => !isSpace c && c ≠ ';' && c ≠ Char.ofNat 125)

/-- The name of a file. -/
def fileName : Reading String := do
  let _ ← peek?
  let name ← restOfLine
  if name = [] then fail .noFile else return String.ofList name

/-- A text up to the end of its line, with the line ends that a backslash
stands in front of, as it is written. The flag says whether it goes on in the
next part of the script. `length` bounds how many characters are left. -/
def rawText : (length : Nat) → List Char → List Char × Bool × List Char
  | 0, cs => (cs, false, [])
  | _, [] => ([], false, [])
  | _, ['\\'] => ([], true, [])
  | _, '\n' :: rest => ([], false, rest)
  | length + 1, '\\' :: c :: rest =>
    let (text, open_, rest) := rawText length rest
    ('\\' :: c :: text, open_, rest)
  | length + 1, c :: rest =>
    let (text, open_, rest) := rawText length rest
    (c :: text, open_, rest)

/-- The flags of a substitution. -/
structure Flags where
  folded : Bool := false
  manyLines : Bool := false
  everywhere : Bool := false
  prints : Bool := false
  runs : Bool := false
  first : Option Nat := none
  file : Option String := none

/-- Reads the flags of a substitution; `length` bounds their number. -/
def flags (d : Dialect) : (length : Nat) → Flags → Reading Flags
  | 0, f => return f
  | length + 1, f => do
    match ← peek? with
    | none => return f
    | some c =>
      if c = '#' ∨ c = Char.ofNat 125 then return f
      else if c.isDigit then do
        if f.first.isSome then refuse (.flagTwice "number")
        let n ← number
        if n = 0 then fail .flagZero
        flags d length { f with first := some n }
      else do
        let _ ← next?
        match c with
        | '\n' | ';' => return f
        | 'i' | 'I' => flags d length { f with folded := true }
        | 'm' | 'M' => flags d length { f with manyLines := true }
        | 'e' => flags d length { f with runs := true }
        | 'p' =>
          if f.prints then fail (.flagTwice (quoted "p"))
          else flags d length { f with prints := true }
        | 'g' =>
          if f.everywhere then fail (.flagTwice (quoted "g"))
          else flags d length { f with everywhere := true }
        | 'w' => do
          if d.confined then fail .confined
          return { f with file := some (← fileName) }
        | '\r' => if (← next?) = some '\n' then return f else fail .flag
        | _ => fail .flag

/-- A substitution, behind its letter. -/
def substitution (d : Dialect) : Reading Substitution := do
  match ← next? with
  | none => fail .openSubstitution
  | some delimiter => do
    let text ← delimited delimiter true .openSubstitution
    let replacement ← delimited delimiter false .openSubstitution
    let replacement := readReplacement replacement.length replacement
    let f ← flags d ((← get).length + 1) {}
    let references := replacement.foldl (fun greatest piece =>
      match piece with
      | .group number => max greatest number
      | _ => greatest) 0
    let pattern ← pattern d text f.folded f.manyLines references
    if d.confined && f.runs then fail .confined
    return { pattern, replacement, first := f.first.getD 1, everywhere := f.everywhere
             prints := f.prints, runs := f.runs, file := f.file }

/-- What characters are replaced by what others, behind the letter. -/
def translation : Reading (List (Char × Char)) := do
  match ← next? with
  | none => fail .openTranslation
  | some delimiter => do
    let source := unescapeText (← delimited delimiter false .openTranslation)
    let target := unescapeText (← delimited delimiter false .openTranslation)
    if source.length ≠ target.length then fail .lengths
    else
      endOfCommand
      return source.zip target

/-- Asks for a version of the tool, behind the letter. -/
def version : Reading Unit := do
  let text ← label
  let parts := text.splitOn "."
  if text = "" then return ()
  else
    match parts.map Text.readNat? with
    | some major :: rest =>
      let minor := match rest with
        | some minor :: _ => minor
        | _ => 0
      if major < 4 ∨ (major = 4 ∧ minor ≤ 9) then return () else fail .version
    | _ => fail .version

end Reading

/-! ## Commands -/

/-- A part of a script. -/
inductive Origin
  | argument (number : Nat)
  | file (name : String)
  deriving DecidableEq, Repr

/-- What was read of a script. -/
structure Draft where
  /-- The steps, the last one first. -/
  steps : List Step := []
  /-- Where the blocks that are open were opened, the innermost first; in a
  file with the number of the line. -/
  blocks : List (Origin × Nat) := []
  /-- A text that goes on in the next part, as it is written, with the step
  it belongs to. -/
  unfinished : Option (List Char × (String → Step)) := none

namespace Reading

/-- The text of a step, with what was read of it before. -/
def textStep (draft : Draft) (front : List Char) (step : String → Step) : Reading Draft :=
  fun cs =>
    let (text, open_, rest) := rawText cs.length cs
    let text := front ++ text
    if open_ then
      .ok ({ draft with unfinished := some (text ++ ['\\', '\n'], step) }, rest)
    else
      let step := step (String.ofList (unescapeText text ++ ['\n']))
      .ok ({ draft with steps := step :: draft.steps, unfinished := none }, rest)

/-- The beginning of a text: the backslash and the end of the line in front
of it are left out. -/
def startText (draft : Draft) (step : String → Step) : Reading Draft := do
  match ← peek? with
  | none => fail .noText
  | some '\\' => do
    let _ ← next?
    match (← get) with
    | [] => return { draft with unfinished := some ([], step) }
    | '\n' :: rest => do
      set rest
      textStep draft [] step
    | _ => textStep draft [] step
  | some _ => textStep draft [] step

/-- The edits without arguments. -/
def plainEdit? : Char → Option Edit
  | '=' => some .showNumber
  | 'd' => some .delete
  | 'D' => some .deleteFirst
  | 'F' => some .showName
  | 'g' => some .fetch
  | 'G' => some .fetchMore
  | 'h' => some .keep
  | 'H' => some .keepMore
  | 'n' => some .next
  | 'N' => some .nextMore
  | 'p' => some .print
  | 'P' => some .printFirst
  | 'x' => some .exchange
  | 'z' => some .clear
  | _ => none

/-- Reads a command behind its addresses. `line` is the number of lines read
before. -/
def command (d : Dialect) (here : Origin × Nat) (draft : Draft) (selector : Selector)
    (negated : Bool) : Reading Draft := do
  let isAddressed := match selector with
    | .all => false
    | _ => true
  let isRange := match selector with
    | .range _ _ => true
    | _ => false
  let add (edit : Edit) : Reading Draft :=
    return { draft with steps := { selector, negated, edit } :: draft.steps }
  let onlyFree : Reading Unit := if d.confined then fail .confined else return ()
  match ← next? with
  | none => fail .missingCommand
  | some '#' => do
    if isAddressed then fail .addressedComment
    let _ ← restOfLine
    return draft
  | some ':' => do
    if isAddressed then fail .addressedLabel
    let name ← label
    if name = "" then fail .noLabel
    add (.label name)
  | some 'v' => do
    version
    return draft
  | some 'a' => startText draft fun text => { selector, negated, edit := .append text }
  | some 'i' => startText draft fun text => { selector, negated, edit := .insert text }
  | some 'c' => startText draft fun text => { selector, negated, edit := .change text }
  | some 'e' => do
    onlyFree
    match ← peek? with
    | none | some '\n' => do
      let _ ← next?
      add (.run none)
    | some _ => textStep draft [] fun text =>
      { selector, negated, edit := .run (some (String.ofList text.toList.dropLast)) }
  | some 'b' => add (.jump .always (← label))
  | some 't' => add (.jump .replaced (← label))
  | some 'T' => add (.jump .notReplaced (← label))
  | some 'r' => do
    onlyFree
    add (.insertFile (← fileName))
  | some 'R' => do
    onlyFree
    add (.insertLine (← fileName))
  | some 'w' => do
    onlyFree
    add (.write (← fileName))
  | some 'W' => do
    onlyFree
    add (.writeFirst (← fileName))
  | some 's' => add (.substitute (← substitution d))
  | some 'y' => add (.translate (← translation))
  | some 'l' => do
    let width ← width?
    endOfCommand
    add (.list width)
  | some 'q' => do
    if isRange then fail .oneAddress
    let status ← width?
    endOfCommand
    add (.quit true (status.getD 0))
  | some 'Q' => do
    if isRange then fail .oneAddress
    let status ← width?
    endOfCommand
    add (.quit false (status.getD 0))
  | some c =>
    if c = Char.ofNat 123 then
      return { draft with steps := { selector, negated, edit := .openBlock } :: draft.steps
                          blocks := here :: draft.blocks }
    else if c = Char.ofNat 125 then
      match draft.blocks with
      | [] => fail .closedBrace
      | _ :: blocks => do
        if isAddressed then fail .addressedBrace
        endOfCommand
        return { draft with steps := { edit := .closeBlock } :: draft.steps, blocks }
    else
      match plainEdit? c with
      | none => fail (.unknownCommand c)
      | some edit => do
        endOfCommand
        add edit
where
  /-- A number that may be left out. -/
  width? : Reading (Option Nat) := do
    match ← peek? with
    | some c => if c.isDigit then return some (← number) else return none
    | none => return none

/-- Reads commands up to the end of a part; `length` bounds their number. The
part has `lines` lines. -/
def commands (d : Dialect) (origin : Origin) (lines : Nat) : (length : Nat) → Draft → Reading Draft
  | 0, draft => return draft
  | length + 1, draft => do
    skip fun c => isSpace c || c = ';'
    if (← get) = [] then return draft
    else
      let selector ← selector d
      let negated := (← peek?) = some '!'
      if negated then
        let _ ← next?
        if (← peek?) = some '!' then refuse .bangs
      let here := (origin, lines - (← get).count '\n')
      commands d origin lines length (← command d here draft selector negated)

end Reading

namespace Draft

/-- The wording of a fault of a part; `column` and `line` are where it was
found. -/
def complaint (origin : Origin) (line column : Nat) (fault : Fault) : String :=
  match fault with
  | .pattern .classPlacement => fault.message
  | _ =>
    match origin with
    | .argument number => s!"-e expression #{number}, char {column}: {fault.message}"
    | .file name => s!"file {name} line {line}: {fault.message}"

/-- Reads a part of a script; a fault is put into words. -/
def read (d : Dialect) (draft : Draft) (origin : Origin) (text : String) : Except String Draft :=
  let cs := text.toList
  let lines := cs.count '\n' + 1
  let all : Reading Draft := do
    let draft ← match draft.unfinished with
      | none => pure draft
      | some (front, step) => Reading.textStep draft front step
    Reading.commands d origin lines (cs.length + 1) draft
  match all.run cs with
  | .ok (draft, _) => .ok draft
  | .error { fault, rest } =>
    .error (complaint origin (lines - rest.count '\n') (cs.length - rest.length) fault)

/-- The steps that were read. Blocks that are still open are a fault. -/
def finish (draft : Draft) : Except String (List Step) :=
  match draft.blocks with
  | (origin, line) :: _ => .error (complaint origin line 0 .openBrace)
  | [] =>
    match draft.unfinished with
    | none => .ok draft.steps.reverse
    | some (front, step) =>
      .ok (step (String.ofList (unescapeText front)) :: draft.steps).reverse

end Draft

/-- Whether a part asks for nothing to be printed unless a command says so. -/
def asksForSilence (text : String) : Bool := text.startsWith "#n"

end JobShell.Tool.Editing
