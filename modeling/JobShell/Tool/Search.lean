import JobShell.Text.Decimal
import JobShell.Text.Regex.Reader
import JobShell.Tool.Basic
import JobShell.Tool.NamePattern

/-!
# Lines that match

`grep` prints the lines of its inputs in which one of some patterns matches,
or those in which none does. A `Matcher` tells which lines these are and
where the matches are; a `Report` tells what is printed of them.
-/

namespace JobShell.Tool

open Machine (Action FileKind)
open Text (Regex Subject)

namespace Search

/-! ## Matching lines -/

/-- Which lines are looked for. -/
structure Matcher where
  patterns : List Regex
  folded : Bool := false
  /-- A match is all of a line. -/
  wholeLines : Bool := false
  /-- There is no part of a word in front of a match or behind it. -/
  wholeWords : Bool := false
  /-- The lines without a match. -/
  inverted : Bool := false

namespace Matcher

/-- Whether no word goes on at the ends of a match. -/
def isBetweenWords (s : Subject) (start finish : Nat) : Bool :=
  let inWord (c : Option Char) : Bool := c.any Subject.isWordChar
  !(start ≠ 0 && inWord s.text[start - 1]?) && !inWord s.text[finish]?

/-- Where the longest acceptable match of a pattern ends that starts at a
place. -/
def endAt? (m : Matcher) (s : Subject) (start : Nat) (r : Regex) : Option Nat :=
  let ends := r.endsAt s start
  if m.wholeLines then
    if start = 0 then ends.find? (· = s.text.size) else none
  else if m.wholeWords then
    let wanted := if ends.getLast? = some start then ends else ends.filter (· ≠ start)
    wanted.reverse.find? (isBetweenWords s start)
  else ends.getLast?

/-- The first match at `from_` or later; of several the longest. -/
def find? (m : Matcher) (s : Subject) (from_ : Nat) : Option (Nat × Nat) :=
  let hopeful := m.patterns.filter fun r => r.starts s from_ ≠ []
  if hopeful = [] then none
  else
    (List.range' from_ (s.text.size + 1 - from_)).findSome? fun start =>
      let ends := hopeful.filterMap (m.endAt? s start)
      (ends.max?).map fun finish => (start, finish)

/-- A line as a text in which matches are looked for. -/
def subject (m : Matcher) (line : String) : Subject :=
  { text := line.toList.toArray, folded := m.folded }

/-- Whether a line is wanted. -/
def wants (m : Matcher) (line : String) : Bool :=
  let s := m.subject line
  let found :=
    if m.wholeLines || m.wholeWords then (m.find? s 0).isSome
    else m.patterns.any (·.isIn s)
  found != m.inverted

/-- All matches in a line that are not empty; `count` bounds their number. -/
def matchesFrom (m : Matcher) (s : Subject) : (count from_ : Nat) → List (Nat × Nat)
  | 0, _ => []
  | count + 1, from_ =>
    match m.find? s from_ with
    | none => []
    | some (start, finish) =>
      if start < finish then (start, finish) :: m.matchesFrom s count finish
      else if finish < s.text.size then m.matchesFrom s count (finish + 1)
      else []

/-- All matches in a line that are not empty. -/
def allMatches (m : Matcher) (s : Subject) : List (Nat × Nat) :=
  m.matchesFrom s (s.text.size + 1) 0

end Matcher

/-! ## Reporting -/

/-- What is printed at the end of an input. -/
inductive Summary
  | none
  | count
  /-- The name of an input with a wanted line. -/
  | withMatch
  /-- The name of an input without one. -/
  | withoutMatch
  deriving DecidableEq

/-- What is printed. -/
structure Report where
  matcher : Matcher
  summary : Summary := .none
  quiet : Bool := false
  /-- Matches are printed instead of lines. -/
  onlyMatches : Bool := false
  numbers : Bool := false
  offsets : Bool := false
  named : Bool := false
  /-- What stands behind the name of an input. -/
  nameEnd : Option Char := Option.none
  aligned : Bool := false
  /-- How many lines in front of a wanted one are printed. -/
  before : Nat := 0
  after : Nat := 0
  /-- What stands between lines that are not neighbours. -/
  gap : Option String := Option.none
  limit : Option Nat := Option.none
  newline : String := "\n"

namespace Report

/-- Whether lines are printed. -/
def printsLines (r : Report) : Bool := r.summary = .none && !r.quiet

/-- What stands in front of a line. -/
def label (r : Report) (input : String) (number offset : Nat) (separator : Char) : String :=
  let name := if r.named then input ++ (r.nameEnd.getD separator).toString else ""
  let number := if r.numbers then toString number ++ separator.toString else ""
  let offset := if r.offsets then toString offset ++ separator.toString else ""
  let text := name ++ number ++ offset
  if r.aligned && text ≠ "" then text ++ "\t" else text

end Report

/-- A line with its number and the number of bytes in front of it. -/
structure Numbered where
  line : String
  number : Nat
  offset : Nat

/-- How far an input was searched. -/
structure State where
  number : Nat := 0
  offset : Nat := 0
  found : Nat := 0
  /-- How many lines behind the last wanted one are still printed. -/
  pending : Nat := 0
  /-- Lines that may be printed in front of a wanted one. -/
  held : List Numbered := []
  /-- The number of the last line that was printed. -/
  printed : Nat := 0
  /-- Whether anything was printed, of this input or of others. -/
  begun : Bool := false
  /-- There are bytes that are no text. -/
  binary : Bool := false
  /-- A wanted line was not printed, as it is no text. -/
  hidden : Bool := false

/-- What is printed of a wanted line. -/
def Report.lines (r : Report) (input : String) (x : Numbered) : List String :=
  if !r.onlyMatches then [r.label input x.number x.offset ':' ++ x.line]
  else if r.matcher.inverted then []
  else
    let s := r.matcher.subject x.line
    (r.matcher.allMatches s).map fun (start, finish) =>
      r.label input x.number (x.offset + start) ':' ++ String.ofList (s.slice start finish)

/-- What is printed of a line near a wanted one. -/
def Report.context (r : Report) (input : String) (x : Numbered) : List String :=
  if r.onlyMatches then [] else [r.label input x.number x.offset '-' ++ x.line]

/-- Takes up a wanted line. -/
def Report.takeWanted (r : Report) (input : String) (s : State) (x : Numbered) :
    State × List String × Bool :=
  let s := { s with found := s.found + 1 }
  let atLimit := r.limit = some s.found
  if !r.printsLines then (s, [], r.summary = .count && !atLimit)
  else if s.binary then ({ s with hidden := true }, [], false)
  else
    let first := (s.held.head?.getD x).number
    let gap :=
      if s.begun && first ≠ s.printed + 1 || s.begun && s.printed = 0 then r.gap.toList else []
    let output := gap ++ s.held.flatMap (r.context input) ++ r.lines input x
    ({ s with held := [], printed := x.number, begun := true, pending := r.after }, output,
      !(atLimit && r.after = 0))

/-- Takes up a line that is not wanted, or comes too late. -/
def Report.takeOther (r : Report) (input : String) (s : State) (x : Numbered) :
    State × List String × Bool :=
  if !r.printsLines then (s, [], true)
  else if s.pending > 0 then
    ({ s with pending := s.pending - 1, printed := x.number }, r.context input x,
      !(r.limit = some s.found && s.pending = 1))
  else
    let held := s.held ++ [x]
    ({ s with held := held.drop (held.length - r.before) }, [], true)

/-- Takes up the next line of an input: how the search goes on, what is
printed, and whether there is more to do. -/
def Report.step (r : Report) (input : String) (s : State) (line : String) :
    State × List String × Bool :=
  let x : Numbered := ⟨line, s.number + 1, s.offset⟩
  let s := { s with number := x.number, offset := s.offset + line.length + 1 }
  let late := r.limit.any (· ≤ s.found)
  if !late && r.matcher.wants line then r.takeWanted input s x else r.takeOther input s x

/-- Takes up several lines. -/
def Report.run (r : Report) (input : String) (s : State) :
    List String → State × List String × Bool
  | [] => (s, [], true)
  | line :: rest =>
    let (s, output, more) := r.step input s line
    if !more then (s, output, false)
    else
      let (s, others, more) := r.run input s rest
      (s, output ++ others, more)

/-! ## Inputs -/

/-- What is done with inputs that are no text. -/
inductive BinaryMode
  | usual
  | text
  | skipped
  deriving DecidableEq

/-- What is done with directories. -/
inductive DirectoryMode
  | read
  | recurse
  | skip
  deriving DecidableEq

/-- A pattern of names, and whether it asks for them or leaves them out. -/
structure NameFilter where
  includes : Bool
  pattern : Regex

/-- Whether an input is left out because of its name: the last filter that
fits decides. If none does, the opposite of the first one holds. An input that
is an operand also fits by the end of its path. -/
def isLeftOut (filters : List NameFilter) (operand : Bool) (name : String) : Bool :=
  let ends : List String :=
    if operand then
      let parts := name.splitOn "/"
      (List.range parts.length).map fun k => "/".intercalate (parts.drop k)
    else [name]
  match filters.reverse.find? fun f => ends.any (fitsName f.pattern) with
  | some f => !f.includes
  | none => (filters.head?.map (·.includes)).getD false

/-- How programs treat their inputs. -/
structure Setting where
  report : Report
  /-- The names of files, and of directories, that are left out. -/
  fileFilters : List NameFilter := []
  directoryFilters : List NameFilter := []
  binary : BinaryMode := .usual
  directories : DirectoryMode := .read
  /-- Nothing is said of inputs that can not be read. -/
  silent : Bool := false
  /-- The names of inputs are shown; if nothing is said, only where there are
  several. -/
  named : Option Bool := none
  /-- The name of the standard input. -/
  label : String := "(standard input)"

/-- What is known after some inputs. -/
structure Outcome where
  found : Bool := false
  failed : Bool := false
  /-- Whether anything was printed. -/
  begun : Bool := false

end Search

open Search in
/-- Searches one input that is open. -/
def searchInput (i : Invocation) (s : Search.Setting) (o : Search.Outcome) (input : String)
    (fd : Fd) : Action Search.Outcome := do
  let r := s.report
  let start : State := { begun := o.begun }
  let finish (held : String) (state : State) : Action State := do
    if held = "" then return state
    else
      let (state, output, _) := r.run input state (splitLines held r.newline).1
      if output ≠ [] then say i.name (joinLines output r.newline) 2
      return state
  let step := fun ((state, held, stopped) : State × String × Bool) (block : Bytes) => do
    let isBinary := state.binary ||
      (s.binary ≠ .text && r.newline = "\n" && block.contains 0)
    if isBinary && s.binary = .skipped then return ((state, "", true), false)
    else
      let state := { state with binary := isBinary }
      let block := if isBinary then block.map fun b => if b = 0 then 10 else b else block
      let (lines, ended) := splitLines (held ++ Bytes.octets block) r.newline
      let (whole, held) := if ended then (lines, "") else (lines.dropLast, lines.getLastD "")
      let (state, output, more) := r.run input state whole
      if output ≠ [] then say i.name (joinLines output r.newline) 2
      let goesOn := more && r.limit ≠ some 0
      return ((state, if goesOn then held else "", stopped || !goesOn), goesOn)
  let (state, failed) ← match ← Action.foldBlocks fd step (start, "", false) with
    | .error cause =>
      if !s.silent then complainAs i.name (input ++ ": " ++ errorWords cause)
      pure (start, true)
    | .ok (state, held, stopped) =>
      let state ← if stopped then pure state else finish held state
      pure (state, false)
  if state.hidden then complainAs i.name (input ++ ": binary file matches")
  let found := state.found > 0
  if r.quiet && found then Action.exit 0
  let nameEnd := (r.nameEnd.map Char.toString)
  match r.summary with
  | .none => pure ()
  | .count =>
    let name := if r.named then input ++ nameEnd.getD ":" else ""
    say i.name (name ++ toString state.found ++ "\n") 2
  | .withMatch => if found then say i.name (input ++ nameEnd.getD "\n") 2
  | .withoutMatch => if !found then say i.name (input ++ nameEnd.getD "\n") 2
  return { found := o.found || found, failed := o.failed || failed, begun := state.begun }

/-- Whether an input is the file that lines are written to. -/
def isSearchedOutput (fd : Fd) : Action Bool := do
  match ← Action.factsOf 1, ← Action.factsOf fd with
  | .ok output, .ok input =>
    return output.kind = .regular && output.identity = input.identity
  | _, _ => return false

/-- Searches an input, and everything below it if it is a directory and that
is asked for; `depth` bounds how deep. It is known by `name` to the filters. -/
def searchPath (i : Invocation) (s : Search.Setting) : (depth : Nat) → (operand : Bool) →
    (path input name : String) → Search.Outcome → Action Search.Outcome
  | 0, _, _, _, _, o => return o
  | depth + 1, operand, path, input, name, o => do
    let facts ← Action.facts (.ofOctets path)
    let isDirectory := path ≠ "-" && match facts with
      | .ok facts => facts.kind = FileKind.directory
      | .error _ => false
    let filters := if isDirectory then s.directoryFilters else s.fileFilters
    if path ≠ "-" && name ≠ "" && facts.isOk && Search.isLeftOut filters operand name then
      return o
    else if isDirectory && s.directories = .skip then return o
    else if isDirectory && s.directories = .recurse then
      match ← Action.names (.ofOctets path) with
      | .error cause =>
        if !s.silent then complainAs i.name (input ++ ": " ++ errorWords cause)
        return { o with failed := true }
      | .ok names => below depth path input o (names.map Bytes.octets)
    else
      match ← openInput path with
      | .error cause =>
        if !s.silent then complainAs i.name (input ++ ": " ++ errorWords cause)
        return { o with failed := true }
      | .ok fd =>
        let r := s.report
        if r.printsLines && r.limit.all (1 < ·) && (← isSearchedOutput fd) then
          complainAs i.name (input ++ ": input file is also the output")
          closeInput fd
          return { o with failed := true }
        else
          let o ← searchInput i s o input fd
          closeInput fd
          return o
where
  /-- Searches the entries of a directory. Links in it are left out. -/
  below (depth : Nat) (path input : String) (o : Search.Outcome) :
      List String → Action Search.Outcome
    | [] => return o
    | name :: rest => do
      let entry := path ++ (if path.endsWith "/" then "" else "/") ++ name
      let shown :=
        if input = "" then name else input ++ (if input.endsWith "/" then "" else "/") ++ name
      let wanted := match ← Action.facts (.ofOctets entry) false with
        | .ok facts => facts.kind = FileKind.regular || facts.kind = FileKind.directory
        | .error _ => false
      let named := { s with report.named := s.named.getD true }
      let o ← if wanted then searchPath i named depth false entry shown name o else pure o
      below depth path input o rest

/-- How a program that searches is used. -/
def searchUsage (i : Invocation) : Action α := do
  let name := (i.name.splitOn "/").getLastD ""
  complain s!"Usage: {name} [OPTION]... PATTERNS [FILE]...\n"
  complain s!"Try '{name} --help' for more information.\n"
  Action.exit 2

/-- The options of a program that searches. -/
def searchOptions : OptionTable where
  flags := "0123456789EFGHILPRTUVZabchilnoqrsuvwxyz"
  valued := "ABCDdefm"
  longValued := "NSKXYWM"
  attached := "O"
  long := [("basic-regexp", 'G'), ("extended-regexp", 'E'), ("fixed-regexp", 'F'),
    ("fixed-strings", 'F'), ("perl-regexp", 'P'), ("after-context", 'A'),
    ("before-context", 'B'), ("binary-files", 'N'), ("binary", 'U'), ("byte-offset", 'b'),
    ("context", 'C'), ("color", 'O'), ("colour", 'O'), ("count", 'c'), ("devices", 'D'),
    ("directories", 'd'), ("exclude", 'X'), ("exclude-from", 'Y'), ("exclude-dir", 'W'),
    ("file", 'f'), ("files-with-matches", 'l'), ("files-without-match", 'L'),
    ("group-separator", 'S'), ("include", 'M'), ("ignore-case", 'i'), ("no-ignore-case", 'j'),
    ("initial-tab", 'T'), ("label", 'K'), ("line-buffered", 'u'), ("line-number", 'n'),
    ("line-regexp", 'x'), ("max-count", 'm'), ("no-filename", 'h'), ("no-group-separator", 'g'),
    ("no-messages", 's'), ("null", 'Z'), ("null-data", 'z'), ("only-matching", 'o'),
    ("quiet", 'q'), ("recursive", 'r'), ("dereference-recursive", 'R'), ("regexp", 'e'),
    ("invert-match", 'v'), ("silent", 'q'), ("text", 'a'), ("with-filename", 'H'),
    ("word-regexp", 'w')]

/-- The texts of patterns that options give, line by line. -/
def givenPatterns (i : Invocation) : List GivenOption → Action (List String)
  | [] => return []
  | ('e', some text) :: rest => return text.splitOn "\n" ++ (← givenPatterns i rest)
  | ('f', some path) :: rest => do
    match ← openInput path with
    | .error cause => die i.name (path ++ ": " ++ errorWords cause) 2
    | .ok fd =>
      match ← Action.readAll fd with
      | .error cause => die i.name (path ++ ": " ++ errorWords cause) 2
      | .ok data =>
        closeInput fd
        return linesOf data.octets ++ (← givenPatterns i rest)
  | _ :: rest => givenPatterns i rest

/-- The patterns that texts denote. -/
def readPatterns (i : Invocation) (kind : Char) (texts : List String) : Action (List Regex) :=
  texts.mapM fun text => do
    if kind = 'F' then return Regex.literal text
    else
      match Regex.read { extended := kind = 'E' } text with
      | .error fault => die i.name fault.message 2
      | .ok source =>
        for warning in source.warnings do
          complainAs i.name ("warning: " ++ warning)
        return source.regex

/-- The number of lines of context that an option asks for. -/
def contextLength (i : Invocation) (options : List GivenOption) (c : Char) :
    Action (Option Nat) := do
  match optionValue? options c with
  | none => return none
  | some text =>
    match Text.readInt? text with
    | some n =>
      if 0 ≤ n then return some n.toNat
      else die i.name s!"{text}: invalid context length argument" 2
    | none => die i.name s!"{text}: invalid context length argument" 2

/-- Prints the lines that match a pattern. -/
def grep (i : Invocation) : Action Unit := do
  let (options, operands) ← match readOptions searchOptions false
      (i.arguments.length + 1) i.arguments with
    | .ok result => pure result
    | .error text => complainAs i.name text; searchUsage i
  let has := hasOption options
  let kinds := (options.map (·.1)).filter ['E', 'F', 'G', 'P'].contains
  let kind := kinds.headD 'G'
  if kinds.any (· ≠ kind) then die i.name "conflicting matchers specified" 2
  let digits := String.ofList ((options.map (·.1)).filter Char.isDigit)
  let both ← contextLength i (options ++ if digits = "" then [] else [('C', some digits)]) 'C'
  let after ← contextLength i options 'A'
  let before ← contextLength i options 'B'
  let limit ← match optionValue? options 'm' with
    | none => pure none
    | some text =>
      match Text.readInt? text with
      | some n => pure (if n < 0 then none else some n.toNat)
      | none => die i.name "invalid max count" 2
  let binary ← match optionValue? options 'N' with
    | some "text" => pure Search.BinaryMode.text
    | some "without-match" => pure .skipped
    | some "binary" | none => pure (if has 'a' then .text else if has 'I' then .skipped else .usual)
    | some _ => die i.name "unknown binary-files type" 2
  let directories : Search.DirectoryMode := match optionValue? options 'd' with
    | some "skip" => .skip
    | some "recurse" => .recurse
    | _ => if has 'r' || has 'R' then .recurse else .read
  let given ← givenPatterns i options
  let areGiven := has 'e' || has 'f'
  if !areGiven && operands = [] then searchUsage i
  let texts := if areGiven then given else (operands.headD "").splitOn "\n"
  let operands := if areGiven then operands else operands.drop 1
  let hidesAll :=
    if texts = [] then !has 'v'
    else texts.all (· = "") && has 'v' && !has 'x' && !has 'w'
  let summary : Search.Summary :=
    if has 'q' then .none
    else
      match options.reverse.find? fun (c, _) => c = 'l' || c = 'L' with
      | some ('l', _) => .withMatch
      | some _ => .withoutMatch
      | none => if has 'c' then .count else .none
  if (limit = some 0 || hidesAll) && summary ≠ .withoutMatch then Action.exit 1
  let patterns ← readPatterns i (if kind = 'P' then 'E' else kind) texts
  let named : Option Bool :=
    (options.reverse.find? fun (c, _) => c = 'H' || c = 'h').map fun (c, _) => c = 'H'
  let matcher : Search.Matcher := {
    patterns, wholeLines := has 'x', wholeWords := has 'w', inverted := has 'v'
    folded := ((options.reverse.find? fun (c, _) => ['i', 'y', 'j'].contains c).map
      fun (c, _) => c ≠ 'j').getD false }
  let hasContext := both.isSome || after.isSome || before.isSome
  let report : Search.Report := {
    matcher, quiet := has 'q', onlyMatches := has 'o', numbers := has 'n', offsets := has 'b'
    summary
    named := named.getD (operands.length > 1)
    nameEnd := if has 'Z' then some '\x00' else none, aligned := has 'T'
    before := (before.orElse fun _ => both).getD 0
    after := (after.orElse fun _ => both).getD 0
    gap := if hasContext && !has 'g' then some ((optionValue? options 'S').getD "--") else none
    limit, newline := if has 'z' then "\x00" else "\n" }
  let s : Search.Setting := {
    report, binary, directories, silent := has 's', named
    fileFilters := options.filterMap fun (c, text) =>
      if c = 'X' || c = 'M' then
        some { includes := c = 'M', pattern := namePattern (text.getD "") }
      else none
    directoryFilters := options.filterMap fun (c, text) =>
      if c = 'W' then
        let cs := ((text.getD "").toList.reverse.dropWhile (· = '/')).reverse
        some { includes := false, pattern := namePattern (String.ofList cs) }
      else none
    label := (optionValue? options 'K').getD "(standard input)" }
  let rec go (o : Search.Outcome) : List String → Action Search.Outcome
    | [] => return o
    | operand :: rest => do
      let shown := if operand = "-" then s.label else operand
      go (← searchPath i s 1000 true operand shown operand o) rest
  let o ←
    if operands = [] then
      if directories = .recurse then searchPath i s 1000 true "." "" "" {} else go {} ["-"]
    else go {} operands
  Action.exit (if o.failed then 2 else if o.found then 0 else 1)

end JobShell.Tool
