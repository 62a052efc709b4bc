import JobShell.Text.Decimal
import JobShell.Text.Floating
import JobShell.Text.Version
import JobShell.Tool.Basic

/-!
# Ordered lines

`sort` prints the lines of its inputs in order. Letters say how texts are
compared; a `SortKey` says which part of a line is compared, and how. Lines
that no key tells apart are compared as a whole.
-/

namespace JobShell.Tool

open Machine (Action)

namespace Order

/-! ## Comparing texts -/

/-- How texts are compared. -/
inductive Measure
  | characters
  | numbers
  | floating
  | sizes
  | months
  | versions
  deriving DecidableEq

/-- The measure that letters ask for. -/
def Measure.ofLetters (letters : List Char) : Measure :=
  if 'n' ∈ letters then .numbers
  else if 'g' ∈ letters then .floating
  else if 'h' ∈ letters then .sizes
  else if 'M' ∈ letters then .months
  else if 'V' ∈ letters then .versions
  else .characters

/-- Whether a character separates fields. -/
def isBlank (c : Char) : Bool := c = ' ' || c = '\t' || c = '\n'

/-- The number at the beginning of a text: its digits as a whole number, and
how many of them stand behind the point. -/
def leadingNumber (cs : List Char) : Int × Nat :=
  let (negative, cs) : Bool × List Char := match cs.dropWhile isBlank with
    | '-' :: rest => (true, rest)
    | rest => (false, rest)
  let (whole, rest) := cs.span Char.isDigit
  let fraction := match rest with
    | '.' :: rest => rest.takeWhile Char.isDigit
    | _ => []
  let n : Int := (Text.natOfDigits (whole ++ fraction) : Nat)
  (if negative then -n else n, fraction.length)

/-- Compares numbers exactly. -/
def compareNumbers (a b : List Char) : Ordering :=
  let (a, places) := leadingNumber a
  let (b, places') := leadingNumber b
  compare (a * 10 ^ places') (b * 10 ^ places)

/-- The power of the unit behind a number; one of zero has none, and below
zero large units come first. -/
def unitRank (cs : List Char) : Int :=
  let (negative, cs) : Bool × List Char := match cs.dropWhile isBlank with
    | '-' :: rest => (true, rest)
    | rest => (false, rest)
  let inNumber (c : Char) : Bool := c.isDigit || c = '.'
  let (number, rest) := cs.span inNumber
  if !number.any fun c => c.isDigit && c ≠ '0' then 0
  else
    let letters := ['K', 'M', 'G', 'T', 'P', 'E', 'Z', 'Y', 'R', 'Q']
    let letter := match rest.head? with
      | some 'k' => 'K'
      | some c => c
      | none => ' '
    let rank : Int := match letters.findIdx? (· = letter) with
      | some k => k + 1
      | none => 0
    if negative then -rank else rank

/-- The place of a month in the year; zero for anything else. -/
def monthRank (cs : List Char) : Nat :=
  let name := String.ofList (((cs.dropWhile isBlank).take 3).map Char.toUpper)
  let names := ["JAN", "FEB", "MAR", "APR", "MAY", "JUN", "JUL", "AUG", "SEP", "OCT", "NOV", "DEC"]
  match names.findIdx? (· = name) with
  | some k => k + 1
  | none => 0

/-- The class of a floating number: what is none comes first, then what was
no result of a computation, then all others from the least to the greatest. -/
def floatingClass : Option Text.Floating → Nat
  | none => 0
  | some (.notANumber _) => 1
  | some (.infinite true) => 2
  | some (.finite ..) => 3
  | some (.infinite false) => 4

/-- Compares floating numbers. -/
def compareFloating (a b : List Char) : Ordering :=
  let read (cs : List Char) : Option Text.Floating :=
    (Text.Floating.read? .extended cs).map (·.1)
  let a := read a
  let b := read b
  (compare (floatingClass a) (floatingClass b)).then
    (match a, b with
      | some (.finite negative n e), some (.finite negative' n' e') =>
        let least := min e e'
        let value (negative : Bool) (n : Nat) (e : Int) : Int :=
          (if negative then -1 else 1) * (n * 2 ^ (e - least).toNat : Nat)
        compare (value negative n e) (value negative' n' e')
      | _, _ => .eq)

/-- Compares the characters of texts, as letters say: `d` leaves out what is
no letter, digit or blank, `i` what can not be printed, and `f` makes all
letters capital. -/
def compareCharacters (letters : List Char) (a b : List Char) : Ordering :=
  let prepare (cs : List Char) : List Char :=
    let cs :=
      if 'd' ∈ letters then cs.filter fun c => isBlank c || c.isAlphanum
      else if 'i' ∈ letters then cs.filter fun c => ' ' ≤ c && c ≤ '~'
      else cs
    if 'f' ∈ letters then cs.map Char.toUpper else cs
  compare (prepare a) (prepare b)

/-- Compares texts as letters say. -/
def compareBy (letters : List Char) (a b : List Char) : Ordering :=
  let order := match Measure.ofLetters letters with
    | .characters => compareCharacters letters a b
    | .numbers => compareNumbers a b
    | .floating => compareFloating a b
    | .sizes => (compare (unitRank a) (unitRank b)).then (compareNumbers a b)
    | .months => compare (monthRank a) (monthRank b)
    | .versions => Text.Version.compareNames (String.ofList a) (String.ofList b)
  if 'r' ∈ letters then order.swap else order

/-! ## Keys -/

/-- A part of a line that lines are compared by: from a character of a field
on, both counted from zero, up to the end of a field or to a character of
it. -/
structure SortKey where
  start : Option (Nat × Nat) := none
  /-- The field, and how many characters of it belong to the key; zero are
  all of them. -/
  finish : Option (Nat × Nat) := none
  skipsAtStart : Bool := false
  skipsAtFinish : Bool := false
  letters : List Char := []

/-- Goes over `count` fields, and over their separators where there is one. -/
def dropFields (separator : Option Char) : (count : Nat) → List Char → List Char
  | 0, cs => cs
  | count + 1, cs =>
    dropFields separator count (match separator with
      | some c => (cs.dropWhile (· ≠ c)).drop 1
      | none => (cs.dropWhile isBlank).dropWhile (!isBlank ·))

/-- What is left of a line behind the end of a key. -/
def behindFinish (separator : Option Char) (key : SortKey) (line : List Char) : List Char :=
  match key.finish with
  | none => []
  | some (field, 0) =>
    let rest := dropFields separator field line
    match separator with
    | some c => rest.dropWhile (· ≠ c)
    | none => dropFields none 1 rest
  | some (field, count) =>
    let rest := dropFields separator field line
    (if key.skipsAtFinish then rest.dropWhile isBlank else rest).drop count

/-- The part of a line that a key is about. -/
def SortKey.part (separator : Option Char) (key : SortKey) (line : List Char) : List Char :=
  let rest := match key.start with
    | none => if key.skipsAtStart then line.dropWhile isBlank else line
    | some (field, skipped) =>
      let rest := dropFields separator field line
      (if key.skipsAtStart then rest.dropWhile isBlank else rest).drop skipped
  rest.take (rest.length - (behindFinish separator key line).length)

/-- The letters that can stand behind a position of a key. -/
def orderLetters : List Char := ['d', 'f', 'g', 'h', 'i', 'M', 'n', 'R', 'r', 'V']

/-- Reads a number of a key. -/
def readNumber (fault : String) (cs : List Char) : Except String (Nat × List Char) :=
  let (digits, rest) := cs.span Char.isDigit
  if digits = [] then
    .error s!"{fault}: invalid count at start of {Quoted.plain (String.ofList cs)}"
  else .ok (Text.natOfDigits digits, rest)

/-- Takes up the letters behind a position; `b` skips the blanks there. -/
def readLetters (atStart : Bool) (key : SortKey) : List Char → SortKey × List Char
  | [] => (key, [])
  | 'b' :: rest =>
    readLetters atStart
      (if atStart then { key with skipsAtStart := true } else { key with skipsAtFinish := true })
      rest
  | c :: rest =>
    if orderLetters.contains c then
      readLetters atStart { key with letters := key.letters ++ [c] } rest
    else (key, c :: rest)

/-- Reads a key such as `2,3n` or `1.4`. -/
def readKey (text : String) : Except String SortKey := do
  let bad (fault : String) : Except String SortKey :=
    .error s!"{fault}: invalid field specification {Quoted.plain text}"
  let (field, rest) ← readNumber "invalid number at field start" text.toList
  if field = 0 then bad "field number is zero"
  else
    let (character, rest) ← match rest with
      | '.' :: rest => readNumber "invalid number after '.'" rest
      | _ => .ok (1, rest)
    if character = 0 then bad "character offset is zero"
    else
      let start := if field = 1 ∧ character = 1 then none else some (field - 1, character - 1)
      let (key, rest) := readLetters true { start } rest
      match rest with
      | ',' :: rest => do
        let (last, rest) ← readNumber "invalid number after ','" rest
        if last = 0 then bad "field number is zero"
        else
          let (count, rest) ← match rest with
            | '.' :: rest => readNumber "invalid number after '.'" rest
            | _ => .ok (0, rest)
          let (key, rest) := readLetters false { key with finish := some (last - 1, count) } rest
          if rest = [] then return key else bad "stray character in field spec"
      | [] => return key
      | _ => bad "stray character in field spec"

/-- Whether a key says nothing about how it is compared. -/
def SortKey.isSilent (key : SortKey) : Bool :=
  key.letters = [] && !key.skipsAtStart && !key.skipsAtFinish

/-- The letters of a key that exclude one another, if there are such. -/
def SortKey.conflict? (key : SortKey) : Option String :=
  let has (c : Char) : Bool := key.letters.contains c
  let kinds := [has 'n', has 'g', has 'h', has 'M', has 'V' || has 'R' || has 'd' || has 'i']
  if (kinds.filter id).length ≤ 1 then none
  else
    some (String.ofList (orderLetters.filter fun c =>
      has c && c ≠ 'r' && !(c = 'i' && has 'd')))

/-! ## Ordering lines -/

/-- How lines are ordered. -/
structure Setting where
  separator : Option Char := none
  keys : List SortKey := []
  /-- Lines that no key tells apart are in the opposite order, too. -/
  reversed : Bool := false
  /-- Lines that no key tells apart stay as they are. -/
  stable : Bool := false
  unique : Bool := false

/-- Compares two lines by all keys. -/
def Setting.compareKeys (s : Setting) (a b : String) : Ordering :=
  s.keys.foldl (fun order key =>
    match order with
    | .eq => compareBy key.letters (key.part s.separator a.toList) (key.part s.separator b.toList)
    | decided => decided) .eq

/-- Compares two lines. -/
def Setting.compare (s : Setting) (a b : String) : Ordering :=
  let byKeys := s.compareKeys a b
  if s.keys ≠ [] ∧ (s.stable ∨ s.unique) then byKeys
  else byKeys.then (if s.reversed then Ord.compare b a else Ord.compare a b)

/-- Keeps the first of lines that are equal. -/
def Setting.single (s : Setting) : List String → List String
  | [] => []
  | line :: rest => line :: go line rest
where
  go (last : String) : List String → List String
    | [] => []
    | line :: rest => if s.compare last line = .eq then go last rest else line :: go line rest

/-- The lines in order. -/
def Setting.sort (s : Setting) (lines : List String) : List String :=
  let sorted := lines.mergeSort fun a b => (s.compare a b).isLE
  if s.unique then s.single sorted else sorted

/-- Takes the least of the first lines of several lists again and again; of
equal ones that of the first list. `count` bounds the number of lines. -/
def Setting.merge (s : Setting) : (count : Nat) → List (List String) → List String
  | 0, _ => []
  | count + 1, lists =>
    let lists := lists.filter (· ≠ [])
    let heads := (lists.map fun lines => lines.headD "").zipIdx
    match heads with
    | [] => []
    | first :: rest =>
      let (line, place) := rest.foldl (fun least head =>
        if s.compare head.1 least.1 = .lt then head else least) first
      line :: s.merge count (lists.modify place List.tail)

/-- The first line that is out of order, with its number. -/
def Setting.disorder? (s : Setting) : (number : Nat) → List String → Option (Nat × String)
  | _, [] | _, [_] => none
  | number, a :: b :: rest =>
    let order := s.compare a b
    if order = .gt ∨ (s.unique ∧ order = .eq) then some (number + 1, b)
    else s.disorder? (number + 1) (b :: rest)

/-- The setting that options ask for. Keys that say nothing are compared as
the options say. -/
def Setting.ofOptions (options : List GivenOption) (separator : Option Char) :
    Except String Setting := do
  let letters := (options.map (·.1)).filter orderLetters.contains
  let skips := hasOption options 'b'
  let usual : SortKey := { letters, skipsAtStart := skips, skipsAtFinish := skips }
  let given ← options.filterMapM fun (c, value) => do
    if c = 'k' then return some (← readKey (value.getD "")) else return none
  let keys := given.map fun key =>
    if key.isSilent then
      { key with letters, skipsAtStart := skips, skipsAtFinish := skips }
    else key
  let onlyReversed := !skips && letters.all (· = 'r')
  let keys := if keys = [] ∧ !onlyReversed then [usual] else keys
  match keys.findSome? SortKey.conflict? with
  | some letters => .error s!"options '-{letters}' are incompatible"
  | none =>
    return { separator, keys, reversed := letters.contains 'r', stable := hasOption options 's'
             unique := hasOption options 'u' }

end Order

/-- The separator that the value of an option asks for. -/
def sortSeparator (i : Invocation) (text : String) : Action Char := do
  match text.toList with
  | [c] => return c
  | ['\\', '0'] => return '\x00'
  | [] => die i.name "empty tab" 2
  | _ => die i.name s!"multi-character tab {Quoted.plain text}" 2

/-- Prints all lines in order, or checks whether they are. -/
def sort (i : Invocation) : Action Unit := do
  let (options, operands) ← i.options
    { flags := "bcCdfghimMnRrsuVz", valued := "koStT", attached := "K", longValued := "PBXDEF"
      long := [("ignore-leading-blanks", 'b'), ("check", 'K'), ("dictionary-order", 'd'),
        ("ignore-case", 'f'), ("general-numeric-sort", 'g'), ("human-numeric-sort", 'h'),
        ("ignore-nonprinting", 'i'), ("key", 'k'), ("merge", 'm'), ("month-sort", 'M'),
        ("numeric-sort", 'n'), ("output", 'o'), ("reverse", 'r'), ("stable", 's'),
        ("buffer-size", 'S'), ("field-separator", 't'), ("temporary-directory", 'T'),
        ("unique", 'u'), ("version-sort", 'V'), ("zero-terminated", 'z'), ("parallel", 'P'),
        ("batch-size", 'B'), ("compress-program", 'X'), ("sort", 'D')] } 2
  let options ← options.mapM fun (c, value) => do
    match c, value with
    | 'K', none => return ('c', none)
    | 'K', some text =>
      return (← chooseFrom i "check" text
        [("quiet", 'C'), ("silent", 'C'), ("diagnose-first", 'c')], none)
    | 'D', some text =>
      return (← chooseFrom i "sort" text
        [("general-numeric", 'g'), ("human-numeric", 'h'), ("month", 'M'), ("numeric", 'n'),
          ("random", 'R'), ("version", 'V')], none)
    | c, value => return (c, value)
  let separators ← (options.filter (·.1 = 't')).mapM fun (_, text) =>
    sortSeparator i (text.getD "")
  if separators.any (some · ≠ separators.head?) then die i.name "incompatible tabs" 2
  let checks := hasOption options 'c'
  let checksSilently := hasOption options 'C'
  match Order.Setting.ofOptions options separators.head? with
  | .error fault => die i.name fault 2
  | .ok s => do
    let newline := if hasOption options 'z' then "\x00" else "\n"
    let output := optionValue? options 'o'
    if checks && checksSilently then die i.name "options '-cC' are incompatible" 2
    let inputs := if operands = [] then ["-"] else operands
    if checks || checksSilently then
      let letter := if checks then "c" else "C"
      if let _ :: extra :: _ := inputs then
        die i.name s!"extra operand {Quoted.plain extra} not allowed with -{letter}" 2
      if output.isSome then die i.name s!"options '-{letter}o' are incompatible" 2
      let input := inputs.headD "-"
      match s.disorder? 1 (← collect i newline inputs).flatten with
      | none => Action.exit 0
      | some (number, line) =>
        if checks then complainAs i.name s!"{input}:{number}: disorder: {line}"
        Action.exit 1
    else
      for input in inputs do
        if input ≠ "-" then
          if let .error cause ← Action.facts (.ofOctets input) then
            die i.name (s!"cannot read: {Quoted.forShell input}: " ++ errorWords cause) 2
      let lists ← collect i newline inputs
      let lines := if hasOption options 'm' then
          let merged := s.merge (lists.map List.length).sum lists
          if s.unique then s.single merged else merged
        else s.sort lists.flatten
      let text := joinLines lines newline
      match output with
      | none => sayLast i text
      | some path =>
        match ← Action.openFile (.ofOctets path) .output with
        | .ok fd => let _ ← Action.writeAll fd (.ofOctets text)
        | .error cause =>
          die i.name (s!"open failed: {Quoted.forShell path}: " ++ errorWords cause) 2
where
  /-- The lines of every input. -/
  collect (i : Invocation) (newline : String) : List String → Action (List (List String))
    | [] => return []
    | input :: rest => do
      match ← openInput input with
      | .error cause =>
        die i.name (s!"open failed: {Quoted.forShell input}: " ++ errorWords cause) 2
      | .ok fd =>
        let data ← Action.readAll fd
        closeInput fd
        match data with
        | .error cause =>
          die i.name (s!"read failed: {Quoted.forShell input}: " ++ errorWords cause) 2
        | .ok data =>
          return (splitLines data.octets newline).1 :: (← collect i newline rest)
  /-- Writes everything at once. -/
  sayLast (i : Invocation) (text : String) : Action Unit := do
    if let .error cause ← Action.writeAll 1 (.ofOctets text) then
      complainAs i.name ("fflush failed: 'standard output': " ++ errorWords cause)
      die i.name "write error" 2

end JobShell.Tool
