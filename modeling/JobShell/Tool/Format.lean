import JobShell.Text.Floating
import JobShell.Tool.Basic

/-!
# Formatted text

The language of `printf`: text with escapes, and conversions that take
arguments. The format is used again as long as there are arguments left.
There are two dialects of it, that of the builtin command of scripts and
that of the program. `Format.unescape` is the escape language, which
`echo` and conversions of kind `b` share.
-/

namespace JobShell.Tool.Format

open Text (Floating FloatFormat)

/-! ## Escapes -/

/-- The digits of a number system that `cs` begins with, at most `limit` of
them, as a number. -/
def readDigits (base : Nat) : (limit : Nat) → Nat → List Char → Nat × List Char
  | 0, n, cs => (n, cs)
  | _, n, [] => (n, [])
  | limit + 1, n, c :: cs =>
    let digit := if c.isDigit then c.toNat - 48
      else if c.isAlpha then c.toLower.toNat - 87 else base
    if digit < base then readDigits base limit (n * base + digit) cs else (n, c :: cs)

/-- The character of an escape with a letter of its own. -/
def letterEscape? (c : Char) : Option Char :=
  [('a', '\x07'), ('b', '\x08'), ('e', '\x1b'), ('f', '\x0c'), ('n', '\n'), ('r', '\r'),
   ('t', '\t'), ('v', '\x0b'), ('\\', '\\')].lookup c

/-- The octet with a number. -/
def octet (n : Nat) : Char := Char.ofNat (n % 256)

/-- Which escapes there are besides letters and octal numbers. -/
structure EscapeRules where
  /-- `\c` ends everything. -/
  stops : Bool := false
  /-- An octal number of three digits may have a zero in front. -/
  zero : Bool := false
  /-- There are hexadecimal numbers. -/
  hexadecimal : Bool := false
  /-- A hexadecimal number without digits is a fault. -/
  strict : Bool := false
  /-- `\"` is a quote. -/
  quote : Bool := false
  /-- What follows a backslash without a meaning has none either. -/
  pairs : Bool := false

namespace EscapeRules

/-- The formats of the builtin command. -/
def builtinFormat : EscapeRules := {}

/-- The arguments of the builtin commands. -/
def builtinText : EscapeRules := { stops := true, zero := true }

/-- The formats of the program. -/
def format : EscapeRules :=
  { stops := true, hexadecimal := true, strict := true, quote := true, pairs := true }

/-- The arguments of the program. -/
def text : EscapeRules := { format with zero := true }

/-- The arguments of the program `echo`. -/
def echo : EscapeRules := { stops := true, zero := true, hexadecimal := true }

end EscapeRules

/-- What an escape turns out to be. -/
inductive Escape
  | text (cs : List Char) (rest : List Char)
  | stop
  | missingDigits
  | badCharacter (letter : Char) (n : Nat)

/-- A character by its number. One that is not ASCII stays an escape. -/
def universal (letter : Char) (n : Nat) (rest : List Char) : Escape :=
  if 0xD800 ≤ n ∧ n ≤ 0xDFFF then .badCharacter letter n
  else if n < 128 then .text [Char.ofNat n] rest
  else
    let digits := (Nat.toDigits 16 n).map Char.toUpper
    let (letter, width) : Char × Nat := if n < 0x10000 then ('u', 4) else ('U', 8)
    .text ('\\' :: letter :: List.replicate (width - digits.length) '0' ++ digits) rest

/-- Reads an escape behind its backslash. -/
def readEscape (rules : EscapeRules) : List Char → Escape
  | [] => .text ['\\'] []
  | c :: rest =>
    let bare : Escape := if rules.pairs then .text ['\\', c] rest else .text ['\\'] (c :: rest)
    match letterEscape? c with
    | some letter => .text [letter] rest
    | none =>
      if rules.stops ∧ c = 'c' then .stop
      else if rules.quote ∧ c = '"' then .text ['"'] rest
      else if '0' ≤ c ∧ c ≤ '7' then
        let digits := if rules.zero ∧ c = '0' then rest else c :: rest
        let (n, rest) := readDigits 8 3 0 digits
        .text [octet n] rest
      else if rules.hexadecimal ∧ c = 'x' then
        let (n, left) := readDigits 16 2 0 rest
        if left.length < rest.length then .text [octet n] left
        else if rules.strict then .missingDigits
        else bare
      else if rules.strict ∧ (c = 'u' ∨ c = 'U') then
        let size := if c = 'u' then 4 else 8
        let (n, left) := readDigits 16 size 0 rest
        if left.length + size = rest.length then universal c n left else .missingDigits
      else bare

/-- How a text with escapes ends. -/
inductive Ending
  | whole
  | stopped
  | missingDigits
  | badCharacter (letter : Char) (n : Nat)
  deriving DecidableEq

/-- Resolves the escapes of a text. -/
def unescape (rules : EscapeRules) : (length : Nat) → List Char → List Char × Ending
  | 0, cs => (cs, .whole)
  | _, [] => ([], .whole)
  | length + 1, '\\' :: rest =>
    match readEscape rules rest with
    | .text first rest =>
      let (text, ending) := unescape rules length rest
      (first ++ text, ending)
    | .stop => ([], .stopped)
    | .missingDigits => ([], .missingDigits)
    | .badCharacter letter n => ([], .badCharacter letter n)
  | length + 1, c :: rest =>
    let (text, ending) := unescape rules length rest
    (c :: text, ending)

/-- A string with its escapes resolved. -/
def resolve (rules : EscapeRules) (text : String) : String × Ending :=
  let (cs, ending) := unescape rules (text.length + 1) text.toList
  (String.ofList cs, ending)

/-! ## Formats -/

/-- The dialects. -/
inductive Dialect
  | builtin
  | program
  deriving DecidableEq

/-- A width or a precision: written in the format, or an argument. -/
inductive Measure
  | missing
  | written (n : Nat)
  | argument

/-- A part of a format. -/
inductive Piece
  | text (cs : List Char)
  | conversion (flags : List Char) (width precision : Measure) (letter : Char)
  /-- A conversion that there is not, or one without its letter. -/
  | refused (written : List Char) (finished : Bool)
  /-- An escape that is a fault or ends everything. -/
  | ending (e : Ending)

/-- A width or a precision at the beginning of `cs`. -/
def readMeasure : List Char → Measure × List Char
  | '*' :: rest => (.argument, rest)
  | cs =>
    let (n, rest) := readDigits 10 cs.length 0 cs
    (if rest.length < cs.length then .written n else .missing, rest)

/-- The letters of conversions to numbers with a sign, without one, and to
floating numbers. -/
def signedLetters : List Char := ['d', 'i']
def unsignedLetters : List Char := ['o', 'u', 'x', 'X']
def floatingLetters : List Char := ['a', 'A', 'e', 'E', 'f', 'F', 'g', 'G']

/-- Whether the program has a conversion with these flags. -/
def isAllowed (flags : List Char) (precise : Bool) (letter : Char) : Bool :=
  let any (letters : List Char) : Bool := letters.contains letter
  (any (['s', 'c'] ++ signedLetters ++ unsignedLetters ++ floatingLetters)) &&
    !((flags.contains '\'' || flags.contains 'I') &&
      any ['a', 'A', 'c', 'e', 'E', 'o', 's', 'x', 'X']) &&
    !(flags.contains '#' && any ['c', 'd', 'i', 's', 'u']) &&
    !(flags.contains '0' && any ['c', 's']) &&
    !(precise && letter = 'c')

/-- Whether the builtin command has a conversion. -/
def isBuiltinLetter (letter : Char) : Bool :=
  (['s', 'b', 'c'] ++ signedLetters ++ unsignedLetters ++ floatingLetters).contains letter

/-- Reads a conversion behind its percent sign. -/
def readConversion (dialect : Dialect) (whole : List Char) : Piece × List Char :=
  let program := dialect = .program
  match whole with
  | 'b' :: rest => (.conversion [] .missing .missing 'b', rest)
  | _ =>
    if program ∧ whole.head? = some 'q' then
      (.conversion [] .missing .missing 'q', whole.drop 1)
    else
      let isFlag (c : Char) : Bool :=
        ['-', '+', ' ', '#', '0'].contains c || (program && (c = '\'' || c = 'I'))
      let (flags, rest) := whole.span isFlag
      let (width, rest) := readMeasure rest
      let (precision, rest) : Measure × List Char := match rest with
        | '.' :: rest =>
          match readMeasure rest with
          | (.missing, rest) => (.written 0, rest)
          | read => read
        | rest => (.missing, rest)
      let precise := match precision with
        | .missing => false
        | _ => true
      let isSize (c : Char) : Bool := ['l', 'h', 'j', 'z', 't', 'L'].contains c
      let rest := if program then rest.dropWhile isSize else rest
      match rest with
      | [] => (.refused ('%' :: whole) false, [])
      | letter :: rest =>
        let known := if program then isAllowed flags precise letter else isBuiltinLetter letter
        if known then (.conversion flags width precision letter, rest)
        else (.refused ('%' :: whole.take (whole.length - rest.length)) true, rest)

/-- The rules for the escapes in formats of a dialect. -/
def Dialect.formatRules : Dialect → EscapeRules
  | .builtin => .builtinFormat
  | .program => .format

/-- The rules for the escapes in arguments of a dialect. -/
def Dialect.textRules : Dialect → EscapeRules
  | .builtin => .builtinText
  | .program => .text

/-- Cuts a format into its pieces. -/
def pieces (dialect : Dialect) : (length : Nat) → List Char → List Piece
  | 0, _ => []
  | _, [] => []
  | length + 1, '%' :: '%' :: rest => .text ['%'] :: pieces dialect length rest
  | length + 1, '%' :: rest =>
    match readConversion dialect rest with
    | (.refused written finished, _) => [.refused written finished]
    | (piece, rest) => piece :: pieces dialect length rest
  | length + 1, '\\' :: rest =>
    match readEscape dialect.formatRules rest with
    | .text cs rest => .text cs :: pieces dialect length rest
    | .stop => [.ending .stopped]
    | .missingDigits => [.ending .missingDigits]
    | .badCharacter letter n => [.ending (.badCharacter letter n)]
  | length + 1, c :: rest => .text [c] :: pieces dialect length rest

/-! ## Arguments -/

/-- What is wrong with an argument or with the format. -/
inductive Fault
  | notNumeric (argument : String)
  | incomplete (argument : String)
  | outOfRange (argument : String)
  /-- Characters behind the one whose number was asked for. -/
  | ignored (text : String)
  | refused (written : String) (finished : Bool)
  | missingDigits
  | badCharacter (letter : Char) (n : Nat)
  | fieldWidth (argument : String)
  /-- Arguments that the format has no use for. -/
  | excess (argument : String)

/-- Whether a fault is one that nothing follows. -/
def Fault.isFatal : Fault → Bool
  | refused .. | missingDigits | badCharacter .. | fieldWidth _ => true
  | _ => false

/-- Whether a fault is worth no more than a warning. -/
def Fault.isWarning : Fault → Bool
  | ignored _ | excess _ => true
  | _ => false

/-- The number that an argument denotes by its first character behind a
quote. -/
def quotedNumber? (argument : List Char) : Option (Nat × List Char) :=
  match argument with
  | q :: c :: rest => if q = '\'' ∨ q = '"' then some (c.toNat, rest) else none
  | _ => none

/-- A whole number at the beginning of a text, in the number system that its
first digits announce, and what follows. -/
def readWhole (cs : List Char) : Option (Nat × List Char) :=
  let based (base : Nat) (digits fallback : List Char) : Nat × List Char :=
    let (n, left) := readDigits base digits.length 0 digits
    if left.length < digits.length then (n, left) else (0, fallback)
  match cs with
  | '0' :: c :: rest =>
    if c = 'x' ∨ c = 'X' then some (based 16 rest (c :: rest))
    else if c = 'b' ∨ c = 'B' then some (based 2 rest (c :: rest))
    else some (based 8 (c :: rest) (c :: rest))
  | cs =>
    let (n, left) := readDigits 10 cs.length 0 cs
    if left.length < cs.length then some (n, left) else none

/-- A number that is held between two bounds, and whether it had to be. -/
def hold (low high n : Int) : Int × Bool :=
  if n < low then (low, true) else if high < n then (high, true) else (n, false)

/-- What is wrong with an argument that was read as a number. -/
def faultOf (argument : String) (outside : Bool) (rest : List Char) : Option Fault :=
  if outside then some (.outOfRange argument)
  else if rest = [] then none
  else some (.incomplete argument)

/-- Characters that numbers may have in front of them. -/
def isBlank (c : Char) : Bool := c = ' ' || ('\t' ≤ c && c ≤ '\r')

/-- The number that an argument denotes, with what is wrong with it. Without
signs a negative number stands for the one that has the same bits. -/
def readNumber (dialect : Dialect) (signed : Bool) (argument : String) : Int × Option Fault :=
  match dialect, quotedNumber? argument.toList with
  | .builtin, some (n, _) => (n, none)
  | .program, some (n, []) => (n, none)
  | .program, some (n, rest) => (n, some (.ignored (String.ofList rest)))
  | _, none =>
    if dialect = .builtin ∧ (argument = "'" ∨ argument = "\"") then (0, none)
    else
      let (negative, cs) : Bool × List Char := match argument.toList.dropWhile isBlank with
        | '-' :: rest => (true, rest)
        | '+' :: rest => (false, rest)
        | rest => (false, rest)
      match readWhole cs with
      | none => (0, if argument = "" then none else some (.notNumeric argument))
      | some (n, rest) =>
        let value : Int := if negative then -(n : Int) else n
        let (value, outside) : Int × Bool :=
          if signed then hold (-2 ^ 63) (2 ^ 63 - 1) value
          else if 2 ^ 64 ≤ n then (2 ^ 64 - 1, true)
          else (value % 2 ^ 64, false)
        (value, faultOf argument outside rest)

/-- How floating numbers are kept in a dialect. -/
def Dialect.floatFormat : Dialect → FloatFormat
  | .builtin => .double
  | .program => .extended

/-- The floating number that an argument denotes, with what is wrong with
it. -/
def readFloating (dialect : Dialect) (argument : String) : Floating × Option Fault :=
  let whole (n : Nat) : Floating := .finite false n 0
  match dialect, quotedNumber? argument.toList with
  | .builtin, some (n, _) => (whole n, none)
  | .program, some (n, []) => (whole n, none)
  | .program, some (n, rest) => (whole n, some (.ignored (String.ofList rest)))
  | _, none =>
    if dialect = .builtin ∧ (argument = "'" ∨ argument = "\"") then (.zero, none)
    else
      match Floating.read? dialect.floatFormat argument.toList with
      | none => (.zero, if argument = "" then none else some (.notNumeric argument))
      | some (value, outside, rest) => (value, faultOf argument outside rest)

/-! ## Conversions -/

/-- Fills a text up to a width. -/
def pad (flags : List Char) (width : Nat) (text : List Char) : List Char :=
  let fill := List.replicate (width - text.length) ' '
  if flags.contains '-' then text ++ fill else fill ++ text

/-- Fills a number with a mark in front up to a width: with zeros behind the
mark where `zeros` says so. -/
def padNumber (flags : List Char) (width : Nat) (zeros : Bool) (mark digits : List Char) :
    List Char :=
  if zeros ∧ flags.contains '0' ∧ !flags.contains '-' then
    mark ++ List.replicate (width - mark.length - digits.length) '0' ++ digits
  else pad flags width (mark ++ digits)

/-- The mark in front of a number with a sign. -/
def signMark (flags : List Char) (negative : Bool) : List Char :=
  if negative then ['-']
  else if flags.contains '+' then ['+']
  else if flags.contains ' ' then [' ']
  else []

/-- A whole number as a conversion shows it. -/
def showNumber (flags : List Char) (width : Nat) (precision : Option Nat) (letter : Char)
    (n : Int) : List Char :=
  let base := match letter with
    | 'o' => 8
    | 'x' | 'X' => 16
    | _ => 10
  let digits := Nat.toDigits base n.natAbs
  let digits := if letter = 'X' then digits.map Char.toUpper else digits
  let digits := if n = 0 ∧ precision = some 0 then [] else digits
  let digits := List.replicate (precision.getD 1 - digits.length) '0' ++ digits
  let alternate := flags.contains '#'
  let digits :=
    if alternate ∧ letter = 'o' ∧ digits.head? ≠ some '0' then '0' :: digits else digits
  let mark :=
    if signedLetters.contains letter then signMark flags (n < 0)
    else if alternate ∧ n ≠ 0 ∧ base = 16 then ['0', letter]
    else []
  padNumber flags width precision.isNone mark digits

/-- A floating number as a conversion shows it. -/
def showFloating (dialect : Dialect) (flags : List Char) (width : Nat) (precision : Option Nat)
    (letter : Char) (n : Floating) : List Char :=
  let style : Floating.DigitStyle := match letter.toLower with
    | 'a' => .hexadecimal
    | 'e' => .scientific
    | 'f' => .fixed
    | _ => .general
  let digits := n.digits dialect.floatFormat style precision (flags.contains '#')
  let (base, digits) := if n.isFinite ∧ style = .hexadecimal then (digits.take 2, digits.drop 2)
    else ([], digits)
  let mark := signMark flags n.isNegative ++ base
  let upper (cs : List Char) : List Char := if letter.isUpper then cs.map Char.toUpper else cs
  padNumber flags width n.isFinite (upper mark) (upper digits)

/-- The state of formatting: what was written, what is left of the
arguments, what was wrong, and whether to go on. -/
structure State where
  dialect : Dialect
  output : String := ""
  arguments : List String
  /-- Latest first. -/
  faults : List Fault := []
  stopped : Bool := false

namespace State

/-- The next argument. -/
def next (s : State) : Option String × State :=
  match s.arguments with
  | [] => (none, s)
  | a :: rest => (some a, { s with arguments := rest })

/-- Writes a text. -/
def put (s : State) (text : List Char) : State :=
  { s with output := text.foldl String.push s.output }

/-- Notes a fault. -/
def note (s : State) (fault : Option Fault) : State :=
  match fault with
  | none => s
  | some fault => { s with faults := fault :: s.faults, stopped := s.stopped || fault.isFatal }

/-- Ends because of an escape. -/
def endBy (s : State) : Ending → State
  | .whole => s
  | .stopped => { s with stopped := true }
  | .missingDigits => s.note (some .missingDigits)
  | .badCharacter letter n => s.note (some (.badCharacter letter n))

/-- A width or a precision, taken from the arguments if it is not written. -/
def measure (s : State) : Measure → Option Int × State
  | .missing => (none, s)
  | .written n => (some n, s)
  | .argument =>
    match s.next with
    | (none, s) => (some 0, s)
    | (some argument, s) =>
      let (n, fault) := readNumber s.dialect true argument
      let s := s.note fault
      if -2 ^ 31 ≤ n ∧ n < 2 ^ 31 then (some n, s) else (none, s.note (some (.fieldWidth argument)))

/-- Writes a conversion. -/
def convert (s : State) (flags : List Char) (width precision : Measure) (letter : Char) : State :=
  let (width, s) := s.measure width
  let (precision, s) := s.measure precision
  let width := width.getD 0
  let flags := if width < 0 then '-' :: flags else flags
  let width := width.natAbs
  let precision := match precision with
    | some n => if n < 0 then none else some n.toNat
    | none => none
  let (argument, s) := s.next
  let cut (cs : List Char) : List Char := match precision with
    | some n => cs.take n
    | none => cs
  if s.stopped then s
  else if letter = 's' then s.put (pad flags width (cut (argument.getD "").toList))
  else if letter = 'b' then
    let (text, ending) := resolve s.dialect.textRules (argument.getD "")
    (s.put (pad flags width (cut text.toList))).endBy ending
  else if letter = 'q' then
    match argument with
    | some argument => s.put (Quoted.forShell argument false).toList
    | none => s
  else if letter = 'c' then
    s.put (pad flags width [((argument.getD "").toList.head?).getD '\x00'])
  else if floatingLetters.contains letter then
    let (n, fault) := match argument with
      | some argument => readFloating s.dialect argument
      | none => (.zero, none)
    (s.put (showFloating s.dialect flags width precision letter n)).note fault
  else
    let (n, fault) := match argument with
      | some argument => readNumber s.dialect (signedLetters.contains letter) argument
      | none => (0, none)
    (s.put (showNumber flags width precision letter n)).note fault

/-- Writes one piece. -/
def write (s : State) (piece : Piece) : State :=
  if s.stopped then s
  else
    match piece with
    | .ending e => s.endBy e
    | .text cs => s.put cs
    | .refused written finished => s.note (some (.refused (String.ofList written) finished))
    | .conversion flags width precision letter => s.convert flags width precision letter

/-- Uses the whole format again and again, as long as that uses up
arguments. -/
def writeAll (s : State) (format : List Piece) : (rounds : Nat) → State
  | 0 => s
  | rounds + 1 =>
    let after := format.foldl write s
    if after.stopped then after
    else
      match after.arguments with
      | [] => after
      | extra :: _ =>
        if after.arguments.length = s.arguments.length then after.note (some (.excess extra))
        else writeAll after format rounds

end State

/-- Formats arguments: what is written, and the faults in their order. -/
def run (dialect : Dialect) (format : String) (arguments : List String) : String × List Fault :=
  let cs := format.toList
  let s := State.writeAll { dialect, arguments } (pieces dialect (cs.length + 1) cs)
    (arguments.length + 1)
  (s.output, s.faults.reverse)

end JobShell.Tool.Format
