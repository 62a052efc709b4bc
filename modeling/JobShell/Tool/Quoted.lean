import JobShell.Text.Bytes

/-!
# Quoted names

How programs show names in their messages. `Quoted.forShell` shows a name so
that a shell reads it back as one word, and leaves out the quotes where they
are not needed; `Quoted.plain` puts it between apostrophes and escapes what
is not printable.
-/

namespace JobShell.Tool.Quoted

/-- The letter that stands for a control character behind a backslash. -/
def escapeLetter? (c : Char) : Option Char :=
  [('\x07', 'a'), ('\x08', 'b'), ('\x0c', 'f'), ('\n', 'n'), ('\r', 'r'), ('\t', 't'),
   ('\x0b', 'v')].lookup c

/-- Whether an octet is a printable character. -/
def isPrintable (c : Char) : Bool := ' ' ≤ c && c ≤ '~'

/-- The digits that stand for an octet behind a backslash. -/
def octalDigits (c : Char) : List Char :=
  let digits := Nat.toDigits 8 c.toNat
  List.replicate (3 - digits.length) '0' ++ digits

/-- What stands for a character that can not be shown as it is. -/
def escape? (c : Char) : Option (List Char) :=
  match escapeLetter? c with
  | some letter => some ['\\', letter]
  | none => if isPrintable c then none else some ('\\' :: octalDigits c)

/-- Characters with a meaning for shells wherever they stand. -/
def isMeta (c : Char) : Bool :=
  [' ', '!', '"', '$', '&', '(', ')', '*', ';', '<', '=', '>', '?', '[', '\\', '^',
   Char.ofNat 96, '|', '\''].contains c

/-- Whether a name has to be quoted. Some characters have a meaning only at
its beginning, and braces only where they are all of it. A name in front of
a colon must not contain any. -/
def needsQuotes (beforeColon : Bool) (name : List Char) : Bool :=
  match name with
  | [] => true
  | [c] => isSpecial c || c = '#' || c = '~' || c = Char.ofNat 123 || c = Char.ofNat 125
  | c :: rest => c = '#' || c = '~' || (c :: rest).any isSpecial
where
  isSpecial (c : Char) : Bool := isMeta c || (escape? c).isSome || (beforeColon && c = ':')

/-- Whether a character means the same between double quotes and between
apostrophes, wherever it stands. -/
def isPlain (c : Char) : Bool :=
  c.isAlphanum || [' ', '\'', '%', '+', ',', '-', '.', '/', ':', ']', '_', '@'].contains c

/-- Whether a name can stand between double quotes as it is. -/
def fitsDoubleQuotes : List Char → Bool
  | [] => true
  | c :: rest => (isPlain c || c = '#' || c = '~') && rest.all isPlain

/-- The inside of a name between apostrophes. Escapes stand between special
ones, as in `'$'\n''`; the flag says whether those are open. -/
def insideQuotes : (escaping : Bool) → List Char → List Char
  | _, [] => []
  | escaping, c :: rest =>
    match escape? c with
    | some text =>
      (if escaping then text else '\'' :: '$' :: '\'' :: text) ++ insideQuotes true rest
    | none =>
      if c = '\'' then '\'' :: '\\' :: '\'' :: '\'' :: insideQuotes false rest
      else (if escaping then ['\'', '\''] else []) ++ c :: insideQuotes false rest

/-- A name between quotes that shells understand. -/
def always (name : String) : String :=
  let cs := name.toList
  if cs.contains '\'' ∧ fitsDoubleQuotes cs then "\"" ++ name ++ "\""
  else "'" ++ String.ofList (insideQuotes false cs) ++ "'"

/-- A name, between quotes if a shell needs them. -/
def forShell (name : String) (beforeColon : Bool := true) : String :=
  if needsQuotes beforeColon name.toList then always name else name

/-- A name that would not stay on one line, quoted for a shell. -/
def ifBroken (name : String) : String := if name.contains '\n' then forShell name else name

/-- A name between apostrophes. -/
def plain (name : String) : String :=
  let inside := name.toList.flatMap fun c =>
    if c = '\'' ∨ c = '\\' then ['\\', c] else (escape? c).getD [c]
  "'" ++ String.ofList inside ++ "'"

end JobShell.Tool.Quoted
