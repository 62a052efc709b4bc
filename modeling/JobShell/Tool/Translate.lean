import JobShell.Tool.Format
import JobShell.Text.Regex.Reader

/-!
# Translating characters

`tr` replaces, removes and squeezes characters. It is told which by sets:
sequences of characters that are written out, or as ranges, as classes or as
repetitions of one of them.
-/

namespace JobShell.Tool

open Machine (Action)

namespace Charset

/-- A part of a set. -/
inductive Item
  | char (c : Char)
  | range (low high : Char)
  | named (name : String)
  | same (c : Char)
  /-- As often as is needed, if no number is given. -/
  | repeated (c : Char) (count : Option Nat)

/-- A character of a written set. An escaped one has no special meaning. -/
structure Written where
  char : Char
  escaped : Bool := false

/-- Whether a written character is `c` with its special meaning. -/
def Written.is (w : Written) (c : Char) : Bool := w.char = c && !w.escaped

/-- Resolves the escapes of a written set; the texts are warnings. -/
def resolve : (length : Nat) → List Char → List Written × List String
  | 0, _ | _, [] => ([], [])
  | _, ['\\'] =>
    ([{ char := '\\' }], ["an unescaped backslash at end of string is not portable"])
  | length + 1, '\\' :: c :: rest =>
    if '0' ≤ c ∧ c ≤ '7' then
      let (n, left) := Format.readDigits 8 3 0 (c :: rest)
      if n < 256 then
        let (ws, warnings) := resolve length left
        ({ char := Char.ofNat n, escaped := true } :: ws, warnings)
      else
        let (n, left) := Format.readDigits 8 2 0 (c :: rest)
        let digits := String.ofList ((c :: rest).take 2)
        let third := left.headD '0'
        let (ws, warnings) := resolve length left
        ({ char := Char.ofNat n, escaped := true } :: ws,
          (s!"the ambiguous octal escape \\{digits}{third} is being\n\tinterpreted " ++
            s!"as the 2-byte sequence \\0{digits}, {third}") :: warnings)
    else
      let letter := if c = 'e' then c else (Format.letterEscape? c).getD c
      let (ws, warnings) := resolve length rest
      ({ char := letter, escaped := true } :: ws, warnings)
  | length + 1, c :: rest =>
    let (ws, warnings) := resolve length rest
    ({ char := c } :: ws, warnings)

/-- A character in a message. -/
def shown (c : Char) : String :=
  if Quoted.isPrintable c then c.toString else String.ofList ('\\' :: Quoted.octalDigits c)

/-- A count in a repetition. One that begins with a zero is octal. -/
def repeatCount (digits : String) : Except String (Option Nat) :=
  let base := if digits.toList.head? = some '0' then 8 else 10
  let (n, rest) := Format.readDigits base digits.length 0 digits.toList
  if digits = "" then .ok none
  else if rest = [] then .ok (if n = 0 then none else some n)
  else .error s!"invalid repeat count {Quoted.plain digits} in [c*n] construct"

/-- A repetition behind its bracket, and what follows it. -/
def readRepeat (ws : List Written) : Except String (Option (Item × List Written)) :=
  match ws with
  | c :: star :: rest =>
    if !star.is '*' then .ok none
    else
      let (digits, rest) := rest.span fun w => !w.escaped && w.char ≠ ']'
      match rest with
      | close :: rest =>
        if close.is ']' then do
          let count ← repeatCount (String.ofList (digits.map (·.char)))
          return some (.repeated c.char count, rest)
        else .ok none
      | [] => .ok none
  | _ => .ok none

/-- A class behind its bracket and mark, up to the mark and bracket that end
it. -/
def readNamed (mark : Char) : List Written → Option (String × List Written)
  | a :: b :: rest =>
    if a.is mark ∧ b.is ']' then some ("", rest)
    else (readNamed mark (b :: rest)).map fun (name, rest) => (a.char.toString ++ name, rest)
  | _ => none

/-- The item of a class. -/
def namedItem (mark : Char) (name : String) : Except String Item :=
  if mark = ':' then
    if name = "" then .error "missing character class name '[::]'"
    else if Text.Regex.classRanges name = [] then
      .error s!"invalid character class {Quoted.plain name}"
    else .ok (.named name)
  else
    match name.toList with
    | [] => .error "missing equivalence class character '[==]'"
    | [c] => .ok (.same c)
    | _ => .error s!"{name}: equivalence class operand must be a single character"

/-- Reads the items of a written set. -/
def readItems : (length : Nat) → List Written → Except String (List Item)
  | 0, _ => .ok []
  | length + 1, a :: b :: c :: rest => do
    let bracketed : Option (Item × List Written) ←
      if !a.is '[' then pure none
      else
        let named := if b.is ':' ∨ b.is '=' then readNamed b.char (c :: rest) else none
        match named, ← readRepeat (b :: c :: rest) with
        | some (name, left), repetition =>
          match namedItem b.char name, repetition with
          | .ok item, _ => pure (some (item, left))
          | .error _, some found => pure (some found)
          | .error fault, none => .error fault
        | none, repetition => pure repetition
    match bracketed with
    | some (item, rest) => return item :: (← readItems length rest)
    | none =>
      if b.is '-' then
        if c.char < a.char then
          .error (s!"range-endpoints of '{shown a.char}-{shown c.char}' are in reverse " ++
            "collating sequence order")
        else return .range a.char c.char :: (← readItems length rest)
      else return .char a.char :: (← readItems length (b :: c :: rest))
  | _, ws => .ok (ws.map fun w => .char w.char)

/-- All octets, ascending. -/
def octets : List Char := (List.range 256).map Char.ofNat

/-- The octets of a named class. -/
def classMembers (name : String) : List Char :=
  octets.filter fun c => (Text.Regex.classRanges name).any fun (low, high) => low ≤ c && c ≤ high

/-- The characters of an item; `fill` is how often a repetition without a
number is taken. -/
def Item.members (fill : Nat) : Item → List Char
  | .char c | .same c => [c]
  | .range low high => octets.filter fun c => low ≤ c && c ≤ high
  | .named name => classMembers name
  | .repeated c count => List.replicate (count.getD fill) c

/-- The characters of a set that is to be `size` long. -/
def members (items : List Item) (size : Nat) : List Char :=
  let fixed := (items.flatMap (·.members 0)).length
  items.flatMap (·.members (size - fixed))

/-- Where the case classes of a set begin. -/
def caseClasses (items : List Item) (size : Nat) : List (Nat × String) :=
  let fixed := (items.flatMap (·.members 0)).length
  (items.foldl (fun (at_, found) item =>
    let found := match item with
      | .named name => if name = "lower" ∨ name = "upper" then (at_, name) :: found else found
      | _ => found
    (at_ + (item.members (size - fixed)).length, found)) (0, [])).2

/-- What is wrong with the sets of a translation. -/
def translationFault? (first second : List Item) (size : Nat) (complement truncate : Bool) :
    Option String :=
  let isNamed : Item → Bool
    | .named _ => true
    | _ => false
  let isRestricted : Item → Bool
    | .named name => name ≠ "lower" && name ≠ "upper"
    | _ => false
  let isSame : Item → Bool
    | .same _ => true
    | _ => false
  let replacement := members second size
  let aligned := (caseClasses second size).all fun (at_, _) =>
    (caseClasses first 0).any (·.1 = at_)
  if second.any isSame then some "[=c=] expressions may not appear in string2 when translating"
  else if second.any isRestricted then
    some ("when translating, the only character classes that may appear in\n" ++
      "string2 are 'upper' and 'lower'")
  else if !complement && !aligned then
    some "misaligned [:upper:] and/or [:lower:] construct"
  else if replacement.length < size && !truncate then
    if replacement = [] then some "when not truncating set1, string2 must be non-empty"
    else if (second.getLast?).any isNamed then
      some ("when translating with string1 longer than string2,\n" ++
        "the latter string must not end with a character class")
    else none
  else none

/-- What is wrong with two sets. -/
def fault? (first second : List Item) (size : Nat) (translating complement truncate : Bool) :
    Option String :=
  let isOpen : Item → Bool
    | .repeated _ none => true
    | _ => false
  if first.any isOpen then some "the [c*] repeat construct may not appear in string1"
  else if (second.filter isOpen).length > 1 then
    some "only one [c*] repeat construct may appear in string2"
  else if !translating then
    if second.any isOpen then some "the [c*] construct may appear in string2 only when translating"
    else none
  else
    match translationFault? first second size complement truncate with
    | some fault => some fault
    | none =>
      let isNamed : Item → Bool
        | .named _ => true
        | _ => false
      let replacement := members second size
      if complement && first.any isNamed && replacement.any (· ≠ replacement.headD ' ') then
        some ("when translating with complemented character classes,\n" ++
          "string2 must map all characters in the domain to one")
      else none

end Charset

/-- Leaves out repetitions of the characters that `squeezed` holds. -/
def squeeze (squeezed : Char → Bool) : Option Char → List Char → List Char
  | _, [] => []
  | last, c :: rest =>
    if last = some c ∧ squeezed c then squeeze squeezed last rest
    else c :: squeeze squeezed (some c) rest

/-- What is done to every character. -/
structure Translation where
  table : Array Char
  deleted : Array Bool
  squeezed : Array Bool

namespace Translation

/-- A table of the characters in a list. -/
def tableOf (cs : List Char) : Array Bool :=
  cs.foldl (fun table c => table.setIfInBounds c.toNat true) (Array.replicate 256 false)

/-- The table that replaces the characters of one list by those at the same
places of another. -/
def replacing (pairs : List (Char × Char)) : Array Char :=
  pairs.foldl (fun table (a, b) => table.setIfInBounds a.toNat b) Charset.octets.toArray

/-- Translates a block; `last` is the last character that was written. -/
def run (t : Translation) (last : Option Char) (block : Bytes) : Option Char × List Char :=
  let cs := block.map fun b => Char.ofNat b.toNat
  let cs := cs.filter fun c => !(t.deleted[c.toNat]?).getD false
  let cs := cs.map fun c => (t.table[c.toNat]?).getD c
  let output := squeeze (fun c => (t.squeezed[c.toNat]?).getD false) last cs
  (if output = [] then last else output.getLast?, output)

end Translation

/-- Replaces, removes and squeezes characters. -/
def tr (i : Invocation) : Action Unit := do
  let (options, operands) ← i.options
    { flags := "AcCdst",
      long := [("complement", 'c'), ("delete", 'd'), ("squeeze-repeats", 's'),
        ("truncate-set1", 't')] } 1 true
  let delete := hasOption options 'd'
  let squeezes := hasOption options 's'
  let complement := hasOption options 'c' || hasOption options 'C'
  let least := if delete = squeezes then 2 else 1
  let most := if delete && !squeezes then 1 else 2
  if operands = [] then misused i "missing operand"
  if operands.length < least then
    misused i ("missing operand after " ++ Quoted.plain (operands.getLastD "") ++ "\n" ++
      if squeezes then "Two strings must be given when both deleting and squeezing repeats."
      else "Two strings must be given when translating.")
  if most < operands.length then
    misused i ("extra operand " ++ Quoted.plain ((operands.drop most).headD "") ++
      if operands.length = 2 then
        "\nOnly one string may be given when deleting without squeezing repeats."
      else "")
  let rec warn : List String → Action Unit
    | [] => return ()
    | warning :: rest => do
      complainAs i.name ("warning: " ++ warning)
      warn rest
  let read (text : String) : Action (List Charset.Item) := do
    let (written, warnings) := Charset.resolve (text.length + 1) text.toList
    warn warnings
    match Charset.readItems (written.length + 1) written with
    | .ok items => return items
    | .error fault => die i.name fault
  let first ← read (operands.headD "")
  let second ← match operands with
    | [_, text] => read text
    | _ => pure []
  let translating := operands.length = 2 && !delete
  let named := Charset.members first 0
  let set := if complement then Charset.octets.filter (!named.contains ·) else named
  if let some fault := Charset.fault? first second set.length translating complement
      (hasOption options 't') then
    die i.name fault
  let replacement := Charset.members second set.length
  let filled :=
    if hasOption options 't' then replacement
    else
      replacement ++
        List.replicate (set.length - replacement.length) (replacement.getLastD ' ')
  let translation : Translation :=
    { table := Translation.replacing (if translating then set.zip filled else [])
      deleted := Translation.tableOf (if delete then set else [])
      squeezed := Translation.tableOf
        (if !squeezes then [] else if operands.length = 2 then replacement else set) }
  let result ← Action.foldBlocks 0 (fun last block => do
    let (last, output) := translation.run last block
    say i.name (String.ofList output)
    return (last, true)) none
  match result with
  | .ok _ => Action.exit 0
  | .error cause => die i.name ("read error: " ++ errorWords cause)

end JobShell.Tool
