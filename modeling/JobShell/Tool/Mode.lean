/-!
# Modes of files

A mode is twelve bits: three each for the owner, the group and all others,
and three in front of them. A change of modes is written as octal digits or
as clauses such as `u+x` and `go=r`.
-/

namespace JobShell.Tool.Mode

/-- The bits that are not given to new files. -/
def mask : Nat := 0o022

/-- The bits of a mode that belong to a letter for who is meant. -/
def whoBits? (c : Char) : Option Nat :=
  [('u', 0o4700), ('g', 0o2070), ('o', 0o1007), ('a', 0o7777)].lookup c

/-- The bits of a letter for what is allowed. The letter `X` allows what is
allowed to someone already, and everything in directories. -/
def permissionBits? (old : Nat) (isDirectory : Bool) (c : Char) : Option Nat :=
  match c with
  | 'r' => some 0o444
  | 'w' => some 0o222
  | 'x' => some 0o111
  | 'X' => some (if isDirectory || old &&& 0o111 ≠ 0 then 0o111 else 0)
  | 's' => some 0o6000
  | 't' => some 0o1000
  | _ => none

/-- What someone is allowed, given to everyone. -/
def copiedBits? (old : Nat) (c : Char) : Option Nat :=
  let spread (bits : Nat) : Nat := bits * 0o111
  match c with
  | 'u' => some (spread (old >>> 6 &&& 7))
  | 'g' => some (spread (old >>> 3 &&& 7))
  | 'o' => some (spread (old &&& 7))
  | _ => none

/-- A part of a clause: the sign and the letters behind it. -/
structure Action where
  sign : Char
  letters : List Char

/-- A clause: who is meant, and what is done. -/
structure Clause where
  /-- None if nobody is named. -/
  who : Option Nat
  actions : List Action

/-- Reads the parts of a clause; `length` bounds their number. -/
def readActions : (length : Nat) → List Char → Option (List Action)
  | 0, _ | _, [] => some []
  | length + 1, sign :: rest =>
    if sign ∉ ['+', '-', '='] then none
    else
      let (letters, rest) := rest.span fun c => decide (c ∉ ['+', '-', '='])
      let isKnown := letters.all (['r', 'w', 'x', 'X', 's', 't'].contains ·) ||
        (match letters with
          | [c] => ['u', 'g', 'o'].contains c
          | _ => false)
      if isKnown then (readActions length rest).map ({ sign, letters } :: ·) else none

/-- Reads a clause. -/
def readClause (text : String) : Option Clause :=
  let (who, rest) := text.toList.span fun c => (whoBits? c).isSome
  if rest = [] then none
  else
    (readActions (rest.length + 1) rest).map fun actions =>
      { who := if who = [] then none else
          some (who.foldl (fun bits c => bits ||| (whoBits? c).getD 0) 0)
        actions }

/-- A mode after a part of a clause. -/
def Action.apply (a : Action) (who : Option Nat) (old : Nat) (isDirectory : Bool) : Nat :=
  let bits := a.letters.foldl (fun bits c =>
    bits ||| ((permissionBits? old isDirectory c).getD ((copiedBits? old c).getD 0))) 0
  let concerned := who.getD 0o7777
  let bits := bits &&& (match who with
    | some who => who
    | none => 0o7777 - mask)
  match a.sign with
  | '+' => old ||| bits
  | '-' => old &&& (0o7777 - bits)
  | _ => (old &&& (0o7777 - concerned)) ||| bits

/-- The change that a text stands for. -/
def read (text : String) : Option (Nat → Bool → Nat) :=
  let cs := text.toList
  if cs ≠ [] ∧ cs.all (fun c => '0' ≤ c ∧ c ≤ '7') then
    let mode := cs.foldl (fun n c => n * 8 + (c.toNat - 48)) 0
    if 0o7777 < mode then none else some fun _ _ => mode
  else
    ((text.splitOn ",").mapM readClause).map fun clauses old isDirectory =>
      clauses.foldl (fun mode clause =>
        clause.actions.foldl (fun mode action => action.apply clause.who mode isDirectory) mode)
        old

/-- A mode in four octal digits. -/
def octal (mode : Nat) : String :=
  let digits := Nat.toDigits 8 mode
  String.ofList (List.replicate (4 - digits.length) '0' ++ digits)

/-- A mode in letters. -/
def letters (mode : Nat) : String :=
  let has (bit : Nat) : Bool := mode &&& bit ≠ 0
  let last (execute special : Nat) (both only : Char) : Char :=
    match has execute, has special with
    | true, true => both
    | true, false => 'x'
    | false, true => only
    | false, false => '-'
  let pair (read write : Nat) : List Char :=
    [if has read then 'r' else '-', if has write then 'w' else '-']
  String.ofList (pair 0o400 0o200 ++ [last 0o100 0o4000 's' 'S'] ++
    pair 0o040 0o020 ++ [last 0o010 0o2000 's' 'S'] ++
    pair 0o004 0o002 ++ [last 0o001 0o1000 't' 'T'])

end JobShell.Tool.Mode
