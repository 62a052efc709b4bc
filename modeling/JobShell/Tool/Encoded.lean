import JobShell.Text.Decimal
import JobShell.Tool.Basic

/-!
# Bytes as printable text

`base64` writes three bytes as four characters out of sixty-four, and reads
them back.
-/

namespace JobShell.Tool

open Machine (Action)

namespace Encoded

/-- The character of a number below sixty-four. -/
def digit (n : Nat) : Char :=
  if n < 26 then Char.ofNat ('A'.toNat + n)
  else if n < 52 then Char.ofNat ('a'.toNat + n - 26)
  else if n < 62 then Char.ofNat ('0'.toNat + n - 52)
  else if n = 62 then '+' else '/'

/-- The number of a character. -/
def value? (c : Char) : Option Nat := (List.range 64).find? fun n => digit n = c

/-- Bytes as characters; a last group that is short is filled up. -/
def encode : Bytes → List Char
  | [] => []
  | [a] => [digit (a.toNat / 4), digit (a.toNat % 4 * 16), '=', '=']
  | [a, b] =>
    [digit (a.toNat / 4), digit (a.toNat % 4 * 16 + b.toNat / 16), digit (b.toNat % 16 * 4), '=']
  | a :: b :: c :: rest =>
    digit (a.toNat / 4) :: digit (a.toNat % 4 * 16 + b.toNat / 16) ::
      digit (b.toNat % 16 * 4 + c.toNat / 64) :: digit (c.toNat % 64) :: encode rest

/-- The bytes that characters stand for, and whether they are well formed. -/
def decode : List Char → Bytes × Bool
  | [] => ([], true)
  | a :: b :: c :: d :: rest =>
    match value? a, value? b, value? c, value? d with
    | some a, some b, some c, some d =>
      let (more, whole) := decode rest
      (.ofNat (a * 4 + b / 16) :: .ofNat (b % 16 * 16 + c / 4) :: .ofNat (c % 4 * 64 + d) :: more,
        whole)
    | some a, some b, some e, none =>
      if d = '=' then
        let (more, whole) := decode rest
        (.ofNat (a * 4 + b / 16) :: .ofNat (b % 16 * 16 + e / 4) :: more, whole)
      else ([.ofNat (a * 4 + b / 16), .ofNat (b % 16 * 16 + e / 4)], false)
    | some a, some b, none, _ =>
      if c = '=' ∧ d = '=' then
        let (more, whole) := decode rest
        (.ofNat (a * 4 + b / 16) :: more, whole)
      else ([.ofNat (a * 4 + b / 16)], false)
    | _, _, _, _ => ([], false)
  | [a, b, c] =>
    match value? a, value? b, value? c with
    | some a, some b, some c => ([.ofNat (a * 4 + b / 16), .ofNat (b % 16 * 16 + c / 4)], false)
    | some a, some b, none => ([.ofNat (a * 4 + b / 16)], false)
    | _, _, _ => ([], false)
  | [a, b] =>
    match value? a, value? b with
    | some a, some b => ([.ofNat (a * 4 + b / 16)], false)
    | _, _ => ([], false)
  | [_] => ([], false)

/-- Cuts characters into lines; `count` bounds their number. -/
def wrap (width : Nat) : (count : Nat) → List Char → List (List Char)
  | 0, _ | _, [] => []
  | count + 1, cs => cs.take width :: wrap width count (cs.drop width)

end Encoded

/-- Writes bytes as characters, or reads them back. -/
def base64 (i : Invocation) : Action Unit := do
  let (options, operands) ← i.options
    { flags := "di", valued := "w",
      long := [("decode", 'd'), ("ignore-garbage", 'i'), ("wrap", 'w')] }
  let width ← match optionValue? options 'w' with
    | none => pure 76
    | some text =>
      match Text.readNat? text with
      | some n => pure n
      | none => die i.name s!"invalid wrap size: {Quoted.plain text}"
  let input ← match operands with
    | [] => pure "-"
    | [input] => pure input
    | _ :: extra :: _ => misused i s!"extra operand {Quoted.plain extra}"
  match ← openInput input with
  | .error cause => complainAbout i input cause; Action.exit 1
  | .ok fd =>
    match ← Action.readAll fd with
    | .error cause => die i.name ("read error: " ++ errorWords cause)
    | .ok data =>
      if hasOption options 'd' then
        let wanted (c : Char) : Bool :=
          if hasOption options 'i' then c = '=' || (Encoded.value? c).isSome else c ≠ '\n'
        let (bytes, whole) := Encoded.decode (data.octets.toList.filter wanted)
        say i.name (Bytes.octets bytes)
        if !whole then die i.name "invalid input"
      else
        let cs := Encoded.encode data
        if width = 0 then say i.name (String.ofList cs)
        else say i.name (joinLines ((Encoded.wrap width cs.length cs).map String.ofList))

end JobShell.Tool
