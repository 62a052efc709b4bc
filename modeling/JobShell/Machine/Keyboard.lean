import JobShell.Text.Bytes

/-!
# Typing

A terminal collects what is typed until a line is complete, and its readers
get one line at a time. Up to that point the line can be corrected: single
keys take back a character, a word or all of it. Another key completes the
line without a newline; with nothing before it, its readers find the end of
the input.
-/

namespace JobShell.Machine

/-- The keys with a meaning of their own. -/
inductive Key
  | endOfInput
  | eraseCharacter
  | eraseWord
  | eraseLine
  /-- The next key has no meaning of its own. -/
  | literal
  /-- Stops or resumes output. -/
  | flow
  | carriageReturn
  | newline
  | plain
  deriving DecidableEq, Repr

namespace Key

/-- The key of a byte. -/
def ofByte (b : UInt8) : Key :=
  match b.toNat with
  | 0x04 => endOfInput
  | 0x7f => eraseCharacter
  | 0x17 => eraseWord
  | 0x15 => eraseLine
  | 0x16 => literal
  | 0x11 | 0x13 => flow
  | 0x0d => carriageReturn
  | 0x0a => newline
  | _ => plain

end Key

namespace Typing

/-- Whether a byte belongs to a word. -/
def isWordByte (b : UInt8) : Bool := (Char.ofNat b.toNat).isAlphanum || b = 95

/-- A line, last byte first, without its last word. -/
def dropWord (line : Bytes) : Bytes :=
  (line.dropWhile (!isWordByte ·)).dropWhile isWordByte

/-- What readers get one after the other, once `typed` was typed behind the
beginning of a line. The beginning is given last byte first. -/
def lines (line : Bytes) : (typed : Bytes) → List Bytes
  | [] => []
  | b :: typed =>
    match Key.ofByte b with
    | .endOfInput => line.reverse :: lines [] typed
    | .eraseCharacter => lines (line.drop 1) typed
    | .eraseWord => lines (dropWord line) typed
    | .eraseLine => lines [] typed
    | .literal =>
      match typed with
      | [] => []
      | next :: typed => lines (next :: line) typed
    | .flow => lines line typed
    | .carriageReturn | .newline => (10 :: line).reverse :: lines [] typed
    | .plain => lines (b :: line) typed

end Typing

end JobShell.Machine
