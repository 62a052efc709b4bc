/-!
# Bytes and the text they hold

File names, environment entries and file contents are bytes. Where they are
text they are UTF-8. `Bytes.pieces` cuts a byte sequence into the characters
it encodes and the maximal stretches that encode none; reading strictly
(`Bytes.text?`) accepts only the former, showing (`Bytes.lossy`) puts the
replacement character for each of the latter.
-/

namespace JobShell

/-- A sequence of bytes. -/
abbrev Bytes := List UInt8

/-- The UTF-8 encoding of `s`. -/
def Bytes.ofString (s : String) : Bytes :=
  s.toList.flatMap String.utf8EncodeChar

namespace Bytes

/-- What the first byte of an encoded character announces: how many bytes
follow, the bits it contributes itself, and the range the byte right after
it has to lie in (which rules out overlong forms and surrogates). -/
structure Lead where
  following : Nat
  bits : Nat
  low : UInt8 := 0x80
  high : UInt8 := 0xBF

/-- The announcement of `b`; `none` if no character begins with it. -/
def Lead.of? (b : UInt8) : Option Lead :=
  if b < 0x80 then some { following := 0, bits := b.toNat }
  else if b < 0xC2 then none
  else if b < 0xE0 then some { following := 1, bits := b.toNat % 32 }
  else if b < 0xF0 then
    some { following := 2, bits := b.toNat % 16,
           low := if b = 0xE0 then 0xA0 else 0x80, high := if b = 0xED then 0x9F else 0xBF }
  else if b < 0xF5 then
    some { following := 3, bits := b.toNat % 8,
           low := if b = 0xF0 then 0x90 else 0x80, high := if b = 0xF4 then 0x8F else 0xBF }
  else none

/-- Collects `n` continuation bytes, the first of them between `low` and
`high`, onto the bits gathered so far. Stops in front of the first byte that
does not fit. -/
def gather : (n bits : Nat) → (low high : UInt8) → Bytes → Option Nat × Bytes
  | 0, bits, _, _, rest => (some bits, rest)
  | _ + 1, _, _, _, [] => (none, [])
  | n + 1, bits, low, high, b :: rest =>
    if low ≤ b ∧ b ≤ high then gather n (bits * 64 + b.toNat % 64) 0x80 0xBF rest
    else (none, b :: rest)

theorem length_gather_le (n bits : Nat) (low high : UInt8) (bs : Bytes) :
    (gather n bits low high bs).2.length ≤ bs.length := by
  fun_induction gather n bits low high bs with
  | case1 | case2 | case4 => simp
  | case3 _ _ _ _ b rest _ ih =>
    simp only [List.length_cons]
    omega

/-- The characters of a byte sequence, with `none` for every maximal
stretch that is the beginning of no character. -/
def pieces : Bytes → List (Option Char)
  | [] => []
  | b :: rest =>
    match Lead.of? b with
    | none => none :: pieces rest
    | some lead =>
      let next := gather lead.following lead.bits lead.low lead.high rest
      next.1.map Char.ofNat :: pieces next.2
termination_by bs => bs.length
decreasing_by
  all_goals simp only [List.length_cons]
  · omega
  · have := length_gather_le lead.following lead.bits lead.low lead.high rest
    omega

/-- The text encoded by `bs`, if all of it is UTF-8. -/
def text? (bs : Bytes) : Option String :=
  (bs.pieces.mapM id).map String.ofList

/-- The text of `bs` for messages: what is not UTF-8 shows as U+FFFD. -/
def lossy (bs : Bytes) : String :=
  String.ofList (bs.pieces.map (·.getD '\uFFFD'))

/-- Whether `bs` holds the byte zero, which no path, argument or environment
entry of a process can hold. -/
def hasNul (bs : Bytes) : Bool := bs.contains 0

/-- Each byte as the character with its number. Programs that treat their
input byte by byte work on this view. -/
def octets (bs : Bytes) : String :=
  String.ofList (bs.map fun b => Char.ofNat b.toNat)

/-- The bytes whose view is `s`. -/
def ofOctets (s : String) : Bytes :=
  s.toList.map fun c => UInt8.ofNat c.toNat

end Bytes

end JobShell
