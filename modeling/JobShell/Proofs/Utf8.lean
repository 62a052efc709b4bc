import JobShell.Text.Bytes
import Mathlib.Tactic.SplitIfs

/-!
# Text and its encoding

`Bytes.text?` reads exactly what `Bytes.ofString` writes: every text is read
back (`text?_ofString`), and bytes that can be read are the encoding of what
was read (`eq_ofString_of_text?`). So a byte string holds at most one text,
and two texts with one encoding are equal (`ofString_inj`).

Both directions go character by character. `pieces_utf8EncodeChar` puts the
encoding of a character in front of arbitrary bytes, by one lemma for each
length of the encoding; `Lead.of?_eq_some` and `gather_succ_eq_some` take a
piece apart into the bytes it was read from. An ASCII character is a byte of
its own (`toUInt8_mem_ofString`), and texts are ordered as their encodings
are (`ofString_lt`).
-/

namespace JobShell

namespace Bytes

/-! ## Taking a piece apart -/

/-- What a first byte announces, by the length of the encoding. -/
theorem Lead.of?_eq_some {b : UInt8} {lead : Lead} (h : Lead.of? b = some lead) :
    (b.toNat < 0x80 ∧ lead.following = 0 ∧ lead.bits = b.toNat)
      ∨ (0xC2 ≤ b.toNat ∧ b.toNat < 0xE0 ∧ lead.following = 1
          ∧ lead.bits = b.toNat % 32 ∧ lead.low.toNat = 0x80 ∧ lead.high.toNat = 0xBF)
      ∨ (0xE0 ≤ b.toNat ∧ b.toNat < 0xF0 ∧ lead.following = 2
          ∧ lead.bits = b.toNat % 16
          ∧ lead.low.toNat = (if b.toNat = 0xE0 then 0xA0 else 0x80)
          ∧ lead.high.toNat = (if b.toNat = 0xED then 0x9F else 0xBF))
      ∨ (0xF0 ≤ b.toNat ∧ b.toNat < 0xF5 ∧ lead.following = 3
          ∧ lead.bits = b.toNat % 8
          ∧ lead.low.toNat = (if b.toNat = 0xF0 then 0x90 else 0x80)
          ∧ lead.high.toNat = (if b.toNat = 0xF4 then 0x8F else 0xBF)) := by
  unfold Lead.of? at h
  simp only [UInt8.lt_iff_toNat_lt, UInt8.reduceToNat, ← UInt8.toNat_inj] at h
  split at h
  · obtain rfl := Option.some.inj h
    exact Or.inl ⟨‹_›, rfl, rfl⟩
  split at h
  · cases h
  split at h
  · obtain rfl := Option.some.inj h
    exact Or.inr (Or.inl ⟨by omega, ‹_›, rfl, rfl, rfl, rfl⟩)
  split at h
  · obtain rfl := Option.some.inj h
    refine Or.inr (Or.inr (Or.inl ⟨by omega, ‹_›, rfl, rfl, ?_, ?_⟩))
    · simp only [apply_ite UInt8.toNat, UInt8.reduceToNat]
    · simp only [apply_ite UInt8.toNat, UInt8.reduceToNat]
  split at h
  · obtain rfl := Option.some.inj h
    refine Or.inr (Or.inr (Or.inr ⟨by omega, ‹_›, rfl, rfl, ?_, ?_⟩))
    · simp only [apply_ite UInt8.toNat, UInt8.reduceToNat]
    · simp only [apply_ite UInt8.toNat, UInt8.reduceToNat]
  · cases h

/-- A continuation byte that was gathered, and the gathering behind it. -/
theorem gather_succ_eq_some {n bits v : Nat} {low high : UInt8} {bs rest : Bytes}
    (h : gather (n + 1) bits low high bs = (some v, rest)) :
    ∃ b bs', bs = b :: bs' ∧ low.toNat ≤ b.toNat ∧ b.toNat ≤ high.toNat
      ∧ gather n (bits * 64 + b.toNat % 64) 0x80 0xBF bs' = (some v, rest) := by
  cases bs with
  | nil => simp [gather] at h
  | cons b bs' =>
      rw [gather] at h
      split at h
      · rename_i hb
        exact ⟨b, bs', rfl, UInt8.le_iff_toNat_le.mp hb.1, UInt8.le_iff_toNat_le.mp hb.2, h⟩
      · simp at h

theorem gather_zero_eq_some {bits v : Nat} {low high : UInt8} {bs rest : Bytes}
    (h : gather 0 bits low high bs = (some v, rest)) : v = bits ∧ rest = bs := by
  simpa [gather, eq_comm] using h

/-! ## The encoder's arithmetic -/

theorem val_ofNat {v : Nat} (h : v.isValidChar) : (Char.ofNat v).val.toNat = v := by
  rw [Char.ofNat, dif_pos h]
  rfl

theorem toNat_ofNat_of_lt {n : Nat} (h : n < 256) : (UInt8.ofNat n).toNat = n := by
  rw [UInt8.toNat_ofNat', Nat.mod_eq_of_lt h]

/-- The byte for the last digit of a number to the base 64, where it is not the
first one. -/
def tail (v : Nat) : UInt8 := UInt8.ofNat (v % 64 + 0x80)

theorem toNat_tail (v : Nat) : (tail v).toNat = v % 64 + 0x80 :=
  toNat_ofNat_of_lt (by omega)

theorem tail_bounds (v : Nat) : 0x80 ≤ (tail v).toNat ∧ (tail v).toNat ≤ 0xBF := by
  rw [toNat_tail]
  omega

/-- The digits to the base 64 are spread over the bytes, the highest one first. -/
theorem utf8EncodeChar_ofNat {v : Nat} (h : v.isValidChar) :
    String.utf8EncodeChar (Char.ofNat v)
      = if v ≤ 0x7f then [UInt8.ofNat v]
        else if v ≤ 0x7ff then [UInt8.ofNat (v / 64 % 32 + 0xc0), tail v]
        else if v ≤ 0xffff then [UInt8.ofNat (v / 64 / 64 % 16 + 0xe0), tail (v / 64), tail v]
        else [UInt8.ofNat (v / 64 / 64 / 64 % 8 + 0xf0), tail (v / 64 / 64), tail (v / 64),
          tail v] := by
  rw [String.utf8EncodeChar, val_ofNat h]
  simp only [tail, Nat.div_div_eq_div_mul]

theorem utf8EncodeChar_three {v : Nat} (h : v.isValidChar) (hlow : 0x7ff < v)
    (hhigh : v ≤ 0xffff) :
    String.utf8EncodeChar (Char.ofNat v)
      = [UInt8.ofNat (v / 64 / 64 % 16 + 0xe0), tail (v / 64), tail v] := by
  rw [utf8EncodeChar_ofNat h, if_neg (by omega), if_neg (by omega), if_pos hhigh]

theorem utf8EncodeChar_four {v : Nat} (h : v.isValidChar) (hlow : 0xffff < v) :
    String.utf8EncodeChar (Char.ofNat v)
      = [UInt8.ofNat (v / 64 / 64 / 64 % 8 + 0xf0), tail (v / 64 / 64), tail (v / 64),
          tail v] := by
  rw [utf8EncodeChar_ofNat h, if_neg (by omega), if_neg (by omega), if_neg (by omega)]

theorem ofNat_eq_of_toNat {n : Nat} {b : UInt8} (h : n = b.toNat) : UInt8.ofNat n = b := by
  rw [h, UInt8.ofNat_toNat]

/-! ## From a piece to its bytes -/

theorem gathered_div (bits : Nat) (b : UInt8) : (bits * 64 + b.toNat % 64) / 64 = bits := by
  omega

theorem tail_gathered {b : UInt8} (bits : Nat) (hlow : 0x80 ≤ b.toNat) (hhigh : b.toNat ≤ 0xBF) :
    tail (bits * 64 + b.toNat % 64) = b :=
  ofNat_eq_of_toNat (by omega)

/-- A piece that is a character was read from the encoding of that character. -/
theorem eq_utf8EncodeChar_append {b : UInt8} {rest left : Bytes} {lead : Lead} {v : Nat}
    (hl : Lead.of? b = some lead)
    (hg : gather lead.following lead.bits lead.low lead.high rest = (some v, left)) :
    b :: rest = String.utf8EncodeChar (Char.ofNat v) ++ left := by
  rcases Lead.of?_eq_some hl with ⟨hb, hn, hv⟩ | ⟨hb, hb', hn, hv, hlo, hhi⟩
    | ⟨hb, hb', hn, hv, hlo, hhi⟩ | ⟨hb, hb', hn, hv, hlo, hhi⟩
  · rw [hn, hv] at hg
    obtain ⟨rfl, rfl⟩ := gather_zero_eq_some hg
    rw [utf8EncodeChar_ofNat (Or.inl (by omega)), if_pos (by omega),
      ofNat_eq_of_toNat rfl]
    rfl
  · rw [hn, hv] at hg
    obtain ⟨c1, r1, rfl, hc1, hc1', hg⟩ := gather_succ_eq_some hg
    obtain ⟨rfl, rfl⟩ := gather_zero_eq_some hg
    rw [utf8EncodeChar_ofNat (Or.inl (by omega)), if_neg (by omega), if_pos (by omega),
      gathered_div, tail_gathered _ (by omega) (by omega), ofNat_eq_of_toNat (b := b) (by omega)]
    rfl
  · rw [hn, hv] at hg
    obtain ⟨c1, r1, rfl, hc1, hc1', hg⟩ := gather_succ_eq_some hg
    obtain ⟨c2, r2, rfl, hc2, hc2', hg⟩ := gather_succ_eq_some hg
    obtain ⟨rfl, rfl⟩ := gather_zero_eq_some hg
    simp only [UInt8.reduceToNat] at hc2 hc2'
    have hlow : 0x80 ≤ c1.toNat ∧ (b.toNat = 0xE0 → 0xA0 ≤ c1.toNat) := by
      rw [hlo] at hc1
      split at hc1 <;> omega
    have hhigh : c1.toNat ≤ 0xBF ∧ (b.toNat = 0xED → c1.toNat ≤ 0x9F) := by
      rw [hhi] at hc1'
      split at hc1' <;> omega
    have hvalid : ((b.toNat % 16 * 64 + c1.toNat % 64) * 64 + c2.toNat % 64).isValidChar := by
      unfold Nat.isValidChar
      omega
    rw [utf8EncodeChar_three hvalid (by omega) (by omega), gathered_div, gathered_div, tail_gathered _ (by omega) hhigh.1, tail_gathered _ hc2 hc2',
      ofNat_eq_of_toNat (b := b) (by omega)]
    rfl
  · rw [hn, hv] at hg
    obtain ⟨c1, r1, rfl, hc1, hc1', hg⟩ := gather_succ_eq_some hg
    obtain ⟨c2, r2, rfl, hc2, hc2', hg⟩ := gather_succ_eq_some hg
    obtain ⟨c3, r3, rfl, hc3, hc3', hg⟩ := gather_succ_eq_some hg
    obtain ⟨rfl, rfl⟩ := gather_zero_eq_some hg
    simp only [UInt8.reduceToNat] at hc2 hc2' hc3 hc3'
    have hlow : 0x80 ≤ c1.toNat ∧ (b.toNat = 0xF0 → 0x90 ≤ c1.toNat) := by
      rw [hlo] at hc1
      split at hc1 <;> omega
    have hhigh : c1.toNat ≤ 0xBF ∧ (b.toNat = 0xF4 → c1.toNat ≤ 0x8F) := by
      rw [hhi] at hc1'
      split at hc1' <;> omega
    have hvalid : (((b.toNat % 8 * 64 + c1.toNat % 64) * 64 + c2.toNat % 64) * 64
        + c3.toNat % 64).isValidChar := by
      unfold Nat.isValidChar
      omega
    rw [utf8EncodeChar_four hvalid (by omega), gathered_div, gathered_div, gathered_div, tail_gathered _ hlow.1 hhigh.1,
      tail_gathered _ hc2 hc2', tail_gathered _ hc3 hc3', ofNat_eq_of_toNat (b := b) (by omega)]
    rfl

/-! ## From a character to its piece -/

theorem gather_cons {n bits : Nat} {low high b : UInt8} {rest : Bytes}
    (hlow : low.toNat ≤ b.toNat) (hhigh : b.toNat ≤ high.toNat) :
    gather (n + 1) bits low high (b :: rest)
      = gather n (bits * 64 + b.toNat % 64) 0x80 0xBF rest := by
  rw [gather, if_pos ⟨UInt8.le_iff_toNat_le.mpr hlow, UInt8.le_iff_toNat_le.mpr hhigh⟩]

theorem gather_tail {n bits : Nat} {b : UInt8} {rest : Bytes}
    (hb : 0x80 ≤ b.toNat ∧ b.toNat ≤ 0xBF) :
    gather (n + 1) bits 0x80 0xBF (b :: rest)
      = gather n (bits * 64 + b.toNat % 64) 0x80 0xBF rest :=
  gather_cons hb.1 hb.2

/-- Every byte in the announced ranges begins a character. -/
theorem Lead.exists_of? {b : UInt8} (h : b.toNat < 0x80 ∨ (0xC2 ≤ b.toNat ∧ b.toNat < 0xF5)) :
    ∃ lead, Lead.of? b = some lead := by
  simp only [Lead.of?, UInt8.lt_iff_toNat_lt, UInt8.reduceToNat]
  by_cases h1 : b.toNat < 0x80
  · exact ⟨_, if_pos h1⟩
  rw [if_neg h1, if_neg (show ¬b.toNat < 0xC2 by omega)]
  by_cases h2 : b.toNat < 0xE0
  · exact ⟨_, if_pos h2⟩
  rw [if_neg h2]
  by_cases h3 : b.toNat < 0xF0
  · exact ⟨_, if_pos h3⟩
  rw [if_neg h3]
  exact ⟨_, if_pos (show b.toNat < 0xF5 by omega)⟩

theorem pieces_cons {b : UInt8} {rest left : Bytes} {lead : Lead} {v : Nat}
    (hl : Lead.of? b = some lead)
    (hg : gather lead.following lead.bits lead.low lead.high rest = (some v, left)) :
    pieces (b :: rest) = some (Char.ofNat v) :: pieces left := by
  rw [pieces, hl]
  simp only [hg, Option.map_some]

/-! One lemma per length of the encoding: the bytes are given by the ranges
of their values, so nothing is computed here. -/

theorem pieces_one (b : UInt8) (rest : Bytes) (hb : b.toNat < 0x80) :
    pieces (b :: rest) = some (Char.ofNat b.toNat) :: pieces rest := by
  obtain ⟨lead, hl⟩ := Lead.exists_of? (Or.inl hb)
  refine pieces_cons hl ?_
  rcases Lead.of?_eq_some hl with ⟨-, hn, hbits⟩ | h | h | h
  · rw [hn, hbits, gather]
  all_goals omega

theorem pieces_two (b c : UInt8) (rest : Bytes) (hb : 0xC2 ≤ b.toNat ∧ b.toNat < 0xE0)
    (hc : 0x80 ≤ c.toNat ∧ c.toNat ≤ 0xBF) :
    pieces (b :: c :: rest)
      = some (Char.ofNat (b.toNat % 32 * 64 + c.toNat % 64)) :: pieces rest := by
  obtain ⟨lead, hl⟩ := Lead.exists_of? (b := b) (by omega)
  refine pieces_cons hl ?_
  rcases Lead.of?_eq_some hl with h | ⟨-, -, hn, hbits, hlow, hhigh⟩ | h | h
  · omega
  · rw [hn, hbits, gather_cons (by omega) (by omega), gather]
  all_goals omega

theorem pieces_three (b c d : UInt8) (rest : Bytes) (hb : 0xE0 ≤ b.toNat ∧ b.toNat < 0xF0)
    (hc : 0x80 ≤ c.toNat ∧ c.toNat ≤ 0xBF) (hd : 0x80 ≤ d.toNat ∧ d.toNat ≤ 0xBF)
    (hlow : b.toNat = 0xE0 → 0xA0 ≤ c.toNat) (hhigh : b.toNat = 0xED → c.toNat ≤ 0x9F) :
    pieces (b :: c :: d :: rest)
      = some (Char.ofNat ((b.toNat % 16 * 64 + c.toNat % 64) * 64 + d.toNat % 64))
          :: pieces rest := by
  obtain ⟨lead, hl⟩ := Lead.exists_of? (b := b) (by omega)
  refine pieces_cons hl ?_
  rcases Lead.of?_eq_some hl with h | h | ⟨-, -, hn, hbits, hlo, hhi⟩ | h
  · omega
  · omega
  · have hlo' : lead.low.toNat ≤ c.toNat := by rw [hlo]; split <;> omega
    have hhi' : c.toNat ≤ lead.high.toNat := by rw [hhi]; split <;> omega
    rw [hn, hbits, gather_cons hlo' hhi', gather_tail hd, gather]
  · omega

theorem pieces_four (b c d e : UInt8) (rest : Bytes) (hb : 0xF0 ≤ b.toNat ∧ b.toNat < 0xF5)
    (hc : 0x80 ≤ c.toNat ∧ c.toNat ≤ 0xBF) (hd : 0x80 ≤ d.toNat ∧ d.toNat ≤ 0xBF)
    (he : 0x80 ≤ e.toNat ∧ e.toNat ≤ 0xBF)
    (hlow : b.toNat = 0xF0 → 0x90 ≤ c.toNat) (hhigh : b.toNat = 0xF4 → c.toNat ≤ 0x8F) :
    pieces (b :: c :: d :: e :: rest)
      = some (Char.ofNat (((b.toNat % 8 * 64 + c.toNat % 64) * 64 + d.toNat % 64) * 64
          + e.toNat % 64)) :: pieces rest := by
  obtain ⟨lead, hl⟩ := Lead.exists_of? (b := b) (by omega)
  refine pieces_cons hl ?_
  rcases Lead.of?_eq_some hl with h | h | h | ⟨-, -, hn, hbits, hlo, hhi⟩
  · omega
  · omega
  · omega
  · have hlo' : lead.low.toNat ≤ c.toNat := by rw [hlo]; split <;> omega
    have hhi' : c.toNat ≤ lead.high.toNat := by rw [hhi]; split <;> omega
    rw [hn, hbits, gather_cons hlo' hhi', gather_tail hd, gather_tail he, gather]

/-- The encoding of a character in front of other bytes is read as that
character. -/
theorem pieces_utf8EncodeChar (c : Char) (rest : Bytes) :
    pieces (String.utf8EncodeChar c ++ rest) = some c :: pieces rest := by
  have hvalid : c.val.toNat.isValidChar := c.valid
  have hc : Char.ofNat c.val.toNat = c := Char.ofNat_toNat c
  generalize c.val.toNat = v at hvalid hc
  subst hc
  rw [utf8EncodeChar_ofNat hvalid]
  unfold Nat.isValidChar at hvalid
  split
  · have h1 := toNat_ofNat_of_lt (n := v) (by omega)
    have hp := pieces_one (UInt8.ofNat v) rest (by omega)
    rwa [h1] at hp
  split
  · have h1 := toNat_ofNat_of_lt (n := v / 64 % 32 + 0xc0) (by omega)
    have hp := pieces_two (UInt8.ofNat (v / 64 % 32 + 0xc0)) (tail v) rest (by omega)
      (tail_bounds v)
    rwa [h1, toNat_tail, show (v / 64 % 32 + 0xc0) % 32 * 64 + (v % 64 + 0x80) % 64 = v by omega]
      at hp
  split
  · have h1 := toNat_ofNat_of_lt (n := v / 64 / 64 % 16 + 0xe0) (by omega)
    have h2 := toNat_tail (v / 64)
    have hp := pieces_three (UInt8.ofNat (v / 64 / 64 % 16 + 0xe0)) (tail (v / 64)) (tail v) rest
      (by omega) (tail_bounds _) (tail_bounds v) (by omega) (by omega)
    rwa [h1, h2, toNat_tail, show ((v / 64 / 64 % 16 + 0xe0) % 16 * 64
      + (v / 64 % 64 + 0x80) % 64) * 64 + (v % 64 + 0x80) % 64 = v by omega] at hp
  · have h1 := toNat_ofNat_of_lt (n := v / 64 / 64 / 64 % 8 + 0xf0) (by omega)
    have h2 := toNat_tail (v / 64 / 64)
    have hp := pieces_four (UInt8.ofNat (v / 64 / 64 / 64 % 8 + 0xf0)) (tail (v / 64 / 64))
      (tail (v / 64)) (tail v) rest (by omega) (tail_bounds _) (tail_bounds _) (tail_bounds v)
      (by omega) (by omega)
    rwa [h1, h2, toNat_tail, toNat_tail, show (((v / 64 / 64 / 64 % 8 + 0xf0) % 8 * 64
      + (v / 64 / 64 % 64 + 0x80) % 64) * 64 + (v / 64 % 64 + 0x80) % 64) * 64
      + (v % 64 + 0x80) % 64 = v by omega] at hp

/-! ## Whole texts -/

theorem ofString_append (s t : String) : ofString (s ++ t) = ofString s ++ ofString t := by
  rw [ofString, String.toList_append, List.flatMap_append, ofString, ofString]

theorem pieces_ofString (s : String) : pieces (ofString s) = s.toList.map some := by
  unfold ofString
  induction s.toList with
  | nil => rw [List.flatMap_nil, pieces, List.map_nil]
  | cons c cs ih => rw [List.flatMap_cons, pieces_utf8EncodeChar, ih, List.map_cons]

theorem mapM_id_map_some (cs : List Char) : (cs.map some).mapM id = some cs := by
  induction cs with
  | nil => rfl
  | cons c cs ih => simp [List.mapM_cons, ih]

/-- Every text is read back from its encoding. -/
@[simp] theorem text?_ofString (s : String) : (ofString s).text? = some s := by
  rw [text?, pieces_ofString, mapM_id_map_some, Option.map_some, String.ofList_toList]

theorem eq_flatMap_of_pieces {bs : Bytes} {cs : List Char}
    (h : bs.pieces.mapM id = some cs) : bs = cs.flatMap String.utf8EncodeChar := by
  fun_induction pieces bs generalizing cs with
  | case1 =>
      obtain rfl : cs = [] := by simpa using h.symm
      rfl
  | case2 b rest hl ih => simp [List.mapM_cons] at h
  | case3 b rest lead hl next =>
      rename_i ih
      obtain ⟨v, hv⟩ : ∃ v, next.1 = some v := by
        cases hn : next.1 with
        | none => simp [List.mapM_cons, hn] at h
        | some v => exact ⟨v, rfl⟩
      obtain ⟨cs', hcs, rfl⟩ : ∃ cs', next.2.pieces.mapM id = some cs'
          ∧ Char.ofNat v :: cs' = cs := by
        simpa [List.mapM_cons, hv, Option.bind_eq_some_iff] using h
      rw [List.flatMap_cons, ← ih hcs]
      exact eq_utf8EncodeChar_append hl (Prod.ext hv rfl)

/-- Bytes that can be read are the encoding of what was read. -/
theorem eq_ofString_of_text? {bs : Bytes} {s : String} (h : bs.text? = some s) :
    bs = ofString s := by
  obtain ⟨cs, hcs, rfl⟩ := Option.map_eq_some_iff.mp h
  rw [ofString, String.toList_ofList]
  exact eq_flatMap_of_pieces hcs

theorem text?_eq_some_iff {bs : Bytes} {s : String} : bs.text? = some s ↔ bs = ofString s :=
  ⟨eq_ofString_of_text?, fun h => h ▸ text?_ofString s⟩

@[simp] theorem ofString_inj {s t : String} : ofString s = ofString t ↔ s = t :=
  ⟨fun h => Option.some.inj (by rw [← text?_ofString s, h, text?_ofString]),
    fun h => by rw [h]⟩

/-! ## The order of texts -/

/-- Characters are ordered as their encodings are, whatever stands behind them. -/
theorem utf8EncodeChar_append_lt {c d : Char} (h : c < d) (rest rest' : Bytes) :
    String.utf8EncodeChar c ++ rest < String.utf8EncodeChar d ++ rest' := by
  have hlt : c.val.toNat < d.val.toNat := UInt32.lt_iff_toNat_lt.mp h
  have hc : Char.ofNat c.val.toNat = c := Char.ofNat_toNat c
  have hd : Char.ofNat d.val.toNat = d := Char.ofNat_toNat d
  have hcvalid : c.val.toNat.isValidChar := c.valid
  have hdvalid : d.val.toNat.isValidChar := d.valid
  generalize c.val.toNat = v at *
  generalize d.val.toNat = w at *
  subst hc hd
  rw [utf8EncodeChar_ofNat hcvalid, utf8EncodeChar_ofNat hdvalid]
  unfold Nat.isValidChar at hcvalid hdvalid
  -- An encoding holds the digits to the base 64, the highest one first.
  have hdigits : v / 64 / 64 / 64 < w / 64 / 64 / 64
      ∨ v / 64 / 64 / 64 = w / 64 / 64 / 64 ∧ (v / 64 / 64 < w / 64 / 64
        ∨ v / 64 / 64 = w / 64 / 64 ∧ (v / 64 < w / 64 ∨ v / 64 = w / 64 ∧ v % 64 < w % 64)) := by
    omega
  have hv : v / 64 / 64 / 64 % 8 = v / 64 / 64 / 64 := Nat.mod_eq_of_lt (by omega)
  have hw : w / 64 / 64 / 64 % 8 = w / 64 / 64 / 64 := Nat.mod_eq_of_lt (by omega)
  split_ifs
  all_goals
    simp (disch := omega) only [List.cons_append, List.nil_append, List.cons_lt_cons_iff,
      UInt8.lt_iff_toNat_lt, ← UInt8.toNat_inj, toNat_tail, toNat_ofNat_of_lt, hv, hw]
    omega

theorem utf8EncodeChar_ne_nil (c : Char) : String.utf8EncodeChar c ≠ [] := by
  rw [String.utf8EncodeChar]
  split_ifs <;> simp

theorem ofString_lt {s t : String} (h : s < t) : ofString s < ofString t := by
  have hlist : ∀ {cs ds : List Char}, cs < ds →
      cs.flatMap String.utf8EncodeChar < ds.flatMap String.utf8EncodeChar := by
    intro cs ds hlex
    induction hlex with
    | @nil d ds =>
        obtain ⟨b, bs, hb⟩ := List.exists_cons_of_ne_nil (utf8EncodeChar_ne_nil d)
        rw [List.flatMap_cons, hb]
        exact List.nil_lt_cons _ _
    | cons _ ih => exact List.append_left_lt ih
    | rel hchar => exact utf8EncodeChar_append_lt hchar _ _
  exact hlist (String.lt_iff.mp h)

/-! ## Bytes of their own -/

/-- An ASCII character is one byte, which is in no other character. -/
theorem toUInt8_mem_utf8EncodeChar {c d : Char} (hd : d.toNat ≤ 0x7f) :
    d.toUInt8 ∈ String.utf8EncodeChar c ↔ c = d := by
  have hlt : d.toNat < 256 := Nat.lt_of_le_of_lt hd (by decide)
  have hbyte : d.toUInt8.toNat = d.toNat := toNat_ofNat_of_lt hlt
  have hne : ∀ n, n < 256 → n ≠ d.toNat → d.toUInt8 ≠ UInt8.ofNat n := fun n hlt hn h => by
    rw [h, toNat_ofNat_of_lt hlt] at hbyte
    exact hn hbyte
  constructor
  · intro h
    have hvalid : c.toNat.isValidChar := c.valid
    rw [← Char.ofNat_toNat c, utf8EncodeChar_ofNat hvalid] at h
    unfold Nat.isValidChar at hvalid
    split at h
    · by_cases hcd : c.toNat = d.toNat
      · exact Char.toNat_inj.mp hcd
      · exact absurd (List.mem_singleton.mp h) (hne _ (by omega) hcd)
    split at h
    · simp only [List.mem_cons, List.not_mem_nil, or_false] at h
      rcases h with h | h <;> exact absurd h (hne _ (by omega) (by omega))
    split at h
    · simp only [List.mem_cons, List.not_mem_nil, or_false] at h
      rcases h with h | h | h <;> exact absurd h (hne _ (by omega) (by omega))
    · simp only [List.mem_cons, List.not_mem_nil, or_false] at h
      rcases h with h | h | h | h <;> exact absurd h (hne _ (by omega) (by omega))
  · rintro rfl
    have hvalid : c.toNat.isValidChar := c.valid
    rw [← Char.ofNat_toNat c, utf8EncodeChar_ofNat hvalid, if_pos hd, Char.ofNat_toNat]
    exact List.mem_singleton_self _

theorem toUInt8_mem_ofString {s : String} {d : Char} (hd : d.toNat ≤ 0x7f) :
    d.toUInt8 ∈ ofString s ↔ d ∈ s.toList := by
  simp only [ofString, List.mem_flatMap, toUInt8_mem_utf8EncodeChar hd, exists_eq_right]

theorem hasNul_ofString {s : String} : (ofString s).hasNul = true ↔ '\x00' ∈ s.toList := by
  rw [hasNul, List.contains_iff_mem]
  exact toUInt8_mem_ofString (d := '\x00') (by decide)

end Bytes

end JobShell
