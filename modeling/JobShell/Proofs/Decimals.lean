import JobShell.Proofs.Results
import JobShell.Text.Decimal

/-!
# What decimal numbers denote

A text denotes a number if it is an optional sign and at least one digit
(`Denotes`). Reading goes from left to right and stops as soon as a bound is
passed. A number only moves away from zero as digits are appended
(`le_appendDigits`), so nothing is refused too early, and what is read is
what the text denotes, if the bounds admit it (`readDecimal_eq_ok_iff`).
-/

namespace JobShell.Text

/-- The text is an optional sign and at least one digit, and that is its
value. -/
inductive Denotes : List Char → Int → Prop
  | bare {digits : List Char} (hne : digits ≠ []) (hdigits : ∀ c ∈ digits, c.isDigit = true) :
      Denotes digits (natOfDigits digits)
  | plus {digits : List Char} (hne : digits ≠ []) (hdigits : ∀ c ∈ digits, c.isDigit = true) :
      Denotes ('+' :: digits) (natOfDigits digits)
  | minus {digits : List Char} (hne : digits ≠ []) (hdigits : ∀ c ∈ digits, c.isDigit = true) :
      Denotes ('-' :: digits) (-natOfDigits digits)

/-! ## Appending digits -/

/-- The number with some more digits. -/
def appendDigits (n : Nat) (digits : List Char) : Nat :=
  digits.foldl (fun n c => n * 10 + (c.toNat - '0'.toNat)) n

theorem appendDigits_cons (n : Nat) (c : Char) (digits : List Char) :
    appendDigits n (c :: digits) = appendDigits (n * 10 + (c.toNat - '0'.toNat)) digits := by
  rw [appendDigits, List.foldl_cons, appendDigits]

theorem natOfDigits_eq (digits : List Char) : natOfDigits digits = appendDigits 0 digits := rfl

theorem le_appendDigits (n : Nat) (digits : List Char) : n ≤ appendDigits n digits := by
  induction digits generalizing n with
  | nil => exact Nat.le_refl n
  | cons c digits ih =>
      calc n
        _ ≤ n * 10 + (c.toNat - '0'.toNat) := by omega
        _ ≤ appendDigits n (c :: digits) := ih _

/-- The number that is read downwards if it is negative. -/
def signed (negative : Bool) (n : Nat) : Int := if negative then -n else n

theorem readDigits_cons {low high : Int} {negative : Bool} {n : Nat} {c : Char}
    {digits : List Char} (hc : c.isDigit = true) (hlow : low ≤ 0) (hhigh : 0 ≤ high) :
    readDigits low high negative (signed negative n) (c :: digits)
      = (if low ≤ signed negative (n * 10 + (c.toNat - '0'.toNat))
            ∧ signed negative (n * 10 + (c.toNat - '0'.toNat)) ≤ high then
          readDigits low high negative (signed negative (n * 10 + (c.toNat - '0'.toNat))) digits
        else .error (if negative then .tooSmall else .tooLarge)) := by
  rw [readDigits, if_pos hc]
  generalize c.toNat - '0'.toNat = digit
  cases negative with
  | false =>
      have hnext : signed false n * 10 + (digit : Int) = signed false (n * 10 + digit) := by
        simp [signed]
      have hsign : low ≤ signed false (n * 10 + digit) := by
        simp only [signed, Bool.false_eq_true, if_false]
        omega
      simp only [Bool.false_eq_true, if_false, hnext, hsign, true_and]
      split <;> split <;> first | rfl | omega
  | true =>
      have hnext : signed true n * 10 - (digit : Int) = signed true (n * 10 + digit) := by
        simp only [signed, if_true]
        omega
      have hsign : signed true (n * 10 + digit) ≤ high := by
        simp only [signed, if_true]
        omega
      simp only [if_true, hnext, hsign, and_true]
      split <;> split <;> first | rfl | omega

/-- Digits are read if they are digits and the result is within the bounds. -/
theorem readDigits_eq_ok_iff {low high : Int} {negative : Bool} {n : Nat} {digits : List Char}
    {m : Int} (hlow : low ≤ 0) (hhigh : 0 ≤ high) (hn : low ≤ signed negative n)
    (hn' : signed negative n ≤ high) :
    readDigits low high negative (signed negative n) digits = .ok m
      ↔ (∀ c ∈ digits, c.isDigit = true) ∧ m = signed negative (appendDigits n digits)
        ∧ low ≤ m ∧ m ≤ high := by
  induction digits generalizing n with
  | nil =>
      constructor
      · intro h
        obtain rfl := Except.ok.inj h
        exact ⟨nofun, rfl, hn, hn'⟩
      · rintro ⟨-, rfl, -, -⟩
        rfl
  | cons c digits ih =>
      by_cases hc : c.isDigit = true
      · rw [readDigits_cons hc hlow hhigh, List.forall_mem_cons, appendDigits_cons]
        split
        · rename_i hrange
          rw [ih hrange.1 hrange.2]
          simp [hc]
        · rename_i hrange
          -- What has passed a bound does not come back.
          refine ⟨nofun, ?_⟩
          rintro ⟨-, rfl, hm, hm'⟩
          refine (hrange ?_).elim
          have hle := le_appendDigits (n * 10 + (c.toNat - '0'.toNat)) digits
          cases negative <;> simp only [signed, if_true, Bool.false_eq_true, if_false] at hm hm' ⊢
            <;> omega
      · rw [readDigits, if_neg hc]
        refine ⟨nofun, fun h => ?_⟩
        exact (hc (h.1 c (List.mem_cons_self ..))).elim

/-! ## Numbers with a sign -/

theorem denotes_plus_iff {digits : List Char} {n : Int} :
    Denotes ('+' :: digits) n
      ↔ digits ≠ [] ∧ (∀ c ∈ digits, c.isDigit = true) ∧ n = natOfDigits digits := by
  constructor
  · intro h
    cases h with
    | bare _ hdigits => exact absurd (hdigits '+' (List.mem_cons_self ..)) (by decide)
    | plus hne hdigits => exact ⟨hne, hdigits, rfl⟩
  · rintro ⟨hne, hdigits, rfl⟩
    exact .plus hne hdigits

theorem denotes_minus_iff {digits : List Char} {n : Int} :
    Denotes ('-' :: digits) n
      ↔ digits ≠ [] ∧ (∀ c ∈ digits, c.isDigit = true) ∧ n = -natOfDigits digits := by
  constructor
  · intro h
    cases h with
    | bare _ hdigits => exact absurd (hdigits '-' (List.mem_cons_self ..)) (by decide)
    | minus hne hdigits => exact ⟨hne, hdigits, rfl⟩
  · rintro ⟨hne, hdigits, rfl⟩
    exact .minus hne hdigits

theorem denotes_iff_of_no_sign {cs : List Char} {n : Int} (hplus : ∀ rest, cs ≠ '+' :: rest)
    (hminus : ∀ rest, cs ≠ '-' :: rest) :
    Denotes cs n ↔ cs ≠ [] ∧ (∀ c ∈ cs, c.isDigit = true) ∧ n = natOfDigits cs := by
  constructor
  · intro h
    cases h with
    | bare hne hdigits => exact ⟨hne, hdigits, rfl⟩
    | plus => exact (hplus _ rfl).elim
    | minus => exact (hminus _ rfl).elim
  · rintro ⟨hne, hdigits, rfl⟩
    exact .bare hne hdigits

/-- Exactly those texts are read that denote a number within the bounds.
Without negative numbers a minus sign is none. -/
theorem readDecimal_eq_ok_iff {low high : Int} (hlow : low ≤ 0) (hhigh : 0 ≤ high)
    {cs : List Char} {n : Int} :
    readDecimal low high cs = .ok n
      ↔ Denotes cs n ∧ (low = 0 → ∀ digits, cs ≠ '-' :: digits) ∧ low ≤ n ∧ n ≤ high := by
  have hread : ∀ (negative : Bool) (digits : List Char),
      readDigits low high negative 0 digits = .ok n
        ↔ (∀ c ∈ digits, c.isDigit = true) ∧ n = signed negative (natOfDigits digits)
          ∧ low ≤ n ∧ n ≤ high := fun negative digits => by
    have hzero : signed negative 0 = 0 := by cases negative <;> rfl
    rw [← hzero, readDigits_eq_ok_iff hlow hhigh (by omega) (by omega), natOfDigits_eq]
  unfold readDecimal
  split
  · exact ⟨nofun, fun h => ((denotes_iff_of_no_sign (by simp) (by simp)).mp h.1).1.elim rfl⟩
  · rename_i digits
    rw [denotes_plus_iff]
    by_cases hne : digits = []
    · simp [hne]
    · rw [if_neg hne, hread, and_assoc, and_assoc]
      exact ⟨fun h => ⟨hne, h.1, h.2.1, fun _ => by simp, h.2.2⟩,
        fun h => ⟨h.2.1, h.2.2.1, h.2.2.2.2⟩⟩
  · rename_i digits
    rw [denotes_minus_iff]
    by_cases hne : digits = []
    · simp [hne]
    by_cases hzero : low = 0
    · rw [if_pos (Or.inr (by omega))]
      exact ⟨nofun, fun h => (h.2.1 hzero digits rfl).elim⟩
    · rw [if_neg (not_or.mpr ⟨hne, by omega⟩), hread, and_assoc, and_assoc]
      exact ⟨fun h => ⟨hne, h.1, h.2.1, fun h' => (hzero h').elim, h.2.2⟩,
        fun h => ⟨h.2.1, h.2.2.1, h.2.2.2.2⟩⟩
  · rename_i hempty hplus hminus
    rw [denotes_iff_of_no_sign hplus hminus, hread, and_assoc, and_assoc]
    exact ⟨fun h => ⟨hempty, h.1, h.2.1, fun _ => hminus, h.2.2⟩,
      fun h => ⟨h.2.1, h.2.2.1, h.2.2.2.2⟩⟩

theorem readInt32_eq_ok_iff {word : String} {n : Int} :
    readInt32 word = .ok n ↔ Denotes word.toList n ∧ -2 ^ 31 ≤ n ∧ n ≤ 2 ^ 31 - 1 := by
  rw [readInt32, readDecimal_eq_ok_iff (by decide) (by decide)]
  exact and_congr_right fun _ => and_iff_right fun hzero => absurd hzero (by decide)

/-! ## Numbers without a minus sign -/

/-- The text is at least one digit, perhaps behind a plus sign, and that is
its value. -/
def DenotesNat (cs : List Char) (n : Nat) : Prop :=
  ∃ digits, (cs = digits ∨ cs = '+' :: digits) ∧ digits ≠ []
    ∧ (∀ c ∈ digits, c.isDigit = true) ∧ n = natOfDigits digits

theorem denotesNat_iff {cs : List Char} {n : Nat} :
    DenotesNat cs n ↔ Denotes cs n ∧ ∀ digits, cs ≠ '-' :: digits := by
  constructor
  · rintro ⟨digits, rfl | rfl, hne, hdigits, rfl⟩
    · refine ⟨.bare hne hdigits, ?_⟩
      rintro rest rfl
      exact absurd (hdigits '-' (List.mem_cons_self ..)) (by decide)
    · exact ⟨.plus hne hdigits, by simp⟩
  · rintro ⟨h, hminus⟩
    generalize hm : (n : Int) = m at h
    cases h with
    | bare hne hdigits => exact ⟨_, Or.inl rfl, hne, hdigits, Int.ofNat.inj hm⟩
    | plus hne hdigits => exact ⟨_, Or.inr rfl, hne, hdigits, Int.ofNat.inj hm⟩
    | minus => exact (hminus _ rfl).elim

theorem readNat64_eq_ok_iff {word : String} {n : Nat} :
    readNat64 word = .ok n ↔ DenotesNat word.toList n ∧ n ≤ 2 ^ 64 - 1 := by
  have hread : ∀ m : Int, readDecimal 0 (2 ^ 64 - 1) word.toList = .ok m
      ↔ Denotes word.toList m ∧ (∀ digits, word.toList ≠ '-' :: digits)
        ∧ 0 ≤ m ∧ m ≤ 2 ^ 64 - 1 := fun m => by
    rw [readDecimal_eq_ok_iff (Int.le_refl 0) (by decide)]
    exact and_congr_right fun _ => and_congr_left fun _ => ⟨fun h => h rfl, fun h _ => h⟩
  rw [readNat64, Except.map_eq_ok_iff, denotesNat_iff]
  constructor
  · rintro ⟨m, hm, rfl⟩
    obtain ⟨hdenotes, hminus, hpos, hle⟩ := (hread m).mp hm
    obtain ⟨n, rfl⟩ := Int.eq_ofNat_of_zero_le hpos
    exact ⟨⟨hdenotes, hminus⟩, by omega⟩
  · rintro ⟨⟨hdenotes, hminus⟩, hle⟩
    exact ⟨n, (hread n).mpr ⟨hdenotes, hminus, by omega, by omega⟩, rfl⟩

end JobShell.Text
