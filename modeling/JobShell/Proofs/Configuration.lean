import JobShell.Proofs.Decimals
import JobShell.Proofs.Trimming
import JobShell.Settings

/-!
# What the environment configures

How many notices may be pending is written as a number among blanks
(`IsCount`). A text that is no such number, or one that is zero or does not
fit, leaves the default and a warning that quotes the whole text, blanks and
all (`configured_ofLookup`).

The number itself is that of `Text.DenotesNat`. What is new here is that
cutting off blanks finds it: neither a digit nor the plus sign is a blank.
-/

namespace JobShell

namespace Text

theorem isBlank_eq_false_of_isDigit {c : Char} (h : c.isDigit = true) : isBlank c = false := by
  simp only [Char.isDigit, Bool.and_eq_true, decide_eq_true_eq, ge_iff_le, UInt32.le_iff_toNat_le]
    at h
  have hlow : 48 ≤ c.toNat := h.1
  have hhigh : c.toNat ≤ 57 := h.2
  simp only [isBlank, blankRanges, List.any_cons, List.any_nil, Bool.or_false, Bool.or_eq_false_iff,
    Bool.and_eq_false_iff, decide_eq_false_iff_not]
  omega

theorem DenotesNat.not_isBlank {cs : List Char} {n : Nat} (h : DenotesNat cs n) :
    ∀ c ∈ cs, isBlank c = false := by
  obtain ⟨digits, rfl | rfl, -, hdigits, -⟩ := h
  · exact fun c hc => isBlank_eq_false_of_isDigit (hdigits c hc)
  · intro c hc
    rcases List.mem_cons.mp hc with rfl | hc
    · decide
    · exact isBlank_eq_false_of_isDigit (hdigits c hc)

theorem trim_blanks_append {blanks : List Char} (hblanks : ∀ c ∈ blanks, isBlank c = true)
    (cs : List Char) : trim (blanks ++ cs) = trim cs := by
  induction blanks with
  | nil => rfl
  | cons c blanks ih =>
      rw [List.forall_mem_cons] at hblanks
      rw [← ih hblanks.2, trim, trim, List.cons_append, List.dropWhile_cons_of_pos hblanks.1]

theorem trim_eq_self {cs : List Char} (h : ∀ c ∈ cs, isBlank c = false) : trim cs = cs := by
  have hdrop : ∀ ds : List Char, (∀ c ∈ ds, isBlank c = false) → ds.dropWhile isBlank = ds := by
    intro ds hds
    cases ds with
    | nil => rfl
    | cons c ds =>
        exact List.dropWhile_cons_of_neg (by rw [hds c (List.mem_cons_self ..)]; decide)
  rw [trim, hdrop cs h, hdrop cs.reverse fun c hc => h c (List.mem_reverse.mp hc),
    List.reverse_reverse]

/-- The text is a number, with or without a plus sign, among blanks. -/
def IsCount (text : String) (n : Nat) : Prop :=
  ∃ front number back, text.toList = front ++ (number ++ back)
    ∧ (∀ c ∈ front, isBlank c = true) ∧ (∀ c ∈ back, isBlank c = true) ∧ DenotesNat number n

theorem isCount_iff {text : String} {n : Nat} :
    IsCount text n ↔ DenotesNat (trim text.toList) n := by
  constructor
  · rintro ⟨front, number, back, htext, hfront, hback, hnumber⟩
    rwa [htext, trim_blanks_append hfront, trim_append hback, trim_eq_self hnumber.not_isBlank]
  · intro h
    obtain ⟨front, back, htext, hfront, hback⟩ := exists_blanks text.toList
    exact ⟨front, trim text.toList, back, htext, hfront, hback, h⟩

end Text

namespace Settings

open Text (IsCount)

theorem readCapacity_eq_some_iff {text : String} {n : Nat} :
    readCapacity text = some n ↔ IsCount text n ∧ 1 ≤ n ∧ n ≤ 2 ^ 64 - 1 := by
  rw [Text.isCount_iff]
  have hread : ∀ m, Text.readNat64 (String.ofList (Text.trim text.toList)) = .ok m
      ↔ Text.DenotesNat (Text.trim text.toList) m ∧ m ≤ 2 ^ 64 - 1 := fun m => by
    rw [Text.readNat64_eq_ok_iff, String.toList_ofList]
  unfold readCapacity
  split
  · rename_i m hm
    obtain ⟨hdenotes, hle⟩ := (hread m).mp hm
    constructor
    · intro h
      split at h
      · rename_i hpos
        obtain rfl := Option.some.inj h
        exact ⟨hdenotes, hpos, hle⟩
      · cases h
    · rintro ⟨hn, hpos, hle'⟩
      obtain rfl : m = n := Except.ok.inj (hm.symm.trans ((hread n).mpr ⟨hn, hle'⟩))
      exact if_pos hpos
  · rename_i fault hfault
    refine ⟨nofun, ?_⟩
    rintro ⟨hn, -, hle⟩
    rw [(hread n).mpr ⟨hn, hle⟩] at hfault
    cases hfault

example : readCapacity "\t+0018446744073709551615 " = some (2 ^ 64 - 1) := by decide +kernel

/-- The name of the variable that says how many notices may be pending. -/
def capacityName : String := "JOBSH_NOTIFY_CAPACITY"

variable {lookup : String → Option String} {text : String}

theorem ofLookup_of_readCapacity {n : Nat} (hset : lookup capacityName = some text)
    (hread : readCapacity text = some n) :
    (ofLookup lookup).noticeCapacity = n ∧ (ofLookup lookup).warnings = [] := by
  rw [capacityName] at hset
  simp [ofLookup, hset, hread]

theorem ofLookup_of_not_readCapacity (hset : lookup capacityName = some text)
    (hread : readCapacity text = none) :
    (ofLookup lookup).noticeCapacity = NoticeQueue.defaultCapacity
      ∧ (ofLookup lookup).warnings = [capacityWarning text] := by
  rw [capacityName] at hset
  simp [ofLookup, hset, hread]

theorem ofLookup_of_unset (hunset : lookup capacityName = none) :
    (ofLookup lookup).noticeCapacity = NoticeQueue.defaultCapacity
      ∧ (ofLookup lookup).warnings = [] := by
  rw [capacityName] at hunset
  simp [ofLookup, hunset]

/-- The settings are what the variables that `lookup` finds configure. -/
structure Configured (lookup : String → Option String) (s : Settings) : Prop where
  positive : 1 ≤ s.noticeCapacity
  accepted : ∀ text n, lookup capacityName = some text → IsCount text n →
    1 ≤ n → n ≤ 2 ^ 64 - 1 → s.noticeCapacity = n ∧ s.warnings = []
  /-- Any other text leaves the default, and is quoted as it was given. -/
  refused : ∀ text, lookup capacityName = some text →
    (∀ n, IsCount text n → n = 0 ∨ 2 ^ 64 - 1 < n) → s.noticeCapacity = 10
      ∧ s.warnings = ["ignoring JOBSH_NOTIFY_CAPACITY=" ++ text
        ++ ": expected a positive number, using 10"]
  unset : lookup capacityName = none → s.noticeCapacity = 10 ∧ s.warnings = []
  /-- Nothing else depends on that variable. -/
  apart : ∀ other, (∀ name, name ≠ capacityName → other name = lookup name) →
    (ofLookup other).prompt = s.prompt ∧ (ofLookup other).devLog = s.devLog
  devLog : s.devLog = none ↔ lookup "JOBSH_LOG" = none ∨ lookup "JOBSH_LOG" = some ""

theorem capacityWarning_eq (text : String) :
    capacityWarning text = "ignoring JOBSH_NOTIFY_CAPACITY=" ++ text
      ++ ": expected a positive number, using 10" := by
  have hten : toString NoticeQueue.defaultCapacity = "10" := by decide +kernel
  have hend : "using " ++ "10" = "using 10" := by decide +kernel
  have hrest : ": expected a positive number, " ++ "using 10"
      = ": expected a positive number, using 10" := by decide +kernel
  unfold capacityWarning
  rw [hten]
  simp only [toString]
  rw [hend, String.append_assoc, hrest]

/-- **What the environment configures.** Whatever variables there are, the
settings made of them are the ones they configure. -/
theorem configured_ofLookup (lookup : String → Option String) :
    Configured lookup (ofLookup lookup) where
  positive := by
    cases hset : lookup capacityName with
    | none =>
        rw [(ofLookup_of_unset hset).1]
        decide
    | some text =>
        cases hread : readCapacity text with
        | none =>
            rw [(ofLookup_of_not_readCapacity hset hread).1]
            decide
        | some n =>
            rw [(ofLookup_of_readCapacity hset hread).1]
            exact (readCapacity_eq_some_iff.mp hread).2.1
  accepted text n hset hcount hpos hle :=
    ofLookup_of_readCapacity hset (readCapacity_eq_some_iff.mpr ⟨hcount, hpos, hle⟩)
  refused := by
    intro text hset hnone
    have hread : readCapacity text = none := by
      refine Option.eq_none_iff_forall_ne_some.mpr fun n hread => ?_
      obtain ⟨hcount, hpos, hle⟩ := readCapacity_eq_some_iff.mp hread
      rcases hnone n hcount with hzero | hlarge
      · omega
      · omega
    rw [← capacityWarning_eq]
    exact ofLookup_of_not_readCapacity hset hread
  unset := ofLookup_of_unset
  apart := by
    intro other hother
    simp only [ofLookup]
    rw [hother "JOBSH_PROMPT" (by decide), hother "JOBSH_LOG" (by decide)]
    exact ⟨rfl, rfl⟩
  devLog := by
    simp only [ofLookup]
    cases lookup "JOBSH_LOG" with
    | none => simp
    | some path => simp [Option.filter]

end Settings

end JobShell
