import JobShell.Line.Scanner
import JobShell.Proofs.Spelling
import Mathlib.Data.List.Induction

/-!
# One pass over a line

The lexer reads a token after the other, each reader with the rest of the
line in its hands; the scan looks at each character once. They agree on
every line (`lex_eq_scan`), faults included.

Each reader is met by what the scan does on the same characters, from a
state in the mode the reader stands for. The quoted pieces come first
(`foldl_of_singleQuoted`, `foldl_of_doubleQuotedText`), then words, then the
line. A reader stops in front of the character that ends its word, where the
scan has that character still to come, so words are compared by the results
of the whole scan (`result_readWord`), not by states.

What the scan keeps of the word begun is then read off the characters since
the last token boundary (`Scanner.Remembers`), which every step keeps up: a
word is quoted if it has a quote or a backslash anywhere, and the number of a
redirection is one digit and nothing else. A quotation that is not closed has
been opened by the quote that the fault names (`Scanner.leavesOpen_iff`).
-/

namespace JobShell.Line

namespace Scanner

open Text (isBlank)

variable {draft : Draft} {done : List Token} {cs text rest : List Char}

/-! ## Quoted pieces -/

theorem foldl_of_singleQuoted (h : singleQuoted cs = some (text, rest)) :
    cs.foldl State.step ⟨.single, draft, done⟩
      = rest.foldl State.step ⟨.bare, draft.append text, done⟩ := by
  fun_induction singleQuoted cs generalizing draft text with
  | case1 => cases h
  | case2 =>
      obtain ⟨rfl, rfl⟩ := Prod.mk.inj (Option.some.inj h)
      rfl
  | case3 c cs hc ih =>
      obtain ⟨⟨text', rest'⟩, hquoted, heq⟩ := Option.map_eq_some_iff.mp h
      obtain ⟨rfl, rfl⟩ := Prod.mk.inj heq
      have hstep : State.step ⟨.single, draft, done⟩ c = ⟨.single, draft.append [c], done⟩ :=
        if_neg hc
      rw [List.foldl_cons, hstep, ih hquoted, Draft.append_append]
      rfl

theorem mode_of_singleQuoted (h : singleQuoted cs = none) :
    (cs.foldl State.step ⟨.single, draft, done⟩).mode = .single := by
  fun_induction singleQuoted cs generalizing draft with
  | case1 => rfl
  | case2 => cases h
  | case3 c cs hc ih =>
      have hstep : State.step ⟨.single, draft, done⟩ c = ⟨.single, draft.append [c], done⟩ :=
        if_neg hc
      rw [List.foldl_cons, hstep]
      exact ih (Option.map_eq_none_iff.mp h)

theorem step_double_escape (c : Char) :
    State.step (State.step ⟨.double, draft, done⟩ '\\') c
      = ⟨.double, draft.append (if isEscapable c then [c] else ['\\', c]), done⟩ := rfl

theorem step_double {c : Char} (hquote : c ≠ '"') (hback : c ≠ '\\') :
    State.step ⟨.double, draft, done⟩ c = ⟨.double, draft.append [c], done⟩ :=
  (if_neg hquote).trans (if_neg hback)

theorem foldl_of_doubleQuotedText (h : doubleQuotedText cs = some (text, rest)) :
    cs.foldl State.step ⟨.double, draft, done⟩
      = rest.foldl State.step ⟨.bare, draft.append text, done⟩ := by
  fun_induction doubleQuotedText cs generalizing draft text with
  | case1 | case3 => cases h
  | case2 =>
      obtain ⟨rfl, rfl⟩ := Prod.mk.inj (Option.some.inj h)
      rfl
  | case4 e more _ ih =>
      obtain ⟨⟨text', rest'⟩, hquoted, heq⟩ := Option.map_eq_some_iff.mp h
      obtain ⟨rfl, rfl⟩ := Prod.mk.inj heq
      rw [List.foldl_cons, List.foldl_cons, step_double_escape, ih hquoted, Draft.append_append]
      split <;> rfl
  | case5 c cs hquote hback ih =>
      obtain ⟨⟨text', rest'⟩, hquoted, heq⟩ := Option.map_eq_some_iff.mp h
      obtain ⟨rfl, rfl⟩ := Prod.mk.inj heq
      rw [List.foldl_cons, step_double hquote hback, ih hquoted, Draft.append_append]
      rfl

/-- A quotation that is not closed ends in its own text or right behind a
backslash. -/
theorem mode_of_doubleQuotedText (h : doubleQuotedText cs = none) :
    (cs.foldl State.step ⟨.double, draft, done⟩).mode = .double
      ∨ (cs.foldl State.step ⟨.double, draft, done⟩).mode = .doubleEscape := by
  fun_induction doubleQuotedText cs generalizing draft with
  | case1 => exact Or.inl rfl
  | case2 => cases h
  | case3 => exact Or.inr rfl
  | case4 e more _ ih =>
      rw [List.foldl_cons, List.foldl_cons, step_double_escape]
      exact ih (Option.map_eq_none_iff.mp h)
  | case5 c cs hquote hback ih =>
      rw [List.foldl_cons, step_double hquote hback]
      exact ih (Option.map_eq_none_iff.mp h)

/-! ## Words -/

/-- A character that ends the word begun is met as if the word had ended
before it, unless the word becomes the number of a redirection. -/
theorem step_ends {c : Char} (hc : endsWord c = true)
    (hnumber : direction? c = none ∨ draft.digit? = none) :
    State.step ⟨.bare, draft, done⟩ c = State.step ⟨.between, {}, draft.word :: done⟩ c := by
  have hne := ne_of_endsWord hc
  simp only [State.step, State.plain, if_neg hne.1, if_neg hne.2.1, if_neg hne.2.2]
  split_ifs with hblank hpipe hmark hin hout
  · rfl
  · rfl
  · rfl
  · have hdigit : draft.digit? = none := hnumber.resolve_left (by simp [direction?, hin])
    simp only [State.redirection, hdigit]
    rfl
  · have hdigit : draft.digit? = none := hnumber.resolve_left (by simp [direction?, hout])
    simp only [State.redirection, hdigit]
    rfl
  · simp [endsWord, hblank, hpipe, hmark, hin, hout] at hc

theorem step_number {c : Char} {direction : Direction} {digit : Nat}
    (hdirection : direction? c = some direction) (hdigit : draft.digit? = some digit) :
    State.step ⟨.bare, draft, done⟩ c
      = ⟨.between, {}, .redirect (some digit) direction :: done⟩ := by
  unfold direction? at hdirection
  split at hdirection
  · next hin =>
      obtain rfl := Option.some.inj hdirection
      subst hin
      show State.redirection ⟨.bare, draft, done⟩ .input = _
      simp only [State.redirection, hdigit]
  · split at hdirection
    · next hout =>
        obtain rfl := Option.some.inj hdirection
        subst hout
        show State.redirection ⟨.bare, draft, done⟩ .output = _
        simp only [State.redirection, hdigit]
    · cases hdirection

theorem step_bareChar {c : Char} (hc : IsBareChar c) {mode : Mode}
    (hmode : mode = .between ∨ mode = .bare) :
    State.step ⟨mode, draft, done⟩ c = ⟨.bare, draft.append [c], done⟩ := by
  obtain ⟨hblank, hmem⟩ := hc
  simp only [List.mem_cons, List.not_mem_nil, not_or] at hmem
  rcases hmode with rfl | rfl <;> simp [State.step, State.plain, hblank, hmem]

/-- Where the reader of a word stops, the scan goes on between words. -/
theorem result_readWord (draft : Draft) (cs : List Char) :
    (cs.foldl State.step ⟨.bare, draft, done⟩).result
      = (readWord draft cs).bind fun (t, rest) =>
          (rest.foldl State.step ⟨.between, {}, t :: done⟩).result := by
  fun_induction readWord draft cs with
  | case1 | case6 => rfl
  | case2 d cs hquoted =>
      show (cs.foldl State.step ⟨.single, d.appendQuoted [], done⟩).result = _
      rw [State.result, mode_of_singleQuoted hquoted]
      rfl
  | case3 d cs text left hquoted ih =>
      rw [← ih]
      show (cs.foldl State.step ⟨.single, d.appendQuoted [], done⟩).result = _
      rw [foldl_of_singleQuoted hquoted]
      rfl
  | case4 d cs hquoted =>
      show (cs.foldl State.step ⟨.double, d.appendQuoted [], done⟩).result = _
      rw [State.result]
      rcases mode_of_doubleQuotedText hquoted with hmode | hmode
      · rw [hmode]
        rfl
      · rw [hmode]
        rfl
  | case5 d cs text left hquoted _ ih =>
      rw [← ih]
      show (cs.foldl State.step ⟨.double, d.appendQuoted [], done⟩).result = _
      rw [foldl_of_doubleQuotedText hquoted]
      rfl
  | case7 d e more _ _ ih =>
      rw [← ih]
      rfl
  | case8 d c cs _ _ _ hends direction digit hdigit hdirection =>
      rw [List.foldl_cons, step_number hdirection hdigit]
      rfl
  | case9 d c cs _ _ _ hends hnumber =>
      have hnone : direction? c = none ∨ d.digit? = none := by
        cases hdirection : direction? c with
        | none => exact Or.inl rfl
        | some direction =>
            refine Or.inr (Option.eq_none_iff_forall_ne_some.mpr ?_)
            intro digit hdigit
            exact hnumber direction digit hdirection hdigit
      rw [List.foldl_cons, step_ends hends hnone]
      rfl
  | case10 d c cs hsingle hdouble hback hends ih =>
      have hc := isBareChar_of_not_endsWord (by simpa using hends) hsingle hdouble hback
      rw [← ih, List.foldl_cons, step_bareChar hc (Or.inr rfl)]

/-! ## Lines -/

/-- What begins no token of its own is the first character of a word, and the
scan need not know that it was between words. -/
theorem step_between {c : Char} (hc : endsWord c = false) :
    State.step ⟨.between, {}, done⟩ c = State.step ⟨.bare, {}, done⟩ c := by
  simp only [endsWord, Bool.or_eq_false_iff, decide_eq_false_iff_not] at hc
  obtain ⟨⟨⟨⟨hblank, hpipe⟩, hmark⟩, hin⟩, hout⟩ := hc
  simp [State.step, State.plain, hblank, hpipe, hmark, hin, hout]

theorem result_readToken {c : Char} (hc : isBlank c = false) (cs : List Char) :
    ((c :: cs).foldl State.step ⟨.between, {}, done⟩).result
      = (readToken c cs).bind fun (t, rest) =>
          (rest.foldl State.step ⟨.between, {}, t :: done⟩).result := by
  cases hends : endsWord c with
  | false =>
      rw [readToken_word hends, ← result_readWord, List.foldl_cons, List.foldl_cons,
        step_between hends]
  | true =>
      simp only [endsWord, hc, Bool.false_or, Bool.or_eq_true, decide_eq_true_eq] at hends
      rcases hends with ((rfl | rfl) | rfl) | rfl <;> rfl

theorem step_blank {c : Char} (hc : isBlank c = true) :
    State.step ⟨.between, {}, done⟩ c = ⟨.between, {}, done⟩ := by
  have hne := ne_of_endsWord (endsWord_of_isBlank hc)
  simp [State.step, State.plain, hc, hne, State.finish]

theorem result_foldl (done : List Token) (cs : List Char) :
    (cs.foldl State.step ⟨.between, {}, done⟩).result
      = (lex cs).map (done.reverse ++ ·) := by
  fun_induction lex cs generalizing done with
  | case1 => simp [State.result, State.finish, Except.map]
  | case2 c rest hblank ih => rw [List.foldl_cons, step_blank hblank, ih]
  | case3 c rest hblank fault hread =>
      rw [result_readToken (by simpa using hblank), hread]
      rfl
  | case4 c rest hblank t left hread ih =>
      rw [result_readToken (by simpa using hblank), hread]
      show (left.foldl State.step ⟨.between, {}, t :: done⟩).result = _
      rw [ih]
      cases lex left with
      | error fault => rfl
      | ok tokens => simp [Except.map]

end Scanner

/-- The lexer and the scan agree on every line. -/
theorem lex_eq_scan (line : List Char) : lex line = Scanner.scan line := by
  have h := Scanner.result_foldl [] line
  cases hlex : lex line with
  | error fault => rw [Scanner.scan, h, hlex]; rfl
  | ok tokens => rw [Scanner.scan, h, hlex]; rfl

namespace Scanner

variable {s : State} {c : Char} {raw : List Char}

/-! ## What the scan remembers -/

/-- The scan after a text. -/
abbrev after (text : List Char) : State := text.foldl State.step {}

theorem after_concat (text : List Char) (c : Char) : after (text ++ [c]) = (after text).step c :=
  List.foldl_concat ..

/-- The characters since the last token boundary, which are those of the word
begun. -/
def begun (text : List Char) : List Char :=
  (text.foldl (fun (x : State × List Char) c =>
    (x.1.step c, if (x.1.step c).mode = .between then [] else x.2 ++ [c])) ({}, [])).2

theorem begun_concat (text : List Char) (c : Char) :
    begun (text ++ [c]) = if (after (text ++ [c])).mode = .between then [] else begun text ++ [c] := by
  have hfst : ∀ (text : List Char) (x : State × List Char),
      (text.foldl (fun (x : State × List Char) c =>
        (x.1.step c, if (x.1.step c).mode = .between then [] else x.2 ++ [c])) x).1
        = text.foldl State.step x.1 := by
    intro text
    induction text with
    | nil => intro x; rfl
    | cons c text ih => intro x; exact ih _
  rw [begun, List.foldl_concat, after_concat]
  simp only [hfst]
  rfl

/-- A character that makes a word a quoted one. -/
def IsMark (c : Char) : Prop := c = '\'' ∨ c = '"' ∨ c = '\\'

/-- The quote that opened the quotation the scan is in. -/
def State.openQuote? (s : State) : Option Char :=
  match s.mode with
  | .single => some '\''
  | .double | .doubleEscape => some '"'
  | .between | .bare | .bareEscape => none

/-- The scan is outside quotes and escapes. -/
def State.IsPlain (s : State) : Prop := s.mode = .between ∨ s.mode = .bare

theorem finish_eq (hempty : s.mode = .between → s.draft = {}) :
    s.finish = ⟨.between, {}, s.finish.done⟩ := by
  obtain ⟨mode, draft, done⟩ := s
  cases mode with
  | between =>
      obtain rfl := hempty rfl
      rfl
  | bare | single | double | bareEscape | doubleEscape => rfl

theorem redirection_eq (hempty : s.mode = .between → s.draft = {}) (direction : Direction) :
    s.redirection direction = ⟨.between, {}, (s.redirection direction).done⟩ := by
  unfold State.redirection
  split
  · rfl
  · rw [State.operator, finish_eq hempty]

/-- What one more character can do: outside quotes and escapes it ends a token,
makes the word a quoted one or is added to it; elsewhere the word goes on. -/
inductive Goes (s : State) (c : Char) : State → Prop
  | ends (hplain : s.IsPlain) (done : List Token) : Goes s c ⟨.between, {}, done⟩
  | marks (hplain : s.IsPlain) (hmark : IsMark c) {mode : Mode} (hmode : mode ≠ .between) :
      Goes s c ⟨mode, s.draft.appendQuoted [], s.done⟩
  | adds (hplain : s.IsPlain) (hmark : ¬IsMark c) : Goes s c ⟨.bare, s.draft.append [c], s.done⟩
  | within (hplain : ¬s.IsPlain) {mode : Mode} (more : List Char) (hmode : mode ≠ .between) :
      Goes s c ⟨mode, s.draft.append more, s.done⟩

theorem goes_plain (hplain : s.IsPlain) (hempty : s.mode = .between → s.draft = {}) (c : Char) :
    Goes s c (s.plain c) := by
  unfold State.plain
  split_ifs with hsingle hdouble hback hblank hpipe hmark hin hout
  · exact .marks hplain (Or.inl hsingle) nofun
  · exact .marks hplain (Or.inr (Or.inl hdouble)) nofun
  · exact .marks hplain (Or.inr (Or.inr hback)) nofun
  · rw [finish_eq hempty]
    exact .ends hplain _
  · rw [State.operator, finish_eq hempty]
    exact .ends hplain _
  · rw [State.operator, finish_eq hempty]
    exact .ends hplain _
  · rw [redirection_eq hempty]
    exact .ends hplain _
  · rw [redirection_eq hempty]
    exact .ends hplain _
  · have hmarks : ¬IsMark c := by
      rintro (h | h | h)
      · exact hsingle h
      · exact hdouble h
      · exact hback h
    exact .adds hplain hmarks

theorem goes_step (hempty : s.mode = .between → s.draft = {}) (c : Char) :
    Goes s c (s.step c) := by
  obtain ⟨mode, draft, done⟩ := s
  cases mode with
  | between => exact goes_plain (Or.inl rfl) hempty c
  | bare => exact goes_plain (Or.inr rfl) hempty c
  | single =>
      have hplain : ¬State.IsPlain ⟨.single, draft, done⟩ := by
        rintro (h | h) <;> cases h
      simp only [State.step]
      split
      · exact .within hplain [] nofun
      · exact .within hplain [c] nofun
  | double =>
      have hplain : ¬State.IsPlain ⟨.double, draft, done⟩ := by
        rintro (h | h) <;> cases h
      simp only [State.step]
      split_ifs
      · exact .within hplain [] nofun
      · exact .within hplain [] nofun
      · exact .within hplain [c] nofun
  | bareEscape =>
      exact .within (by rintro (h | h) <;> cases h) [c] nofun
  | doubleEscape =>
      exact .within (by rintro (h | h) <;> cases h) _ nofun

/-- The draft has what can be read off the characters of the word begun. -/
structure Remembers (s : State) (raw : List Char) : Prop where
  between : s.mode = .between → raw = [] ∧ s.draft = {}
  inside : s.mode ≠ .between → raw ≠ []
  quoted : s.draft.quoted = true ↔ ∃ c ∈ raw, IsMark c
  /-- Only outside quotes and escapes can a word be unquoted. -/
  marked : ¬s.IsPlain → s.draft.quoted = true
  text : s.draft.quoted = false → s.draft.text = raw.reverse

theorem remembers_ended (done : List Token) : Remembers ⟨.between, {}, done⟩ [] where
  between _ := ⟨rfl, rfl⟩
  inside hmode := (hmode rfl).elim
  quoted := by simp
  marked hplain := (hplain (Or.inl rfl)).elim
  text _ := rfl

/-- A word that is or becomes a quoted one goes on. -/
theorem remembers_quoted {draft : Draft} {done : List Token} {mode : Mode}
    (hmode : mode ≠ .between) (hquoted : draft.quoted = true) (hmark : ∃ d ∈ raw ++ [c], IsMark d) :
    Remembers ⟨mode, draft, done⟩ (raw ++ [c]) where
  between h := (hmode h).elim
  inside _ := by simp
  quoted := iff_of_true hquoted hmark
  marked _ := hquoted
  text h := by
    rw [hquoted] at h
    cases h

theorem Remembers.step (h : Remembers s raw) (c : Char) :
    Remembers (s.step c) (if (s.step c).mode = .between then [] else raw ++ [c]) := by
  have hgoes := goes_step (fun hbetween => (h.between hbetween).2) c
  generalize s.step c = s' at hgoes ⊢
  cases hgoes with
  | ends _ done => exact remembers_ended done
  | marks _ hmark hmode =>
      rw [if_neg hmode]
      exact remembers_quoted hmode rfl ⟨c, by simp, hmark⟩
  | adds _ hmark =>
      rw [if_neg nofun]
      exact
        { between := nofun
          inside := fun _ => by simp
          quoted := by simpa [Draft.append, hmark, or_and_right, exists_or] using h.quoted
          marked := fun hplain => (hplain (Or.inr rfl)).elim
          text := fun hquoted => by simp [Draft.append, h.text hquoted] }
  | within hplain more hmode =>
      have hquoted := h.marked hplain
      obtain ⟨d, hd, hmark⟩ := h.quoted.mp hquoted
      rw [if_neg hmode]
      exact remembers_quoted hmode hquoted ⟨d, List.mem_append_left _ hd, hmark⟩

theorem remembers_begun (text : List Char) : Remembers (after text) (begun text) := by
  induction text using List.reverseRecOn with
  | nil => exact remembers_ended []
  | append_singleton text c ih =>
      rw [begun_concat, after_concat]
      exact ih.step c

/-- The word begun can be the number of a redirection exactly if it is one
digit, written as it is. -/
theorem Remembers.digit?_eq_some_iff (h : Remembers s raw) {digit : Nat} :
    s.draft.digit? = some digit
      ↔ ∃ c, raw = [c] ∧ c.isDigit = true ∧ digit = c.toNat - '0'.toNat := by
  obtain ⟨mode, ⟨text, quoted⟩, done⟩ := s
  constructor
  · intro hdigit
    unfold Draft.digit? at hdigit
    split at hdigit
    · rename_i c htext hquoted
      split at hdigit
      · rename_i hc
        obtain rfl : text = [c] := htext
        have hraw : raw = [c] := by
          rw [← List.reverse_reverse raw, ← h.text hquoted]
          rfl
        exact ⟨c, hraw, hc, (Option.some.inj hdigit).symm⟩
      · cases hdigit
    · cases hdigit
  · rintro ⟨c, rfl, hc, rfl⟩
    have hmark : ¬IsMark c := by
      rintro (rfl | rfl | rfl) <;> cases hc
    have hquoted : quoted = false := by
      rw [← Bool.not_eq_true]
      intro hquoted
      obtain ⟨d, hd, hd'⟩ := h.quoted.mp hquoted
      exact hmark (List.mem_singleton.mp hd ▸ hd')
    have htext : text = [c] := h.text hquoted
    subst hquoted htext
    exact if_pos hc

/-! ## Quotations that are not closed -/

theorem mode_finish (s : State) : s.finish.mode = .between := by
  obtain ⟨mode, draft, done⟩ := s
  cases mode <;> rfl

theorem mode_redirection (s : State) (direction : Direction) :
    (s.redirection direction).mode = .between := by
  unfold State.redirection
  split
  · rfl
  · exact mode_finish s

theorem openQuote?_of_between (h : s.mode = .between) : s.openQuote? = none := by
  rw [State.openQuote?, h]

/-- Outside quotes and escapes only a quote begins a quotation. -/
theorem openQuote?_of_plain {quote : Char} (h : (s.plain c).openQuote? = some quote) :
    c = quote := by
  unfold State.plain at h
  split_ifs at h with hsingle hdouble hback hblank hpipe hmark hin hout
  · exact hsingle.trans (Option.some.inj h)
  · exact hdouble.trans (Option.some.inj h)
  · cases h
  · rw [openQuote?_of_between (mode_finish s)] at h
    cases h
  · rw [openQuote?_of_between (s := s.operator .pipe) (mode_finish s)] at h
    cases h
  · rw [openQuote?_of_between (s := s.operator .background) (mode_finish s)] at h
    cases h
  · rw [openQuote?_of_between (mode_redirection s .input)] at h
    cases h
  · rw [openQuote?_of_between (mode_redirection s .output)] at h
    cases h
  · cases h

/-- A quotation is opened by the quote it is waiting for. -/
theorem openQuote?_of_step {quote : Char} (h : (s.step c).openQuote? = some quote) :
    s.openQuote? = some quote ∨ s.openQuote? = none ∧ c = quote := by
  obtain ⟨mode, draft, done⟩ := s
  cases mode with
  | between | bare => exact Or.inr ⟨rfl, openQuote?_of_plain h⟩
  | single =>
      simp only [State.step] at h
      split at h
      · cases h
      · exact Or.inl h
  | double =>
      simp only [State.step] at h
      split_ifs at h
      · cases h
      · exact Or.inl h
      · exact Or.inl h
  | bareEscape => cases h
  | doubleEscape => exact Or.inl h

/-- The text opens a quotation with `quote` and does not close it. -/
def LeavesOpen (text : List Char) (quote : Char) : Prop :=
  ∃ front inside, text = front ++ quote :: inside ∧ (after front).openQuote? = none
    ∧ ∀ part, part <+: inside → (after (front ++ quote :: part)).openQuote? = some quote

theorem leavesOpen_iff {text : List Char} {quote : Char} :
    LeavesOpen text quote ↔ (after text).openQuote? = some quote := by
  constructor
  · rintro ⟨front, inside, rfl, -, hopen⟩
    exact hopen inside (List.prefix_refl _)
  · intro h
    induction text using List.reverseRecOn with
    | nil => cases h
    | append_singleton text c ih =>
        rw [after_concat] at h
        rcases openQuote?_of_step h with hbefore | ⟨hnone, rfl⟩
        · obtain ⟨front, inside, htext, hnone, hopen⟩ := ih hbefore
          refine ⟨front, inside ++ [c], by simp [htext], hnone, fun part hpart => ?_⟩
          rcases List.prefix_concat_iff.mp hpart with rfl | hpart
          · have htext' : front ++ quote :: (inside ++ [c]) = text ++ [c] := by simp [htext]
            rw [htext', after_concat]
            exact h
          · exact hopen part hpart
        · refine ⟨text, [], rfl, hnone, fun part hpart => ?_⟩
          obtain rfl := List.prefix_nil.mp hpart
          rw [after_concat]
          exact h

theorem result_eq_error_iff {fault : SyntaxFault} :
    s.result = .error fault ↔ ∃ quote, fault = .unterminated quote ∧ s.openQuote? = some quote := by
  obtain ⟨mode, draft, done⟩ := s
  cases mode <;> simp [State.result, State.openQuote?, eq_comm]

end Scanner

open Scanner in
/-- **The lexer is a one-pass scan**, faults included. It fails exactly if a
quotation is left open, and names the quote that opened it. The word begun is
a quoted one exactly if a quote or a backslash was in it, and can be the number
of a redirection exactly if it is one digit and nothing else. -/
theorem lex_in_one_pass (line : List Char) :
    lex line = scan line
      ∧ (∀ fault, lex line = .error fault
          ↔ ∃ quote, fault = .unterminated quote ∧ LeavesOpen line quote)
      ∧ ((after line).draft.quoted = true ↔ ∃ c ∈ begun line, IsMark c)
      ∧ ∀ digit, (after line).draft.digit? = some digit
          ↔ ∃ c, begun line = [c] ∧ c.isDigit = true ∧ digit = c.toNat - '0'.toNat := by
  have hremembers := remembers_begun line
  refine ⟨lex_eq_scan line, fun fault => ?_, hremembers.quoted,
    fun digit => hremembers.digit?_eq_some_iff⟩
  rw [lex_eq_scan, scan, result_eq_error_iff]
  simp only [leavesOpen_iff]

-- A digit counts only if it is the whole word and not quoted.
example : (lex "a''\\ 2> '2'>x 2>y\\".toList).toOption
    = some [.word "a 2" true, .redirect none .output, .word "2" true, .redirect none .output,
        .word "x" false, .redirect (some 2) .output, .word "y" true] := by decide +kernel

end JobShell.Line
