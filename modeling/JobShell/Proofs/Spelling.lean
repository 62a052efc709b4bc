import JobShell.Line.Lexer
import JobShell.Proofs.Results
import Mathlib.Data.List.Forall2

/-!
# How tokens are written

The lexer reads back what is written. `Token.WrittenAs` lists the ways to
write a token: a word without special characters as it is, any other text
quoted in one of three ways (`Quotes`), operators by their symbols. One
after the other and separated by blanks, tokens written in any of these ways
are read back (`lex_intercalate`), and whatever the lexer reads is well
formed (`isWellFormed_of_lex`), so it can be written again.

Each reader of the lexer is met once, with some text still behind what it
reads: `singleQuoted_append`, `doubleQuotedText_append`, and `readWord` for
bare and for escaped characters. `lex_append` puts them together for a token.
-/

namespace JobShell.Line

open Text (isBlank)

/-! ## Well-formed tokens -/

/-- The character stands for itself outside quotes. -/
def IsBareChar (c : Char) : Prop :=
  isBlank c = false ∧ c ∉ ['|', '&', '<', '>', '\'', '"', '\\']

/-- The text can stand on a line as it is. -/
def IsBare (text : List Char) : Prop := text ≠ [] ∧ ∀ c ∈ text, IsBareChar c

/-- Only what can stand on a line as it is comes as an unquoted word, and
only a digit in front of an operator. -/
def Token.IsWellFormed : Token → Prop
  | .word text false => IsBare text.toList
  | .redirect (some fd) _ => fd ≤ 9
  | .word _ true | .redirect none _ | .pipe | .background => True

instance (c : Char) : Decidable (IsBareChar c) := inferInstanceAs (Decidable (_ ∧ _))

-- Only the characters of the text are looked at, not all that there are.
instance (text : List Char) : Decidable (IsBare text) :=
  @instDecidableAnd _ _ inferInstance (List.decidableBAll _ text)

instance : DecidablePred Token.IsWellFormed
  | .word text false => inferInstanceAs (Decidable (IsBare text.toList))
  | .redirect (some fd) _ => inferInstanceAs (Decidable (fd ≤ 9))
  | .word _ true | .redirect none _ | .pipe | .background => inferInstanceAs (Decidable True)

/-! ## Ways to write a token -/

/-- `text` between single quotes. -/
def inSingleQuotes (text : List Char) : List Char := '\'' :: text ++ ['\'']

/-- `text` with a backslash in front of every character. -/
def escaped (text : List Char) : List Char := text.flatMap fun c => ['\\', c]

/-- The ways to quote a text. -/
inductive Quotes (text : List Char) : List Char → Prop
  | double : Quotes text (doubleQuoted text)
  | single (hquote : '\'' ∉ text) : Quotes text (inSingleQuotes text)
  | backslash (hne : text ≠ []) : Quotes text (escaped text)

/-- The ways to write a token. -/
inductive Token.WrittenAs : Token → List Char → Prop
  | bare {text : String} (hbare : IsBare text.toList) : WrittenAs (.word text false) text.toList
  | quoted {text : String} {cs : List Char} (hquotes : Quotes text.toList cs) :
      WrittenAs (.word text true) cs
  | pipe : WrittenAs .pipe ['|']
  | background : WrittenAs .background ['&']
  | operator (direction : Direction) : WrittenAs (.redirect none direction) [direction.symbol]
  | numbered {fd : Nat} (direction : Direction) (hfd : fd ≤ 9) :
      WrittenAs (.redirect (some fd) direction) ((toString fd).toList ++ [direction.symbol])

/-- Rendering is one of the ways to write a well-formed token. -/
theorem Token.writtenAs_render {t : Token} (h : t.IsWellFormed) : t.WrittenAs t.render := by
  cases t with
  | word text quoted =>
      cases quoted with
      | true => exact .quoted .double
      | false => exact .bare h
  | pipe => exact .pipe
  | background => exact .background
  | redirect fd direction =>
      cases fd with
      | none => exact .operator direction
      | some fd => exact .numbered direction h

/-! ## Reading quoted text -/

theorem singleQuoted_append {text : List Char} (hquote : '\'' ∉ text) (rest : List Char) :
    singleQuoted (text ++ '\'' :: rest) = some (text, rest) := by
  induction text with
  | nil => rfl
  | cons c text ih =>
      obtain ⟨hc, htext⟩ := not_or.mp (mt List.mem_cons.mpr hquote)
      rw [List.cons_append, singleQuoted, if_neg (Ne.symm hc), ih htext]
      rfl

theorem doubleQuotedText_close (rest : List Char) :
    doubleQuotedText ('"' :: rest) = some ([], rest) := by
  rw [doubleQuotedText.eq_def]
  rfl

theorem doubleQuotedText_escaped {c : Char} (hc : isEscapable c = true) (rest : List Char) :
    doubleQuotedText ('\\' :: c :: rest)
      = (doubleQuotedText rest).map fun (text, left) => (c :: text, left) := by
  rw [doubleQuotedText.eq_def]
  simp [hc]

theorem doubleQuotedText_cons {c : Char} (hc : isEscapable c = false) (rest : List Char) :
    doubleQuotedText (c :: rest)
      = (doubleQuotedText rest).map fun (text, left) => (c :: text, left) := by
  -- What is not escapable is neither a quote nor a backslash.
  simp only [isEscapable, Bool.or_eq_false_iff, decide_eq_false_iff_not] at hc
  obtain ⟨⟨⟨hquote, hback⟩, -⟩, -⟩ := hc
  rw [doubleQuotedText.eq_def]
  simp only [if_neg hquote, if_neg hback]

theorem doubleQuotedText_append (text rest : List Char) :
    doubleQuotedText
        (text.flatMap (fun c => if isEscapable c then ['\\', c] else [c]) ++ '"' :: rest)
      = some (text, rest) := by
  induction text with
  | nil => exact doubleQuotedText_close rest
  | cons c text ih =>
      rw [List.flatMap_cons, List.append_assoc]
      cases hc : isEscapable c with
      | true =>
          simp only [if_true, List.cons_append, List.nil_append]
          rw [doubleQuotedText_escaped hc, ih]
          rfl
      | false =>
          simp only [Bool.false_eq_true, if_false, List.cons_append, List.nil_append]
          rw [doubleQuotedText_cons hc, ih]
          rfl

/-! ## Reading words -/

namespace Draft

theorem append_append (d : Draft) (text more : List Char) :
    (d.append text).append more = d.append (text ++ more) := by
  simp [append]

theorem appendQuoted_appendQuoted (d : Draft) (text more : List Char) :
    (d.appendQuoted text).appendQuoted more = d.appendQuoted (text ++ more) := by
  simp [appendQuoted, append]

theorem word_append (text : List Char) :
    (append {} text).word = .word (String.ofList text) false := by
  simp [append, word]

theorem word_appendQuoted (text : List Char) :
    (appendQuoted {} text).word = .word (String.ofList text) true := by
  simp [appendQuoted, append, word]

end Draft

theorem endsWord_of_isBlank {c : Char} (h : isBlank c = true) : endsWord c = true := by
  simp [endsWord, h]

/-- Nothing that ends a word is part of a quotation or an escape. -/
theorem ne_of_endsWord {c : Char} (h : endsWord c = true) :
    c ≠ '\'' ∧ c ≠ '"' ∧ c ≠ '\\' := by
  refine ⟨?_, ?_, ?_⟩ <;> rintro rfl <;> exact absurd h (by decide)

theorem not_endsWord_of_isBareChar {c : Char} (h : IsBareChar c) : endsWord c = false := by
  obtain ⟨hblank, hmem⟩ := h
  simp only [List.mem_cons, List.not_mem_nil, not_or] at hmem
  simp [endsWord, hblank, hmem]

/-- A character that ends no word and opens no quotation is a bare one. -/
theorem isBareChar_of_not_endsWord {c : Char} (hends : endsWord c = false) (hsingle : c ≠ '\'')
    (hdouble : c ≠ '"') (hback : c ≠ '\\') : IsBareChar c := by
  simp only [endsWord, Bool.or_eq_false_iff, decide_eq_false_iff_not] at hends
  simp [IsBareChar, hends, hsingle, hdouble, hback]

theorem readWord_nil (d : Draft) : readWord d [] = .ok (d.word, []) := by
  rw [readWord.eq_def]

theorem readWord_single {text cs rest : List Char} (h : singleQuoted cs = some (text, rest))
    (d : Draft) : readWord d ('\'' :: cs) = readWord (d.appendQuoted text) rest := by
  rw [readWord.eq_def]
  simp only [if_pos]
  split
  · rename_i hnone
    rw [h] at hnone
    cases hnone
  · rename_i hsome
    rw [h] at hsome
    obtain ⟨rfl, rfl⟩ := Prod.mk.inj (Option.some.inj hsome)
    rfl

theorem readWord_double {text cs rest : List Char} (h : doubleQuotedText cs = some (text, rest))
    (d : Draft) : readWord d ('"' :: cs) = readWord (d.appendQuoted text) rest := by
  rw [readWord.eq_def]
  simp only [if_pos, if_neg (show '"' ≠ '\'' by decide)]
  split
  · rename_i hnone
    rw [h] at hnone
    cases hnone
  · rename_i hsome
    rw [h] at hsome
    obtain ⟨rfl, rfl⟩ := Prod.mk.inj (Option.some.inj hsome)
    rfl

theorem readWord_escapedChar (d : Draft) (c : Char) (rest : List Char) :
    readWord d ('\\' :: c :: rest) = readWord (d.appendQuoted [c]) rest := by
  rw [readWord.eq_def]
  simp

/-- A character that ends the word is left, unless it is an operator behind
a bare digit. -/
theorem readWord_ends {c : Char} (hc : endsWord c = true) (d : Draft) (rest : List Char) :
    readWord d (c :: rest)
      = match direction? c, d.digit? with
        | some direction, some digit => .ok (.redirect (some digit) direction, rest)
        | _, _ => .ok (d.word, c :: rest) := by
  have hne := ne_of_endsWord hc
  rw [readWord.eq_def]
  exact (if_neg hne.1).trans ((if_neg hne.2.1).trans ((if_neg hne.2.2).trans (if_pos hc)))

theorem readWord_bareChar {c : Char} (hc : IsBareChar c) (d : Draft) (rest : List Char) :
    readWord d (c :: rest) = readWord (d.append [c]) rest := by
  have hends := not_endsWord_of_isBareChar hc
  obtain ⟨-, hmem⟩ := hc
  simp only [List.mem_cons, List.not_mem_nil, not_or] at hmem
  obtain ⟨-, -, -, -, hsingle, hdouble, hback, -⟩ := hmem
  rw [readWord.eq_def]
  simp only [if_neg hsingle, if_neg hdouble, if_neg hback, hends, Bool.false_eq_true, if_false]

theorem readWord_bare {text : List Char} (htext : ∀ c ∈ text, IsBareChar c) (d : Draft)
    (rest : List Char) : readWord d (text ++ rest) = readWord (d.append text) rest := by
  induction text generalizing d with
  | nil => rfl
  | cons c text ih =>
      rw [List.forall_mem_cons] at htext
      rw [List.cons_append, readWord_bareChar htext.1, ih htext.2, Draft.append_append]
      rfl

theorem readWord_escaped {text : List Char} (hne : text ≠ []) (d : Draft) (rest : List Char) :
    readWord d (escaped text ++ rest) = readWord (d.appendQuoted text) rest := by
  induction text generalizing d with
  | nil => exact absurd rfl hne
  | cons c text ih =>
      show readWord d ('\\' :: c :: (escaped text ++ rest)) = _
      rw [readWord_escapedChar]
      by_cases htext : text = []
      · rw [htext]
        rfl
      · rw [ih htext, Draft.appendQuoted_appendQuoted]
        rfl

/-- However a text is quoted, it is read in one go. -/
theorem readWord_quotes {text cs : List Char} (h : Quotes text cs) (d : Draft)
    (rest : List Char) : readWord d (cs ++ rest) = readWord (d.appendQuoted text) rest := by
  cases h with
  | double =>
      rw [doubleQuoted, List.append_assoc]
      exact readWord_double (doubleQuotedText_append text rest) d
  | single hquote =>
      rw [inSingleQuotes, List.append_assoc]
      exact readWord_single (singleQuoted_append hquote rest) d
  | backslash hne => exact readWord_escaped hne d rest

/-- The text is at its end or goes on with a blank. -/
def IsCut (rest : List Char) : Prop := ∀ c ∈ rest.head?, isBlank c = true

theorem readWord_cut {rest : List Char} (h : IsCut rest) (d : Draft) :
    readWord d rest = .ok (d.word, rest) := by
  cases rest with
  | nil => exact readWord_nil d
  | cons c rest =>
      have hblank : isBlank c = true := h c rfl
      have hdirection : direction? c = none := by
        have hne : c ≠ '<' ∧ c ≠ '>' := by
          constructor <;> rintro rfl <;> exact absurd hblank (by decide)
        rw [direction?, if_neg hne.1, if_neg hne.2]
      rw [readWord_ends (endsWord_of_isBlank hblank), hdirection]

/-! ## Reading tokens -/

theorem lex_blank {c : Char} (hc : isBlank c = true) (rest : List Char) :
    lex (c :: rest) = lex rest := by
  rw [lex, dif_pos hc]

/-- The token that a line begins with, and what follows it. -/
theorem lex_of_readToken {c : Char} {cs rest : List Char} {t : Token} (hc : isBlank c = false)
    (h : readToken c cs = .ok (t, rest)) : lex (c :: cs) = (lex rest).map (t :: ·) := by
  rw [lex, dif_neg (by simp [hc])]
  split
  · rename_i heq
    rw [h] at heq
    cases heq
  · rename_i heq
    rw [h] at heq
    obtain ⟨rfl, rfl⟩ := Prod.mk.inj (Except.ok.inj heq)
    rfl

/-- What begins with no operator is read as a word. -/
theorem readToken_word {c : Char} (hc : endsWord c = false) (cs : List Char) :
    readToken c cs = readWord {} (c :: cs) := by
  simp only [endsWord, Bool.or_eq_false_iff, decide_eq_false_iff_not] at hc
  obtain ⟨⟨⟨⟨-, hpipe⟩, hmark⟩, hin⟩, hout⟩ := hc
  rw [readToken, if_neg hpipe, if_neg hmark, direction?, if_neg hin, if_neg hout]

theorem Quotes.exists_cons {text cs : List Char} (h : Quotes text cs) :
    ∃ c rest, cs = c :: rest ∧ isBlank c = false ∧ endsWord c = false := by
  cases h with
  | double => exact ⟨_, _, rfl, by decide, by decide⟩
  | single => exact ⟨_, _, rfl, by decide, by decide⟩
  | backslash hne =>
      cases text with
      | nil => exact absurd rfl hne
      | cons c text => exact ⟨_, _, rfl, by decide, by decide⟩

theorem direction?_symbol (direction : Direction) :
    direction? direction.symbol = some direction := by
  cases direction <;> rfl

theorem endsWord_symbol (direction : Direction) : endsWord direction.symbol = true := by
  cases direction <;> rfl

theorem exists_digit : ∀ fd < 10, ∃ c, (toString fd).toList = [c] ∧ isBlank c = false
    ∧ c ∉ ['|', '&', '<', '>', '\'', '"', '\\'] ∧ (Draft.append {} [c]).digit? = some fd := by
  intro fd hfd
  match fd, hfd with
  | 0, _ | 1, _ | 2, _ | 3, _ | 4, _ | 5, _ | 6, _ | 7, _ | 8, _ | 9, _ =>
    exact ⟨_, rfl, by decide, by decide, by decide⟩

/-- A single digit in front of an operator is its descriptor. -/
theorem readToken_numbered {fd : Nat} (hfd : fd ≤ 9) (direction : Direction) (rest : List Char) :
    ∃ c, (toString fd).toList = [c] ∧ isBlank c = false
      ∧ readToken c (direction.symbol :: rest) = .ok (.redirect (some fd) direction, rest) := by
  obtain ⟨c, hc, hblank, hmem, hdigit⟩ := exists_digit fd (Nat.lt_succ_of_le hfd)
  have hbare : IsBareChar c := ⟨hblank, hmem⟩
  refine ⟨c, hc, hblank, ?_⟩
  rw [readToken_word (not_endsWord_of_isBareChar hbare), readWord_bareChar hbare,
    readWord_ends (endsWord_symbol direction), direction?_symbol, hdigit]

theorem readToken_symbol (direction : Direction) (rest : List Char) :
    readToken direction.symbol rest = .ok (.redirect none direction, rest) := by
  cases direction <;> rfl

/-- A token that is cut off from the rest is read in one go. -/
theorem lex_append {t : Token} {cs : List Char} (h : t.WrittenAs cs) {rest : List Char}
    (hcut : IsCut rest) : lex (cs ++ rest) = (lex rest).map (t :: ·) := by
  cases h with
  | @bare text hbare =>
      obtain ⟨hne, hchars⟩ := hbare
      have hread : readWord {} (text.toList ++ rest) = .ok (.word text false, rest) := by
        rw [readWord_bare hchars, readWord_cut hcut, Draft.word_append, String.ofList_toList]
      cases htext : text.toList with
      | nil => exact absurd htext hne
      | cons c cs =>
          rw [htext] at hread hchars
          have hc := hchars c (List.mem_cons_self ..)
          refine lex_of_readToken hc.1 ?_
          rw [readToken_word (not_endsWord_of_isBareChar hc)]
          exact hread
  | @quoted text cs hquotes =>
      have hread : readWord {} (cs ++ rest) = .ok (.word text true, rest) := by
        rw [readWord_quotes hquotes, readWord_cut hcut, Draft.word_appendQuoted,
          String.ofList_toList]
      obtain ⟨c, cs, rfl, hblank, hends⟩ := hquotes.exists_cons
      refine lex_of_readToken hblank ?_
      rw [readToken_word hends]
      exact hread
  | pipe => exact lex_of_readToken (by decide) rfl
  | background => exact lex_of_readToken (by decide) rfl
  | operator direction =>
      refine lex_of_readToken ?_ (readToken_symbol direction rest)
      cases direction <;> decide
  | numbered direction hfd =>
      obtain ⟨c, hc, hblank, hread⟩ := readToken_numbered hfd direction rest
      rw [hc]
      exact lex_of_readToken hblank hread

/-- Tokens in any writing, one after the other with blanks between them, are
read back. -/
theorem lex_intercalate {tokens : List Token} {texts : List (List Char)}
    (h : List.Forall₂ Token.WrittenAs tokens texts) :
    lex ([' '].intercalate texts) = .ok tokens := by
  induction h with
  | nil => rw [List.intercalate_nil, lex]
  | @cons t text tokens texts htext htexts ih =>
      cases texts with
      | nil =>
          obtain rfl := List.forall₂_nil_right_iff.mp htexts
          have hread : lex (text ++ []) = (lex []).map (t :: ·) :=
            lex_append htext (by simp [IsCut])
          rw [List.append_nil, lex] at hread
          rw [List.intercalate_singleton, hread]
          rfl
      | cons next texts =>
          rw [List.intercalate_cons_cons, List.append_assoc,
            lex_append htext (by simp [IsCut]; decide), List.singleton_append,
            lex_blank (by decide), ih]
          rfl

/-- Well-formed tokens that are rendered are read back. -/
theorem lex_renderTokens {tokens : List Token} (h : ∀ t ∈ tokens, t.IsWellFormed) :
    lex (renderTokens tokens) = .ok tokens :=
  lex_intercalate <| List.forall₂_map_right_iff.mpr <|
    List.forall₂_same.mpr fun t ht => Token.writtenAs_render (h t ht)

/-! ## What is read -/

namespace Draft

/-- Unless a part of it was quoted, the draft consists of bare characters. -/
def IsSound (d : Draft) : Prop := d.quoted = false → ∀ c ∈ d.text, IsBareChar c

theorem isSound_empty : IsSound {} := fun _ c hc => absurd hc (by simp)

theorem IsSound.append {d : Draft} (h : d.IsSound) {c : Char} (hc : IsBareChar c) :
    (d.append [c]).IsSound := by
  intro hquoted
  rw [Draft.append, List.reverse_singleton, List.singleton_append, List.forall_mem_cons]
  exact ⟨hc, h hquoted⟩

@[simp] theorem quoted_appendQuoted (d : Draft) (text : List Char) :
    (d.appendQuoted text).quoted = true := rfl

theorem isSound_appendQuoted (d : Draft) (text : List Char) : (d.appendQuoted text).IsSound :=
  nofun

theorem digit?_le {d : Draft} {digit : Nat} (h : d.digit? = some digit) : digit ≤ 9 := by
  unfold digit? at h
  split at h
  · rename_i c _ _
    split at h
    · rename_i hc
      obtain rfl := Option.some.inj h
      simp only [Char.isDigit, Bool.and_eq_true, decide_eq_true_eq] at hc
      have hle : c.toNat ≤ '9'.toNat := hc.2
      have hnine : '9'.toNat - '0'.toNat = 9 := by decide
      omega
    · cases h
  · cases h

/-- A word with something in it is well formed. -/
theorem isWellFormed_word {d : Draft} (hsound : d.IsSound)
    (hne : d.quoted = false → d.text ≠ []) : d.word.IsWellFormed := by
  obtain ⟨text, quoted⟩ := d
  cases quoted with
  | true => trivial
  | false =>
      refine ⟨by simpa using hne rfl, fun c hc => hsound rfl c ?_⟩
      simpa using hc

end Draft

/-- What is read of a word is well formed, if there is something in it or
still to come. -/
theorem isWellFormed_of_readWord {d : Draft} {cs rest : List Char} {t : Token}
    (hsound : d.IsSound)
    (hne : d.quoted = false → d.text = [] → ∃ c ∈ cs.head?, endsWord c = false)
    (h : readWord d cs = .ok (t, rest)) : t.IsWellFormed := by
  fun_induction readWord d cs with
  | case1 d =>
      obtain ⟨rfl, -⟩ := Prod.mk.inj (Except.ok.inj h)
      exact Draft.isWellFormed_word hsound fun hquoted htext => by simpa using hne hquoted htext
  | case2 | case4 => cases h
  | case3 d rest text left _ ih | case5 d rest text left _ _ ih =>
      exact ih (Draft.isSound_appendQuoted d text) (fun hquoted => absurd hquoted (by simp)) h
  | case6 d =>
      obtain ⟨rfl, -⟩ := Prod.mk.inj (Except.ok.inj h)
      exact Draft.isWellFormed_word (Draft.isSound_appendQuoted d [])
        (fun hquoted => absurd hquoted (by simp))
  | case7 d e more _ _ ih =>
      exact ih (Draft.isSound_appendQuoted d [e]) (fun hquoted => absurd hquoted (by simp)) h
  | case8 d c rest _ _ _ _ direction digit hdigit =>
      obtain ⟨rfl, -⟩ := Prod.mk.inj (Except.ok.inj h)
      exact Draft.digit?_le hdigit
  | case9 d c rest _ _ _ hends =>
      obtain ⟨rfl, -⟩ := Prod.mk.inj (Except.ok.inj h)
      refine Draft.isWellFormed_word hsound fun hquoted htext => ?_
      obtain ⟨c', hc', hends'⟩ := hne hquoted htext
      obtain rfl := Option.some.inj hc'
      rw [hends] at hends'
      cases hends'
  | case10 d c rest hsingle hdouble hback hends ih =>
      have hc := isBareChar_of_not_endsWord (by simpa using hends) hsingle hdouble hback
      exact ih (hsound.append hc) (by simp [Draft.append]) h

theorem isWellFormed_of_readToken {c : Char} {cs rest : List Char} {t : Token}
    (hc : isBlank c = false) (h : readToken c cs = .ok (t, rest)) : t.IsWellFormed := by
  by_cases hends : endsWord c = true
  · -- An operator by itself.
    unfold readToken at h
    split at h
    · obtain ⟨rfl, -⟩ := Prod.mk.inj (Except.ok.inj h)
      trivial
    split at h
    · obtain ⟨rfl, -⟩ := Prod.mk.inj (Except.ok.inj h)
      trivial
    split at h
    · obtain ⟨rfl, -⟩ := Prod.mk.inj (Except.ok.inj h)
      trivial
    · rename_i hpipe hmark _ hdirection
      have hsymbol : c ≠ '<' ∧ c ≠ '>' := by
        constructor <;> rintro rfl <;> cases hdirection
      simp [endsWord, hc, hpipe, hmark, hsymbol] at hends
  · rw [readToken_word (by simpa using hends)] at h
    exact isWellFormed_of_readWord Draft.isSound_empty (fun _ _ => ⟨c, rfl, by simpa using hends⟩) h

theorem isWellFormed_of_lex {line : List Char} {tokens : List Token}
    (h : lex line = .ok tokens) : ∀ t ∈ tokens, t.IsWellFormed := by
  fun_induction lex line generalizing tokens with
  | case1 =>
      obtain rfl := Except.ok.inj h
      simp
  | case2 c rest _ ih => exact ih h
  | case3 => cases h
  | case4 c rest hc t left hread ih =>
      obtain ⟨others, hothers, rfl⟩ := Except.map_eq_ok_iff.mp h
      rw [List.forall_mem_cons]
      exact ⟨isWellFormed_of_readToken (by simpa using hc) hread, ih hothers⟩

/-- **The lexer undoes quoting.** Well-formed tokens that are rendered are
read back, and so they are if each of them is written in any other way:
quoted words between single quotes if there is none in them, or with a
backslash in front of each character if there is any. And all tokens that
are read are well formed. -/
theorem lex_rendered :
    (∀ tokens : List Token, (∀ t ∈ tokens, t.IsWellFormed) →
        lex (renderTokens tokens) = .ok tokens)
      ∧ (∀ (tokens : List Token) (texts : List (List Char)),
          List.Forall₂ Token.WrittenAs tokens texts →
            lex ([' '].intercalate texts) = .ok tokens)
      ∧ ∀ (line : List Char) (tokens : List Token), lex line = .ok tokens →
          ∀ t ∈ tokens, t.IsWellFormed :=
  ⟨fun _ => lex_renderTokens, fun _ _ => lex_intercalate, fun _ _ => isWellFormed_of_lex⟩

/-- A digit that is an argument stays apart from the operator behind it, and
one word holds both kinds of quotes. -/
theorem lex_rendered_digit_and_quotes :
    lex (renderTokens [.word "2" false, .redirect none .output, .redirect (some 2) .input,
        .word "a' \"$&" true, .word "" true])
      = .ok [.word "2" false, .redirect none .output, .redirect (some 2) .input,
          .word "a' \"$&" true, .word "" true]
    ∧ lex ([' '].intercalate ["2".toList, ['>'], "'a \"&'".toList, "\\'\\|".toList])
      = .ok [.word "2" false, .redirect none .output, .word "a \"&" true, .word "'|" true] := by
  refine ⟨lex_rendered.1 _ (by decide), lex_rendered.2.1 _ _ ?_⟩
  have htwo : Token.WrittenAs (.word "2" false) "2".toList := .bare (by decide)
  have hsingle : Quotes "a \"&".toList "'a \"&'".toList := .single (by decide)
  have hescaped : Quotes "'|".toList "\\'\\|".toList := .backslash (by decide)
  exact .cons htwo (.cons (.operator .output)
    (.cons (.quoted hsingle) (.cons (.quoted hescaped) .nil)))

end JobShell.Line
