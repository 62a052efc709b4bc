import JobShell.Proofs.Trimming

/-!
# Lines put together

A blank, a pipe sign or a background mark ends whatever stands in front of
it, unless it is quoted or escaped. So two texts with one of them in between
have the tokens of the first, the separator's own and those of the second
(`lex_append_separator`): the scan is between words behind a separator, and
from there it does not look back.

The parser cuts tokens at the pipes, so what holds of tokens goes on to
stages: two pipelines with a pipe sign in between are one pipeline
(`joined_of_not_escapes`).
-/

namespace JobShell.Line

open Text (isBlank)
open Scanner (Escapes)

/-- The character ends a token wherever it means what it is, and adds the
tokens `own`. -/
inductive Separates : Char → List Token → Prop
  | blank {c : Char} (hblank : isBlank c = true) : Separates c []
  | pipe : Separates '|' [.pipe]
  | background : Separates '&' [.background]

/-! ## Tokens -/

namespace Scanner

variable {s : State} {c : Char} {own tokens : List Token}

theorem isPlain_of_result (hresult : s.result = .ok tokens) (hmode : s.mode ≠ .bareEscape) :
    s.IsPlain ∧ tokens = s.finish.done.reverse := by
  obtain ⟨mode, draft, done⟩ := s
  cases mode with
  | between => exact ⟨Or.inl rfl, (Except.ok.inj hresult).symm⟩
  | bare => exact ⟨Or.inr rfl, (Except.ok.inj hresult).symm⟩
  | bareEscape => exact (hmode rfl).elim
  | single | double | doubleEscape => cases hresult

/-- Behind a separator the scan is between words, whatever it was in before. -/
theorem step_separator (hsep : Separates c own) (hplain : s.IsPlain)
    (hempty : s.mode = .between → s.draft = {}) :
    s.step c = ⟨.between, {}, own.reverse ++ s.finish.done⟩ := by
  have hstep : s.step c = s.plain c := by
    rcases hplain with hmode | hmode <;> rw [State.step, hmode]
  rw [hstep]
  cases hsep with
  | blank hblank =>
      have hne := ne_of_endsWord (endsWord_of_isBlank hblank)
      rw [State.plain, if_neg hne.1, if_neg hne.2.1, if_neg hne.2.2, if_pos hblank]
      exact finish_eq hempty
  | pipe =>
      show s.operator .pipe = _
      rw [State.operator, finish_eq hempty]
      rfl
  | background =>
      show s.operator .background = _
      rw [State.operator, finish_eq hempty]
      rfl

end Scanner

theorem lex_append_separator {a : List Char} {c : Char} {own tokens : List Token}
    (hsep : Separates c own) (ha : lex a = .ok tokens) (hend : ¬Escapes a) (b : List Char) :
    lex (a ++ c :: b) = (lex b).map (tokens ++ own ++ ·) := by
  rw [lex_eq_scan] at ha
  obtain ⟨hplain, rfl⟩ := Scanner.isPlain_of_result ha hend
  have hempty : (Scanner.after a).mode = .between → (Scanner.after a).draft = {} := fun hmode =>
    ((Scanner.remembers_begun a).between hmode).2
  rw [lex_eq_scan, Scanner.scan, List.foldl_append, List.foldl_cons,
    Scanner.step_separator hsep hplain hempty, Scanner.result_foldl]
  simp

/-! ## Stages -/

theorem segments_append (front back : List Token) :
    segments (front ++ .pipe :: back) = segments front ++ segments back := by
  induction front with
  | nil => rfl
  | cons t front ih =>
      rw [List.cons_append]
      by_cases ht : t = .pipe
      · subst ht
        rw [segments, ih, segments, List.cons_append]
      · rw [segments_cons ht, segments_cons ht, ih]
        cases hfront : segments front with
        | nil => exact (segments_ne_nil front hfront).elim
        | cons first others => rfl

theorem body_append {back : List Token} (hback : back ≠ []) (front : List Token) :
    body (front ++ back) = front ++ body back := by
  unfold body
  rw [List.getLast?_append_of_ne_nil front hback, List.dropLast_append_of_ne_nil hback]
  split <;> rfl

theorem inForeground_append {back : List Token} (hback : back ≠ []) (front : List Token) :
    inForeground (front ++ back) = inForeground back := by
  rw [inForeground, List.getLast?_append_of_ne_nil front hback, inForeground]

/-- A line that is accepted as a pipeline: its tokens, and the segments that
were read of them. -/
structure ReadsAs (line : String) (p : Pipeline) (tokens : List Token) (parts : List Segment) :
    Prop where
  lexed : lex line.toList = .ok tokens
  nonempty : tokens ≠ []
  mark : .background ∉ tokens.dropLast
  read : (segments (body tokens)).mapM (Segment.read {}) = .ok parts
  argv : ∀ s ∈ parts, s.argv ≠ []
  pipeline : p = ⟨parts.map Segment.stage, inForeground tokens⟩

theorem exists_readsAs {line : String} {p : Pipeline} (h : Line.parse line = .ok (.pipeline p)) :
    ∃ tokens parts, ReadsAs line p tokens parts := by
  cases hlex : lex line.toList with
  | error fault =>
      rw [Line.parse, hlex] at h
      cases h
  | ok tokens =>
      rw [parse_eq_ofTokens hlex] at h
      by_cases hne : tokens = []
      · rw [ofTokens, if_pos hne] at h
        cases h
      by_cases hmark : .background ∈ tokens.dropLast
      · rw [ofTokens_of_misplaced hmark] at h
        cases h
      rw [ofTokens_eq hne hmark, ← segments_eq_splitOn] at h
      obtain ⟨parts, hparts, h⟩ := Except.bind_eq_ok_iff.mp h
      obtain ⟨hstages, hargv⟩ := ofSegments_eq_pipeline h
      refine ⟨tokens, parts, hlex, hne, hmark, hparts, hargv, ?_⟩
      unfold ofSegments at h
      split at h
      · cases h
      · split at h
        · cases h
        · exact (Line.pipeline.inj (Except.ok.inj h)).symm

/-- Segments that all have a command make a pipeline. -/
theorem ofSegments_of_argv {parts : List Segment} (hargv : ∀ s ∈ parts, s.argv ≠ [])
    (foreground : Bool) :
    ofSegments parts foreground = .ok (.pipeline ⟨parts.map Segment.stage, foreground⟩) := by
  rw [ofSegments_of_not_lone, if_neg]
  · intro hany
    obtain ⟨s, hs, hempty⟩ := List.any_eq_true.mp hany
    exact hargv s hs (List.isEmpty_iff.mp hempty)
  · rintro s rfl - hempty
    exact (hargv s (List.mem_singleton_self s) hempty).elim

theorem ReadsAs.append {a b : String} {p q : Pipeline} {tokens more : List Token}
    {parts others : List Segment} (ha : ReadsAs a p tokens parts) (hp : p.foreground = true)
    (hb : ReadsAs b q more others) :
    ofTokens (tokens ++ [.pipe] ++ more) = .ok (.pipeline ⟨p.stages ++ q.stages, q.foreground⟩) := by
  obtain ⟨-, -, hmark, hparts, hargv, rfl⟩ := ha
  obtain ⟨-, hne, hmark', hothers, hargv', rfl⟩ := hb
  have hlast : tokens.getLast? ≠ some Token.background := of_decide_eq_true hp
  have hbody : body tokens = tokens := if_neg hlast
  have hfree : Token.background ∉ tokens := by
    rw [← hbody]
    exact not_mem_body hmark
  have hmisplaced : Token.background ∉ (tokens ++ [Token.pipe] ++ more).dropLast := by
    rw [List.dropLast_append_of_ne_nil hne]
    simp [hfree, hmark']
  rw [ofTokens_eq (by simp) hmisplaced, ← segments_eq_splitOn, body_append hne,
    inForeground_append hne, List.append_assoc, List.singleton_append, segments_append,
    List.mapM_append, hothers]
  rw [hbody] at hparts
  rw [hparts]
  show ofSegments (parts ++ others) _ = _
  rw [ofSegments_of_argv (List.forall_mem_append.mpr ⟨hargv, hargv'⟩), List.map_append]

/-- **Lines are put together at separators.** Only the text in front has to be
whole, with its quotations closed and no escape at its end. The text behind it
may be anything, and its fault is the fault of the line. -/
theorem joined_of_not_escapes {a : String} (hend : ¬Escapes a.toList) (b : String) :
    (∀ tokens, lex a.toList = .ok tokens →
        lex (a ++ " " ++ b).toList = (lex b.toList).map (tokens ++ ·)
        ∧ lex (a ++ "|" ++ b).toList = (lex b.toList).map (tokens ++ [.pipe] ++ ·)
        ∧ lex (a ++ "&" ++ b).toList = (lex b.toList).map (tokens ++ [.background] ++ ·))
      ∧ ∀ p q, Line.parse a = .ok (.pipeline p) → p.foreground = true →
          Line.parse b = .ok (.pipeline q) →
          Line.parse (a ++ "|" ++ b) = .ok (.pipeline ⟨p.stages ++ q.stages, q.foreground⟩) := by
  have hjoined : ∀ {c own tokens} (s : String), s.toList = [c] → Separates c own →
      lex a.toList = .ok tokens →
      lex (a ++ s ++ b).toList = (lex b.toList).map (tokens ++ own ++ ·) := by
    intro c own tokens s hchar hsep ha
    have hline : (a ++ s ++ b).toList = a.toList ++ c :: b.toList := by
      rw [String.toList_append, String.toList_append, hchar, List.append_assoc,
        List.singleton_append]
    rw [hline, lex_append_separator hsep ha hend]
  refine ⟨fun tokens ha => ⟨?_, hjoined _ rfl .pipe ha, hjoined _ rfl .background ha⟩, ?_⟩
  · have hblank := hjoined " " rfl (.blank (by decide)) ha
    simpa only [List.append_nil] using hblank
  · intro p q hp hforeground hq
    obtain ⟨tokens, parts, ha⟩ := exists_readsAs hp
    obtain ⟨more, others, hb⟩ := exists_readsAs hq
    have hlex : lex (a ++ "|" ++ b).toList = .ok (tokens ++ [.pipe] ++ more) := by
      have hpipe := hjoined "|" rfl .pipe ha.lexed
      rw [hb.lexed] at hpipe
      exact hpipe
    rw [parse_eq_ofTokens hlex, ha.append hforeground hb]

/-- The text ends in an escaped blank and a quoted sign; a quotation that is
not closed behind the separator is the fault of the whole. -/
theorem joined_at_quoted_separator :
    ¬Escapes "a\\ '|'".toList
      ∧ lex ("a\\ '|'" ++ "&" ++ "b 2>c").toList
        = .ok [.word "a |" true, .background, .word "b" false, .redirect (some 2) .output,
            .word "c" false]
      ∧ lex ("a\\ '|'" ++ " " ++ "\"b").toList = .error (.unterminated '"')
      ∧ Line.parse ("a\\ '|'" ++ "|" ++ "b &")
        = .ok (.pipeline ⟨[⟨"a |", ["a |"], [], ∅⟩, ⟨"b", ["b"], [], ∅⟩], false⟩) := by
  have hend : ¬Escapes "a\\ '|'".toList := by
    unfold Escapes
    decide +kernel
  have ha : lex "a\\ '|'".toList = .ok [.word "a |" true] := by decide +kernel
  have hb : lex "b 2>c".toList
      = .ok [.word "b" false, .redirect (some 2) .output, .word "c" false] := by decide +kernel
  have hopen : lex "\"b".toList = .error (.unterminated '"') := by decide +kernel
  have hback : lex "b &".toList = .ok [.word "b" false, .background] := by decide +kernel
  refine ⟨hend, ?_, ?_, ?_⟩
  · rw [((joined_of_not_escapes hend "b 2>c").1 _ ha).2.2, hb]
    rfl
  · rw [((joined_of_not_escapes hend "\"b").1 _ ha).1, hopen]
    rfl
  · refine (joined_of_not_escapes hend "b &").2 _ _ ((parse_eq_ofTokens ha).trans rfl) rfl
      ((parse_eq_ofTokens hback).trans rfl)

end JobShell.Line
