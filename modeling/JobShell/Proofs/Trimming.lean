import JobShell.Proofs.Grammar
import JobShell.Proofs.Scanning
import JobShell.Proofs.Utf8

/-!
# Lines without the blanks around them

A shell strips a line of the blanks it begins and ends with before it parses
it. The lexer skips blanks by itself, so this changes nothing, with one
exception: a backslash takes the blank behind it into a word
(`EndsInEscapedBlank`), and the trimmed line ends in the backslash instead.

`parse_trimmed_iff` says that the exception is a real one. Every line that is
accepted and ends in an escaped blank means something else when it is
trimmed, because its last word, be it an argument or a file name, has lost a
character (`ofTokens_concat`). A fault of such a line stays the fault it was.
-/

namespace JobShell

/-! ## What is cut off -/

namespace Text

theorem dropWhile_concat (p : Char → Bool) {c : Char} (hc : p c = true) (cs : List Char) :
    (cs ++ [c]).dropWhile p = [] ∧ cs.dropWhile p = []
      ∨ (cs ++ [c]).dropWhile p = cs.dropWhile p ++ [c] := by
  induction cs with
  | nil => simp [hc]
  | cons d cs ih =>
      by_cases hd : p d = true
      · simpa only [List.cons_append, List.dropWhile_cons_of_pos hd] using ih
      · exact Or.inr (by simp only [List.cons_append, List.dropWhile_cons_of_neg hd])

theorem trim_concat {c : Char} (hc : isBlank c = true) (cs : List Char) :
    trim (cs ++ [c]) = trim cs := by
  unfold trim
  rcases dropWhile_concat isBlank hc cs with ⟨h, h'⟩ | h
  · rw [h, h']
  · rw [h, List.reverse_append, List.reverse_singleton, List.singleton_append,
      List.dropWhile_cons_of_pos hc]

theorem trim_subset (cs : List Char) : trim cs ⊆ cs := by
  intro c hc
  have hmem := (List.dropWhile_sublist isBlank).subset (List.mem_reverse.mp hc)
  exact (List.dropWhile_sublist isBlank).subset (List.mem_reverse.mp hmem)

theorem trim_append {blanks : List Char} (hblanks : ∀ c ∈ blanks, isBlank c = true)
    (cs : List Char) : trim (cs ++ blanks) = trim cs := by
  induction blanks generalizing cs with
  | nil => rw [List.append_nil]
  | cons c blanks ih =>
      rw [List.forall_mem_cons] at hblanks
      have happend : cs ++ c :: blanks = cs ++ [c] ++ blanks := by simp
      rw [happend, ih hblanks.2, trim_concat hblanks.1]

/-- Blanks in front, what is left, and blanks behind it. -/
theorem exists_blanks (cs : List Char) : ∃ front back, cs = front ++ (trim cs ++ back)
    ∧ (∀ c ∈ front, isBlank c = true) ∧ ∀ c ∈ back, isBlank c = true := by
  refine ⟨cs.takeWhile isBlank, ((cs.dropWhile isBlank).reverse.takeWhile isBlank).reverse,
    ?_, fun c hc => List.mem_takeWhile_imp hc,
    fun c hc => List.mem_takeWhile_imp (List.mem_reverse.mp hc)⟩
  rw [trim, ← List.reverse_append, List.takeWhile_append_dropWhile, List.reverse_reverse,
    List.takeWhile_append_dropWhile]

end Text

namespace Line

open Text (isBlank)

/-- A line as it is run, without the blanks it begins and ends with. -/
def trimmed (line : String) : String := String.ofList (Text.trim line.toList)

theorem not_mem_trimmed {line : String} {c : Char} (h : c ∉ line.toList) :
    c ∉ (trimmed line).toList := by
  rw [trimmed, String.toList_ofList]
  exact fun hmem => h (Text.trim_subset _ hmem)

/-! ## Blanks at the end, to the scan -/

namespace Scanner

/-- The text ends in a backslash that takes the next character as it is. -/
def Escapes (text : List Char) : Prop := (text.foldl State.step {}).mode = .bareEscape

variable {s : State} {c : Char} {blanks text : List Char}

/-- A blank behind a text changes none of its tokens, unless it is escaped. -/
theorem result_step_blank (hc : isBlank c = true) (hmode : s.mode ≠ .bareEscape) :
    (s.step c).result = s.result ∧ (s.step c).mode ≠ .bareEscape := by
  have hne := ne_of_endsWord (endsWord_of_isBlank hc)
  obtain ⟨mode, draft, done⟩ := s
  cases mode with
  | between | bare =>
      simp [State.step, State.plain, State.finish, State.result, hc, hne]
  | single | double | doubleEscape => simp [State.step, State.result, hne]
  | bareEscape => exact absurd rfl hmode

theorem result_foldl_blanks (hblanks : ∀ c ∈ blanks, isBlank c = true)
    (hmode : s.mode ≠ .bareEscape) : (blanks.foldl State.step s).result = s.result := by
  induction blanks generalizing s with
  | nil => rfl
  | cons c blanks ih =>
      rw [List.forall_mem_cons] at hblanks
      obtain ⟨hresult, hmode'⟩ := result_step_blank hblanks.1 hmode
      rw [List.foldl_cons, ih hblanks.2 hmode', hresult]

theorem foldl_blanks (hblanks : ∀ c ∈ blanks, isBlank c = true) (text : List Char) :
    (blanks ++ text).foldl State.step {} = text.foldl State.step {} := by
  rw [List.foldl_append]
  congr 1
  induction blanks with
  | nil => rfl
  | cons c blanks ih =>
      rw [List.forall_mem_cons] at hblanks
      rw [List.foldl_cons, step_blank hblanks.1, ih hblanks.2]

/-- An escape begins with a backslash, and makes the word begun a quoted one. -/
theorem quoted_of_step (h : (s.step c).mode = .bareEscape) :
    c = '\\' ∧ (s.step c).draft.quoted = true := by
  obtain ⟨mode, draft, done⟩ := s
  by_cases hback : c = '\\'
  · subst hback
    refine ⟨rfl, ?_⟩
    cases mode with
    | between | bare => rfl
    | single | double | bareEscape | doubleEscape => cases h
  · exfalso
    cases mode with
    | between | bare =>
        simp only [State.step, State.plain, State.finish, State.operator, State.redirection,
          if_neg hback] at h
        split_ifs at h <;> split at h <;> cases h
    | single | double =>
        simp only [State.step, if_neg hback] at h
        split at h <;> cases h
    | bareEscape | doubleEscape => cases h

theorem exists_concat_of_escapes (h : Escapes text) : ∃ front, text = front ++ ['\\']
    ∧ (text.foldl State.step {}).draft.quoted = true := by
  rcases List.eq_nil_or_concat' text with rfl | ⟨front, c, rfl⟩
  · cases h
  · rw [Escapes, List.foldl_concat] at h
    obtain ⟨rfl, hquoted⟩ := quoted_of_step h
    exact ⟨front, rfl, by rwa [List.foldl_concat]⟩

end Scanner

open Scanner (Escapes)

variable {text blanks : List Char}

theorem lex_blanks_append (hblanks : ∀ c ∈ blanks, isBlank c = true) (text : List Char) :
    lex (blanks ++ text) = lex text := by
  rw [lex_eq_scan, lex_eq_scan, Scanner.scan, Scanner.scan, Scanner.foldl_blanks hblanks]

theorem lex_append_blanks (htext : ¬Escapes text) (hblanks : ∀ c ∈ blanks, isBlank c = true) :
    lex (text ++ blanks) = lex text := by
  rw [lex_eq_scan, lex_eq_scan, Scanner.scan, Scanner.scan, List.foldl_append,
    Scanner.result_foldl_blanks hblanks htext]

/-- An escaped blank is the last character of the last word. -/
theorem lex_of_escapes (h : Escapes text) : ∃ (tokens : List Token) (word : List Char),
    lex text = .ok (tokens ++ [.word (String.ofList word) true])
      ∧ ∀ c blanks, isBlank c = true → (∀ b ∈ blanks, isBlank b = true) →
        lex (text ++ c :: blanks) = .ok (tokens ++ [.word (String.ofList (word ++ [c])) true]) := by
  obtain ⟨-, -, hquoted⟩ := Scanner.exists_concat_of_escapes h
  have hmode : (text.foldl Scanner.State.step {}).mode = .bareEscape := h
  obtain ⟨⟨mode, ⟨word, quoted⟩, done⟩, hstate⟩ :
      ∃ s, text.foldl Scanner.State.step {} = s := ⟨_, rfl⟩
  rw [hstate] at hmode hquoted
  obtain rfl : mode = .bareEscape := hmode
  obtain rfl : quoted = true := hquoted
  refine ⟨done.reverse, word.reverse, ?_, fun c blanks hc hblanks => ?_⟩
  · rw [lex_eq_scan, Scanner.scan, hstate]
    simp [Scanner.State.result, Scanner.State.finish, Draft.word]
  · have hstep : Scanner.State.step ⟨.bareEscape, ⟨word, true⟩, done⟩ c
        = ⟨.bare, ⟨c :: word, true⟩, done⟩ := rfl
    rw [lex_eq_scan, Scanner.scan, List.foldl_append, hstate, List.foldl_cons, hstep,
      Scanner.result_foldl_blanks hblanks (by simp)]
    simp [Scanner.State.result, Scanner.State.finish, Draft.word]

/-! ## The last word of a line -/

namespace Segment

/-- The segment with one more quoted word, which is the file name of a
redirection if one is given. -/
def addLast (s : Segment) : Option (Option Nat × Direction) → String → Segment
  | none, text => s.addWord text true
  | some (fd, direction), text => s.addRedirection fd direction text

theorem read_concat (s : Segment) (segment : List Token) :
    (∀ text, s.read (segment ++ [.word text true]) = .error .missingFileName)
      ∨ ∃ s' operator, ∀ text, s.read (segment ++ [.word text true])
          = .ok (addLast s' operator text) := by
  fun_induction read s segment with
  | case1 s => exact Or.inr ⟨s, none, fun text => rfl⟩
  | case2 s word quoted rest ih => exact ih
  | case3 s fd direction path quoted rest ih => exact ih
  | case4 s fd direction rest hrest =>
      cases rest with
      | nil => exact Or.inr ⟨s, some (fd, direction), fun text => rfl⟩
      | cons t rest =>
          refine Or.inl fun text => ?_
          cases t with
          | word path quoted => exact (hrest path quoted rest rfl).elim
          | pipe | background | redirect fd direction => rfl
  | case5 s rest ih | case6 s rest ih => exact ih

theorem addLast_none (s : Segment) (text : String) :
    s.addLast none text = { s with argv := s.argv ++ [text] } := addWord_of_not_spells (by simp)

theorem addLast_some (s : Segment) (fd : Option Nat) (direction : Direction) (text : String) :
    s.addLast (some (fd, direction)) text
      = { s with
          redirections := s.redirections
            ++ [⟨fd.elim direction.standard Int.ofNat, direction, .ofString text⟩] } :=
  addRedirection_eq s fd direction text

/-- A stage shows which word was added to its segment. -/
theorem addLast_injective {s : Segment} {operator : Option (Option Nat × Direction)}
    {text other : String} (h : (s.addLast operator text).stage = (s.addLast operator other).stage) :
    text = other := by
  rcases operator with _ | ⟨fd, direction⟩
  · have hargv := congrArg Stage.argv h
    simpa [addLast_none, stage] using hargv
  · have hredirections := congrArg Stage.redirections h
    simpa [addLast_some, stage, Bytes.ofString_inj] using hredirections

theorem isEmpty_addLast (s : Segment) (operator : Option (Option Nat × Direction))
    (text : String) :
    (s.addLast operator text).argv.isEmpty = (s.addLast operator "").argv.isEmpty := by
  rcases operator with _ | ⟨fd, direction⟩
  · rw [addLast_none, addLast_none]
    cases s.argv <;> rfl
  · rw [addLast_some, addLast_some]

theorem redirections_addLast {s : Segment} {operator : Option (Option Nat × Direction)}
    {text : String} (h : (s.addLast operator text).argv = []) :
    (s.addLast operator text).redirections ≠ [] := by
  rcases operator with _ | ⟨fd, direction⟩
  · simp [addLast_none] at h
  · simp [addLast_some]

end Segment

theorem segments_concat (tokens : List Token) : ∃ front last, ∀ t, t ≠ .pipe →
    segments (tokens ++ [t]) = front ++ [last ++ [t]] := by
  induction tokens with
  | nil =>
      refine ⟨[], [], fun t ht => ?_⟩
      rw [List.nil_append, segments_cons ht]
      rfl
  | cons u tokens ih =>
      obtain ⟨front, last, ih⟩ := ih
      by_cases hu : u = .pipe
      · subst hu
        exact ⟨[] :: front, last, fun t ht => congrArg ([] :: ·) (ih t ht)⟩
      · cases front with
        | nil =>
            refine ⟨[], u :: last, fun t ht => ?_⟩
            rw [List.cons_append, segments_cons hu, ih t ht]
            rfl
        | cons first others =>
            refine ⟨(u :: first) :: others, last, fun t ht => ?_⟩
            rw [List.cons_append, segments_cons hu, ih t ht]
            rfl

/-- A line whose last word is quoted is refused for what stands in front of the
word, or it shows the word. -/
theorem ofTokens_concat (tokens : List Token) :
    (∃ fault, ∀ text, ofTokens (tokens ++ [.word text true]) = .error fault)
      ∨ ∃ line : String → Line, Function.Injective line
          ∧ ∀ text, ofTokens (tokens ++ [.word text true]) = .ok (line text) := by
  by_cases hmark : .background ∈ tokens
  · exact Or.inl ⟨.misplacedBackground, fun text => ofTokens_of_misplaced (by simpa using hmark)⟩
  obtain ⟨front, last, hsegments⟩ := segments_concat tokens
  have htokens : ∀ text, ofTokens (tokens ++ [.word text true])
      = (front ++ [last ++ [Token.word text true]]).mapM (Segment.read {})
          >>= (ofSegments · true) := by
    intro text
    rw [ofTokens_eq (by simp) (by simpa using hmark), ← segments_eq_splitOn]
    have hbody : body (tokens ++ [.word text true]) = tokens ++ [.word text true] := by
      simp [body]
    have hforeground : inForeground (tokens ++ [.word text true]) = true := by
      simp [inForeground]
    rw [hbody, hforeground, hsegments _ (by simp)]
  cases hfront : front.mapM (Segment.read {}) with
  | error fault =>
      refine Or.inl ⟨fault, fun text => ?_⟩
      rw [htokens, List.mapM_append, hfront]
      rfl
  | ok parts =>
      rcases Segment.read_concat {} last with hread | ⟨s, operator, hread⟩
      · refine Or.inl ⟨.missingFileName, fun text => ?_⟩
        rw [htokens, List.mapM_append, hfront, List.mapM_cons, hread]
        rfl
      have hparts : ∀ text, ofTokens (tokens ++ [.word text true])
          = if (parts ++ [s.addLast operator ""]).any (·.argv.isEmpty) then .error .missingCommand
            else .ok (.pipeline ⟨(parts ++ [s.addLast operator text]).map Segment.stage, true⟩) := by
        intro text
        have hlone : ∀ lone, parts ++ [s.addLast operator text] = [lone] → true = true →
            lone.argv = [] → lone.redirections ≠ [] := by
          intro lone hlone _ hargv
          have hlast : s.addLast operator text = lone := by
            simpa using congrArg List.getLast? hlone
          subst hlast
          exact Segment.redirections_addLast hargv
        have hany : (parts ++ [s.addLast operator text]).any (·.argv.isEmpty)
            = (parts ++ [s.addLast operator ""]).any (·.argv.isEmpty) := by
          simp only [List.any_append, List.any_cons, Segment.isEmpty_addLast s operator text]
        rw [htokens, List.mapM_append, hfront, List.mapM_cons, hread, ← hany]
        exact ofSegments_of_not_lone hlone
      cases hany : (parts ++ [s.addLast operator ""]).any (·.argv.isEmpty) with
      | true => exact Or.inl ⟨.missingCommand, fun text => by rw [hparts, hany, if_pos rfl]⟩
      | false =>
          refine Or.inr ⟨fun text =>
            .pipeline ⟨(parts ++ [s.addLast operator text]).map Segment.stage, true⟩,
            fun text other h => ?_, fun text => by rw [hparts, hany, if_neg Bool.false_ne_true]⟩
          have hstages := congrArg Pipeline.stages (Line.pipeline.inj h)
          simp only [List.map_append, List.map_cons, List.map_nil] at hstages
          exact Segment.addLast_injective (List.cons.inj (List.append_cancel_left hstages)).1

/-! ## Lines that are trimmed -/

/-- The line ends in blanks, the first of which is escaped. -/
def EndsInEscapedBlank (line : List Char) : Prop :=
  ∃ text blanks, line = text ++ blanks ∧ blanks ≠ [] ∧ (∀ c ∈ blanks, isBlank c = true)
    ∧ Escapes text

/-- Without an escaped blank at the end the trimmed line has the same tokens. -/
theorem lex_trim {line : List Char} (h : ¬EndsInEscapedBlank line) :
    lex (Text.trim line) = lex line := by
  obtain ⟨front, back, hline, hfront, hback⟩ := Text.exists_blanks line
  have htrimmed : lex line = lex (Text.trim line ++ back) := by
    rw [congrArg lex hline, lex_blanks_append hfront]
  rw [htrimmed]
  by_cases hempty : back = []
  · rw [hempty, List.append_nil]
  · have hescapes : ¬Escapes (Text.trim line) := by
      intro hescapes
      refine h ⟨front ++ Text.trim line, back, by rw [List.append_assoc, ← hline], hempty, hback, ?_⟩
      rw [Escapes, Scanner.foldl_blanks hfront]
      exact hescapes
    exact (lex_append_blanks hescapes hback).symm

/-- The trimmed line ends in the backslash that was in front of the blank. -/
theorem lex_trim_of_escapes (hblanks : ∀ c ∈ blanks, isBlank c = true) (htext : Escapes text) :
    lex (Text.trim (text ++ blanks)) = lex text := by
  obtain ⟨front, hfront, -⟩ := Scanner.exists_concat_of_escapes htext
  rw [Text.trim_append hblanks]
  obtain ⟨lead, back, hline, hlead, hback⟩ := Text.exists_blanks text
  rcases List.eq_nil_or_concat' back with rfl | ⟨back, c, rfl⟩
  · rw [List.append_nil] at hline
    rw [congrArg lex hline, lex_blanks_append hlead]
  · have hlast : c = '\\' := by
      have := congrArg List.getLast? (hfront.symm.trans hline)
      simpa using this.symm
    have hblank : isBlank c = true := hback c (by simp)
    rw [hlast] at hblank
    exact absurd hblank (by decide)

/-- **Trimming a line.** The blanks around a line mean nothing: the trimmed line
is the same line, or has the same fault. The lines that end in an escaped blank
and are accepted are the exception, and all of them are. -/
theorem parse_trimmed_iff (line : String) :
    Line.parse (trimmed line) = Line.parse line
      ↔ (EndsInEscapedBlank line.toList → ∃ fault, Line.parse line = .error fault) := by
  have htrimmed : (trimmed line).toList = Text.trim line.toList := String.toList_ofList
  by_cases h : EndsInEscapedBlank line.toList
  · have ⟨text, blanks, hline, hne, hblanks, htext⟩ := h
    obtain ⟨tokens, word, hlex, hblank⟩ := lex_of_escapes htext
    obtain ⟨c, blanks, rfl⟩ := List.exists_cons_of_ne_nil hne
    have hshort : Line.parse (trimmed line)
        = ofTokens (tokens ++ [.word (String.ofList word) true]) := by
      refine parse_eq_ofTokens ?_
      rw [htrimmed, hline, lex_trim_of_escapes hblanks htext, hlex]
    have hlong : Line.parse line
        = ofTokens (tokens ++ [.word (String.ofList (word ++ [c])) true]) := by
      rw [List.forall_mem_cons] at hblanks
      exact parse_eq_ofTokens (by rw [hline, hblank c blanks hblanks.1 hblanks.2])
    rw [hshort, hlong]
    rcases ofTokens_concat tokens with ⟨fault, hfault⟩ | ⟨shown, hinjective, hshown⟩
    · rw [hfault, hfault]
      exact ⟨fun _ _ => ⟨fault, rfl⟩, fun _ => rfl⟩
    · rw [hshown, hshown]
      constructor
      · intro heq
        have hword := String.ofList_injective (hinjective (Except.ok.inj heq))
        simp at hword
      · intro hfault
        obtain ⟨fault, hfault⟩ := hfault h
        cases hfault
  · have hlex : lex (trimmed line).toList = lex line.toList := by rw [htrimmed, lex_trim h]
    have hparse : Line.parse (trimmed line) = Line.parse line := by
      rw [Line.parse, Line.parse, hlex]
    exact ⟨fun _ hends => (h hends).elim, fun _ => hparse⟩

/-- The argument of the line ends in a blank, that of the trimmed line does not. -/
theorem parse_trimmed_ne : Line.parse (trimmed "echo a\\ ") ≠ Line.parse "echo a\\ " := by
  have hshort : Line.parse (trimmed "echo a\\ ")
      = ofTokens [.word "echo" false, .word "a" true] :=
    parse_eq_ofTokens (Except.eq_ok_of_toOption (by decide +kernel))
  have hlong : Line.parse "echo a\\ " = ofTokens [.word "echo" false, .word "a " true] :=
    parse_eq_ofTokens (Except.eq_ok_of_toOption (by decide +kernel))
  rw [hshort, hlong]
  intro h
  have hpipelines : Pipeline.mk [⟨"echo", ["echo", "a"], [], ∅⟩] true
      = Pipeline.mk [⟨"echo", ["echo", "a "], [], ∅⟩] true :=
    Line.pipeline.inj (Except.ok.inj h)
  exact absurd (congrArg (·.stages.map Stage.argv) hpipelines) (by decide)

end Line

end JobShell
