import JobShell.Line.Token
import JobShell.Text.Blank

/-!
# Reading tokens

The lexer reads one token after the other. Each reader returns what it read
and the rest of the line, and the rest is shorter, which is why `lex` ends.

Words are joined from bare, single-quoted and double-quoted pieces that
follow each other without a blank. A word that consists of one bare digit
directly in front of `<` or `>` is no word but the number of the redirected
descriptor.
-/

namespace JobShell.Line

open Text (isBlank)

/-- The text up to the closing single quote, and the rest behind it. -/
def singleQuoted : List Char → Option (List Char × List Char)
  | [] => none
  | c :: rest =>
    if c = '\'' then some ([], rest)
    else (singleQuoted rest).map fun (text, left) => (c :: text, left)

/-- The text up to the closing double quote, and the rest behind it. A
backslash drops out in front of an escapable character and is kept in front
of any other. -/
def doubleQuotedText : List Char → Option (List Char × List Char)
  | [] => none
  | c :: rest =>
    if c = '"' then some ([], rest)
    else if c = '\\' then
      match rest with
      | [] => none
      | e :: more =>
        (doubleQuotedText more).map fun (text, left) =>
          (if isEscapable e then e :: text else '\\' :: e :: text, left)
    else (doubleQuotedText rest).map fun (text, left) => (c :: text, left)

theorem length_singleQuoted {cs text rest : List Char}
    (h : singleQuoted cs = some (text, rest)) : rest.length < cs.length := by
  fun_induction singleQuoted cs generalizing text with
  | case1 => simp at h
  | case2 => simp_all
  | case3 c cs hc ih =>
    obtain ⟨⟨t, left⟩, ht, heq⟩ := Option.map_eq_some_iff.1 h
    obtain ⟨-, rfl⟩ := Prod.mk.inj heq
    exact Nat.lt_succ_of_lt (ih ht)

theorem length_doubleQuotedText {cs text rest : List Char}
    (h : doubleQuotedText cs = some (text, rest)) : rest.length < cs.length := by
  fun_induction doubleQuotedText cs generalizing text with
  | case1 | case3 => simp at h
  | case2 => simp_all
  | case4 e more _ ih =>
    obtain ⟨⟨t, l⟩, ht, hl⟩ := Option.map_eq_some_iff.1 h
    have := @ih t (by simp_all)
    simp only [List.length_cons]
    omega
  | case5 c more _ _ ih =>
    obtain ⟨⟨t, l⟩, ht, hl⟩ := Option.map_eq_some_iff.1 h
    have := @ih t (by simp_all)
    simp only [List.length_cons]
    omega

/-- Whether `c` ends a bare word. -/
def endsWord (c : Char) : Bool := isBlank c || c = '|' || c = '&' || c = '<' || c = '>'

/-- The direction of a redirection operator. -/
def direction? (c : Char) : Option Direction :=
  if c = '<' then some .input else if c = '>' then some .output else none

/-- What was read of a word so far: its characters, last one first, and
whether any of it was quoted. -/
structure Draft where
  text : List Char := []
  quoted : Bool := false

namespace Draft

/-- The draft with `more` appended. -/
def append (d : Draft) (more : List Char) : Draft :=
  { d with text := more.reverse ++ d.text }

/-- The draft with the quoted text `more` appended. -/
def appendQuoted (d : Draft) (more : List Char) : Draft :=
  { d.append more with quoted := true }

/-- The finished word. -/
def word (d : Draft) : Token := .word (String.ofList d.text.reverse) d.quoted

/-- The digit the draft consists of, if it is a single bare one. -/
def digit? (d : Draft) : Option Nat :=
  match d.text, d.quoted with
  | [c], false => if c.isDigit then some (c.toNat - '0'.toNat) else none
  | _, _ => none

end Draft

/-- Reads on in a word. The result is the word, or the redirection whose
descriptor number the draft turned out to be. -/
def readWord (draft : Draft) : List Char → Except SyntaxFault (Token × List Char)
  | [] => .ok (draft.word, [])
  | c :: rest =>
    if c = '\'' then
      match _h : singleQuoted rest with
      | none => .error (.unterminated '\'')
      | some (text, left) => readWord (draft.appendQuoted text) left
    else if c = '"' then
      match _h : doubleQuotedText rest with
      | none => .error (.unterminated '"')
      | some (text, left) => readWord (draft.appendQuoted text) left
    else if c = '\\' then
      match rest with
      | [] => .ok ((draft.appendQuoted []).word, [])
      | e :: more => readWord (draft.appendQuoted [e]) more
    else if endsWord c then
      match direction? c, draft.digit? with
      | some direction, some digit => .ok (.redirect (some digit) direction, rest)
      | _, _ => .ok (draft.word, c :: rest)
    else readWord (draft.append [c]) rest
termination_by cs => cs.length
decreasing_by
  all_goals simp only [List.length_cons]
  · have := length_singleQuoted _h; omega
  · have := length_doubleQuotedText _h; omega
  all_goals omega

theorem length_readWord {draft : Draft} {cs rest : List Char} {token : Token}
    (h : readWord draft cs = .ok (token, rest)) : rest.length ≤ cs.length := by
  fun_induction readWord draft cs with
  | case1 | case6 | case8 | case9 => simp_all
  | case2 | case4 => simp at h
  | case3 draft more text left hq ih =>
    have := length_singleQuoted hq
    have := ih h
    simp only [List.length_cons]
    omega
  | case5 draft more text left hq _ ih =>
    have := length_doubleQuotedText hq
    have := ih h
    simp only [List.length_cons]
    omega
  | case7 _ _ _ _ _ ih | case10 _ _ _ _ _ _ _ ih =>
    have := ih h
    simp only [List.length_cons]
    omega

/-- A word takes at least the character it begins with. -/
theorem length_readWord_cons {draft : Draft} {c : Char} {cs rest : List Char} {token : Token}
    (hc : endsWord c = false) (h : readWord draft (c :: cs) = .ok (token, rest)) :
    rest.length ≤ cs.length := by
  rw [readWord.eq_def] at h
  simp only [hc, Bool.false_eq_true, if_false] at h
  split at h
  · split at h
    · cases h
    · next hq => exact Nat.le_trans (length_readWord h) (Nat.le_of_lt (length_singleQuoted hq))
  split at h
  · split at h
    · cases h
    · next hq => exact Nat.le_trans (length_readWord h) (Nat.le_of_lt (length_doubleQuotedText hq))
  split at h
  · split at h
    · simp_all
    · exact Nat.le_trans (length_readWord h) (Nat.le_succ _)
  exact length_readWord h

/-- The token that begins with `c`, which is no blank. -/
def readToken (c : Char) (rest : List Char) : Except SyntaxFault (Token × List Char) :=
  if c = '|' then .ok (.pipe, rest)
  else if c = '&' then .ok (.background, rest)
  else match direction? c with
    | some direction => .ok (.redirect none direction, rest)
    | none => readWord {} (c :: rest)

theorem length_readToken {c : Char} {cs rest : List Char} {token : Token}
    (hc : isBlank c = false) (h : readToken c cs = .ok (token, rest)) :
    rest.length ≤ cs.length := by
  unfold readToken direction? at h
  split at h
  · simp_all
  split at h
  · simp_all
  split at h
  · simp_all
  · refine length_readWord_cons ?_ h
    split at * <;> simp_all [endsWord]

/-- All tokens of a line. -/
def lex : List Char → Except SyntaxFault (List Token)
  | [] => .ok []
  | c :: rest =>
    if _hc : isBlank c = true then lex rest
    else
      match _h : readToken c rest with
      | .error fault => .error fault
      | .ok (token, left) => (lex left).map (token :: ·)
termination_by cs => cs.length
decreasing_by
  · simp
  · have := length_readToken (by simpa using _hc) _h
    simp only [List.length_cons]
    omega

end JobShell.Line
