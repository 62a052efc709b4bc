import JobShell.Line
import JobShell.Proofs.Maps
import JobShell.Proofs.Names
import JobShell.Proofs.Results
import JobShell.Proofs.Splitting
import Mathlib.Data.List.Forall2
import Mathlib.Data.List.Infix
import Mathlib.Data.List.TakeDrop
import Mathlib.Data.List.TakeWhile

/-!
# The grammar of command lines

What a list of tokens asks for, said without the parser: where a background
mark may stand (`body`, `inForeground`), which redirections have no file name
(`Dangling`), and which role each word of a segment plays (`redirectionsOf`,
`freeWords`, `Sorts`). `Describes` puts the roles together to a stage.

`Line.parse` is then read off these, fault by fault in the order of their
precedence. The passes of the parser are met one at a time:

- `splitBackground_eq`: the mark is last or misplaced;
- `segments_eq_splitOn`: the segments are the stretches between pipes;
- `read_of_dangling` and `read_of_not_dangling`: a segment is refused for a
  dangling redirection and for nothing else, and its words get their roles.
-/

namespace JobShell

namespace Line

/-! ## Roles of tokens -/

/-- The tokens in front of a background mark at the end. -/
def body (tokens : List Token) : List Token :=
  if tokens.getLast? = some .background then tokens.dropLast else tokens

/-- Whether there is no background mark at the end. -/
def inForeground (tokens : List Token) : Bool := tokens.getLast? ≠ some .background

/-- A redirection of the segment is not followed by a word. -/
def Dangling (segment : List Token) : Prop :=
  ∃ front fd direction back, segment = front ++ .redirect fd direction :: back
    ∧ ∀ path quoted rest, back ≠ .word path quoted :: rest

/-- The redirections of a segment in order: an operator and the word right
behind it. -/
def redirectionsOf (segment : List Token) : List Redirection :=
  (segment.zip segment.tail).filterMap fun
    | (.redirect fd direction, .word path _) =>
      some ⟨fd.elim direction.standard Int.ofNat, direction, .ofString path⟩
    | _ => none

/-- The words of a segment that are not right behind a redirection, and
whether they are quoted. -/
def freeWords (segment : List Token) : List (String × Bool) :=
  ((none :: segment.map some).zip segment).filterMap fun
    | (some (.redirect _ _), _) => none
    | (_, .word text quoted) => some (text, quoted)
    | _ => none

/-- The words begin with unquoted ones that spell `pairs`; the rest, which
begins with no such word, is `argv`. -/
def Sorts (words : List (String × Bool)) (pairs : List (String × String))
    (argv : List String) : Prop :=
  ∃ front back, words = front ++ back
    ∧ List.Forall₂ (fun word pair => word.2 = false ∧ Spells word.1 pair) front pairs
    ∧ argv = back.map Prod.fst
    ∧ ∀ word ∈ back.head?, word.2 = false → ∀ pair, ¬Spells word.1 pair

/-- The stage a segment describes, and the assignments in front of it. Of
two assignments to one name the later one counts. -/
structure Describes (segment : List Token) (pairs : List (String × String))
    (stage : Stage) : Prop where
  redirections : stage.redirections = redirectionsOf segment
  words : Sorts (freeWords segment) pairs stage.argv
  command : stage.command = stage.argv.headD ""
  vars : ∀ name, stage.vars[name]? = pairs.reverse.lookup name

/-! ## The grammar is unambiguous -/

theorem sorts_nil_iff {pairs : List (String × String)} {argv : List String} :
    Sorts [] pairs argv ↔ pairs = [] ∧ argv = [] := by
  constructor
  · rintro ⟨front, back, h, hfront, rfl, -⟩
    obtain ⟨rfl, rfl⟩ := List.append_eq_nil_iff.mp h.symm
    exact ⟨List.forall₂_nil_left_iff.mp hfront, rfl⟩
  · rintro ⟨rfl, rfl⟩
    exact ⟨[], [], rfl, .nil, rfl, by simp⟩

/-- The first word is an assignment in front of the others, or it begins the
arguments. -/
theorem sorts_cons_iff {word : String × Bool} {words : List (String × Bool)}
    {pairs : List (String × String)} {argv : List String} :
    Sorts (word :: words) pairs argv
      ↔ (∃ pair rest, pairs = pair :: rest ∧ word.2 = false ∧ Spells word.1 pair
          ∧ Sorts words rest argv)
        ∨ (pairs = [] ∧ argv = (word :: words).map Prod.fst
          ∧ (word.2 = false → ∀ pair, ¬Spells word.1 pair)) := by
  constructor
  · rintro ⟨front, back, h, hfront, rfl, hback⟩
    cases front with
    | nil =>
        rw [List.nil_append] at h
        subst h
        exact Or.inr ⟨List.forall₂_nil_left_iff.mp hfront, rfl, hback word rfl⟩
    | cons w front =>
        obtain ⟨rfl, rfl⟩ := List.cons.inj h
        obtain ⟨pair, rest, ⟨hquoted, hpair⟩, hrest, rfl⟩ := List.forall₂_cons_left_iff.mp hfront
        exact Or.inl ⟨pair, rest, rfl, hquoted, hpair, front, back, rfl, hrest, rfl, hback⟩
  · rintro (⟨pair, rest, rfl, hquoted, hpair, front, back, rfl, hfront, hargv, hback⟩
      | ⟨rfl, rfl, hnot⟩)
    · exact ⟨word :: front, back, rfl, .cons ⟨hquoted, hpair⟩ hfront, hargv, hback⟩
    · refine ⟨[], word :: words, rfl, .nil, rfl, ?_⟩
      rintro w ⟨⟩
      exact hnot

theorem Sorts.unique {words : List (String × Bool)} {pairs pairs' : List (String × String)}
    {argv argv' : List String} (h : Sorts words pairs argv) (h' : Sorts words pairs' argv') :
    pairs = pairs' ∧ argv = argv' := by
  induction words generalizing pairs pairs' with
  | nil =>
      obtain ⟨rfl, rfl⟩ := sorts_nil_iff.mp h
      obtain ⟨rfl, rfl⟩ := sorts_nil_iff.mp h'
      exact ⟨rfl, rfl⟩
  | cons word words ih =>
      rcases sorts_cons_iff.mp h with ⟨pair, rest, rfl, hq, hp, hrest⟩ | ⟨rfl, rfl, hnot⟩ <;>
        rcases sorts_cons_iff.mp h' with ⟨pair', rest', rfl, hq', hp', hrest'⟩ | ⟨rfl, rfl, hnot'⟩
      · obtain ⟨rfl, rfl⟩ := ih hrest hrest'
        exact ⟨by rw [hp.unique hp'], rfl⟩
      · exact (hnot' hq _ hp).elim
      · exact (hnot hq' _ hp').elim
      · exact ⟨rfl, rfl⟩

/-- A segment describes one stage and one list of assignments. -/
theorem Describes.unique {segment : List Token} {pairs pairs' : List (String × String)}
    {stage stage' : Stage} (h : Describes segment pairs stage)
    (h' : Describes segment pairs' stage') :
    pairs = pairs' ∧ stage.argv = stage'.argv ∧ stage.command = stage'.command
      ∧ stage.redirections = stage'.redirections
      ∧ ∀ name : String, stage.vars[name]? = stage'.vars[name]? := by
  obtain ⟨hpairs, hargv⟩ := h.words.unique h'.words
  refine ⟨hpairs, hargv, ?_, ?_, fun name => ?_⟩
  · rw [h.command, h'.command, hargv]
  · rw [h.redirections, h'.redirections]
  · rw [h.vars, h'.vars, hpairs]

/-! ## Splitting -/

theorem splitBackground_eq (tokens : List Token) :
    splitBackground tokens
      = if .background ∈ tokens.dropLast then .error .misplacedBackground
        else .ok (body tokens, inForeground tokens) := by
  have htokens : tokens.takeWhile (· != .background) ++ tokens.dropWhile (· != .background)
      = tokens := List.takeWhile_append_dropWhile
  have hfront : .background ∉ tokens.takeWhile (· != .background) := fun h => by
    simpa using List.mem_takeWhile_imp h
  have hback : ∀ t ∈ (tokens.dropWhile (· != .background)).head?, t = .background := by
    intro t ht
    have := List.head?_dropWhile_not (· != Token.background) tokens
    rw [Option.mem_def.mp ht] at this
    simpa using this
  rw [splitBackground, List.span_eq_takeWhile_dropWhile]
  generalize tokens.takeWhile (· != .background) = front at htokens hfront
  generalize tokens.dropWhile (· != .background) = back at htokens hback
  subst htokens
  cases back with
  | nil =>
      rw [List.append_nil, if_neg fun h => hfront (List.mem_of_mem_dropLast h)]
      have hlast : front.getLast? ≠ some .background := fun h =>
        hfront (List.mem_of_getLast? h)
      simp only [body, inForeground, if_neg hlast, decide_eq_true hlast]
  | cons t rest =>
      obtain rfl := hback t rfl
      cases rest with
      | nil =>
          rw [List.dropLast_concat, if_neg hfront]
          simp [body, inForeground]
      | cons u rest => rw [if_pos (by simp [List.dropLast_append_of_ne_nil])]

theorem segments_ne_nil (tokens : List Token) : segments tokens ≠ [] := by
  unfold segments
  split
  · simp
  · simp
  · split <;> simp

theorem segments_cons {t : Token} {rest : List Token} (h : t ≠ .pipe) :
    segments (t :: rest) = (segments rest).modifyHead (t :: ·) := by
  have hne := segments_ne_nil rest
  cases t with
  | pipe => exact absurd rfl h
  | word text quoted | background | redirect fd direction =>
      rw [segments]
      · split
        · contradiction
        · rename_i heq
          rw [heq, List.modifyHead_cons]
      · simp

theorem segments_eq_splitOn (tokens : List Token) : segments tokens = tokens.splitOn .pipe := by
  induction tokens with
  | nil => rfl
  | cons t rest ih =>
      rw [List.splitOn_cons_eq_if_modifyHead, ← ih]
      by_cases h : t = .pipe
      · subst h
        rfl
      · rw [segments_cons h, if_neg (by simpa using h)]

/-! ## Roles, token by token -/

@[simp] theorem redirectionsOf_nil : redirectionsOf [] = [] := rfl

@[simp] theorem redirectionsOf_word (text : String) (quoted : Bool) (rest : List Token) :
    redirectionsOf (.word text quoted :: rest) = redirectionsOf rest := by
  cases rest <;> rfl

@[simp] theorem redirectionsOf_redirect (fd : Option Nat) (direction : Direction)
    (path : String) (quoted : Bool) (rest : List Token) :
    redirectionsOf (.redirect fd direction :: .word path quoted :: rest)
      = ⟨fd.elim direction.standard Int.ofNat, direction, .ofString path⟩
          :: redirectionsOf rest := by
  cases rest <;> rfl

@[simp] theorem freeWords_nil : freeWords [] = [] := rfl

@[simp] theorem freeWords_word (text : String) (quoted : Bool) (rest : List Token) :
    freeWords (.word text quoted :: rest) = (text, quoted) :: freeWords rest := by
  cases rest with
  | nil => rfl
  | cons t rest => cases t <;> rfl

@[simp] theorem freeWords_redirect (fd : Option Nat) (direction : Direction)
    (path : String) (quoted : Bool) (rest : List Token) :
    freeWords (.redirect fd direction :: .word path quoted :: rest) = freeWords rest := by
  cases rest with
  | nil => rfl
  | cons t rest => cases t <;> rfl

theorem dangling_cons {t : Token} {rest : List Token}
    (ht : ∀ fd direction, t ≠ .redirect fd direction) :
    Dangling (t :: rest) ↔ Dangling rest := by
  constructor
  · rintro ⟨front, fd, direction, back, h, hback⟩
    cases front with
    | nil => exact (ht fd direction (List.cons.inj h).1).elim
    | cons t front =>
        obtain ⟨-, rfl⟩ := List.cons.inj h
        exact ⟨front, fd, direction, back, rfl, hback⟩
  · rintro ⟨front, fd, direction, back, rfl, hback⟩
    exact ⟨_ :: front, fd, direction, back, rfl, hback⟩

theorem dangling_word {text : String} {quoted : Bool} {rest : List Token} :
    Dangling (.word text quoted :: rest) ↔ Dangling rest :=
  dangling_cons (by simp)

theorem dangling_redirect_word {fd : Option Nat} {direction : Direction} {path : String}
    {quoted : Bool} {rest : List Token} :
    Dangling (.redirect fd direction :: .word path quoted :: rest) ↔ Dangling rest := by
  constructor
  · rintro ⟨front, fd', direction', back, h, hback⟩
    cases front with
    | nil =>
        obtain ⟨-, rfl⟩ := List.cons.inj h
        exact (hback path quoted rest rfl).elim
    | cons t front =>
        obtain ⟨-, h⟩ := List.cons.inj h
        exact dangling_word.mp ⟨front, fd', direction', back, h, hback⟩
  · intro h
    have hword : Dangling (.word path quoted :: rest) := dangling_word.mpr h
    obtain ⟨front, fd', direction', back, h, hback⟩ := hword
    exact ⟨_ :: front, fd', direction', back, congrArg _ h, hback⟩

/-! ## Reading a segment -/

namespace Segment

@[simp] theorem addWord_redirections (s : Segment) (rs : List Redirection) (text : String)
    (quoted : Bool) :
    { s with redirections := rs }.addWord text quoted
      = { s.addWord text quoted with redirections := rs } := by
  obtain ⟨pairs, argv, -⟩ := s
  unfold addWord
  cases argv <;> cases quoted <;> cases assignment? text <;> rfl

theorem redirections_addWord (s : Segment) (text : String) (quoted : Bool) :
    (s.addWord text quoted).redirections = s.redirections := by
  unfold addWord
  split <;> rfl

theorem addRedirection_eq (s : Segment) (fd : Option Nat) (direction : Direction)
    (path : String) :
    s.addRedirection fd direction path
      = { s with
          redirections := s.redirections
            ++ [⟨fd.elim direction.standard Int.ofNat, direction, .ofString path⟩] } := by
  cases fd <;> rfl

/-- The segment with some more words. -/
def addWords (s : Segment) (words : List (String × Bool)) : Segment :=
  words.foldl (fun s word => s.addWord word.1 word.2) s

theorem addWords_cons (s : Segment) (text : String) (quoted : Bool)
    (words : List (String × Bool)) :
    s.addWords ((text, quoted) :: words) = (s.addWord text quoted).addWords words := rfl

theorem addWords_redirections (s : Segment) (rs : List Redirection)
    (words : List (String × Bool)) :
    { s with redirections := rs }.addWords words
      = { s.addWords words with redirections := rs } := by
  induction words generalizing s with
  | nil => rfl
  | cons w words ih => exact (congrArg (addWords · words) (addWord_redirections ..)).trans (ih _)

/-- A dangling redirection is a fault, whatever stands around it. -/
theorem read_of_dangling {segment : List Token} (h : Dangling segment) (s : Segment) :
    s.read segment = .error .missingFileName := by
  fun_induction read s segment with
  | case1 => obtain ⟨front, fd, direction, back, h, -⟩ := h; simp at h
  | case2 s text quoted rest ih => exact ih (dangling_word.mp h)
  | case3 s fd direction path quoted rest ih => exact ih (dangling_redirect_word.mp h)
  | case4 => rfl
  | case5 s rest ih | case6 s rest ih => exact ih ((dangling_cons (by simp)).mp h)

/-- Without dangling redirections a segment is read, and its words and
redirections are those the grammar gives it. -/
theorem read_of_not_dangling {segment : List Token} (hpipe : .pipe ∉ segment)
    (hmark : .background ∉ segment) (h : ¬Dangling segment) (s : Segment) :
    s.read segment
      = .ok { s.addWords (freeWords segment) with
              redirections := s.redirections ++ redirectionsOf segment } := by
  fun_induction read s segment with
  | case1 s => simp [addWords]
  | case2 s text quoted rest ih =>
      rw [ih (fun hp => hpipe (List.mem_cons_of_mem _ hp))
        (fun hm => hmark (List.mem_cons_of_mem _ hm)) (fun hd => h (dangling_word.mpr hd)),
        freeWords_word, redirectionsOf_word, addWords_cons, redirections_addWord]
  | case3 s fd direction path quoted rest ih =>
      rw [ih (fun hp => hpipe (List.mem_cons_of_mem _ (List.mem_cons_of_mem _ hp)))
        (fun hm => hmark (List.mem_cons_of_mem _ (List.mem_cons_of_mem _ hm)))
        (fun hd => h (dangling_redirect_word.mpr hd)),
        freeWords_redirect, redirectionsOf_redirect, addRedirection_eq, addWords_redirections,
        List.append_assoc, List.singleton_append]
  | case4 s fd direction rest hrest =>
      exact (h ⟨[], fd, direction, rest, rfl, fun path quoted more heq => hrest _ _ _ heq⟩).elim
  | case5 => exact (hpipe (List.mem_cons_self ..)).elim
  | case6 => exact (hmark (List.mem_cons_self ..)).elim

theorem addWord_of_spells {s : Segment} {text : String} {pair : String × String}
    (hs : s.argv = []) (h : Spells text pair) :
    s.addWord text false = { s with assignments := s.assignments ++ [pair] } := by
  unfold addWord
  rw [hs, assignment?_eq_some_iff.mpr h]

theorem addWord_of_not_spells {s : Segment} {text : String} {quoted : Bool}
    (h : s.argv = [] → quoted = false → ∀ pair, ¬Spells text pair) :
    s.addWord text quoted = { s with argv := s.argv ++ [text] } := by
  unfold addWord
  split
  · rename_i hargv hpair
    exact (h hargv rfl _ (assignment?_eq_some_iff.mp hpair)).elim
  · rfl

theorem addWords_of_argv_ne_nil {s : Segment} (hs : s.argv ≠ [])
    (words : List (String × Bool)) :
    s.addWords words = { s with argv := s.argv ++ words.map Prod.fst } := by
  induction words generalizing s with
  | nil => simp [addWords]
  | cons word words ih =>
      rw [addWords_cons, addWord_of_not_spells fun h => (hs h).elim, ih (by simp)]
      simp

/-- As long as there are no arguments, words are sorted into assignments and
arguments. -/
theorem sorts_addWords {s : Segment} (hs : s.argv = []) (words : List (String × Bool)) :
    ∃ pairs, (s.addWords words).assignments = s.assignments ++ pairs
      ∧ Sorts words pairs (s.addWords words).argv := by
  induction words generalizing s with
  | nil => exact ⟨[], (List.append_nil _).symm, sorts_nil_iff.mpr ⟨rfl, hs⟩⟩
  | cons word words ih =>
      obtain ⟨text, quoted⟩ := word
      rw [addWords_cons]
      by_cases h : quoted = false ∧ ∃ pair, Spells text pair
      · obtain ⟨rfl, pair, hpair⟩ := h
        rw [addWord_of_spells hs hpair]
        obtain ⟨pairs, hpairs, hsorts⟩ :=
          @ih { s with assignments := s.assignments ++ [pair] } hs
        exact ⟨pair :: pairs, by rw [hpairs, List.append_assoc, List.singleton_append],
          sorts_cons_iff.mpr (Or.inl ⟨pair, pairs, rfl, rfl, hpair, hsorts⟩)⟩
      · have hnot : quoted = false → ∀ pair, ¬Spells text pair :=
          fun hq pair hp => h ⟨hq, pair, hp⟩
        rw [addWord_of_not_spells fun _ => hnot, addWords_of_argv_ne_nil (by simp)]
        exact ⟨[], (List.append_nil _).symm,
          sorts_cons_iff.mpr (Or.inr ⟨rfl, by simp [hs], hnot⟩)⟩

/-- A segment that is read describes its stage. -/
theorem describes_of_read {segment : List Token} (hpipe : .pipe ∉ segment)
    (hmark : .background ∉ segment) (h : ¬Dangling segment) :
    ∃ s : Segment, Segment.read {} segment = .ok s ∧ Describes segment s.assignments s.stage := by
  refine ⟨_, read_of_not_dangling hpipe hmark h {}, rfl, ?_, rfl, fun name => ?_⟩
  · obtain ⟨pairs, hpairs, hsorts⟩ := sorts_addWords (s := {}) rfl (freeWords segment)
    rw [List.nil_append] at hpairs
    simp only [hpairs]
    exact hsorts
  · rw [stage, getElem?_foldl_insert]
    simp

end Segment

/-! ## Reading a line -/

theorem readAll_of_dangling {segments : List (List Token)}
    (hsep : ∀ segment ∈ segments, .pipe ∉ segment ∧ .background ∉ segment)
    (h : ∃ segment ∈ segments, Dangling segment) :
    segments.mapM (Segment.read {}) = .error .missingFileName := by
  induction segments with
  | nil => simp at h
  | cons segment rest ih =>
      rw [List.mapM_cons]
      by_cases hd : Dangling segment
      · rw [Segment.read_of_dangling hd]
        rfl
      · obtain ⟨hpipe, hmark⟩ := hsep _ (List.mem_cons_self ..)
        obtain ⟨s, hs, -⟩ := Segment.describes_of_read hpipe hmark hd
        have hrest : ∃ segment ∈ rest, Dangling segment := by
          obtain ⟨other, hmem, hother⟩ := h
          rcases List.mem_cons.mp hmem with rfl | hmem
          · exact (hd hother).elim
          · exact ⟨other, hmem, hother⟩
        rw [hs, ih (fun _ hmem => hsep _ (List.mem_cons_of_mem _ hmem)) hrest]
        rfl

theorem readAll_of_not_dangling {segments : List (List Token)}
    (hsep : ∀ segment ∈ segments, .pipe ∉ segment ∧ .background ∉ segment)
    (h : ∀ segment ∈ segments, ¬Dangling segment) :
    ∃ parts : List Segment, segments.mapM (Segment.read {}) = .ok parts
      ∧ List.Forall₂ (fun segment s => Describes segment s.assignments s.stage) segments parts := by
  induction segments with
  | nil => exact ⟨[], rfl, .nil⟩
  | cons segment rest ih =>
      obtain ⟨hpipe, hmark⟩ := hsep _ (List.mem_cons_self ..)
      obtain ⟨s, hs, hdescribes⟩ :=
        Segment.describes_of_read hpipe hmark (h _ (List.mem_cons_self ..))
      obtain ⟨parts, hparts, hrest⟩ :=
        ih (fun _ hmem => hsep _ (List.mem_cons_of_mem _ hmem))
          (fun _ hmem => h _ (List.mem_cons_of_mem _ hmem))
      refine ⟨s :: parts, ?_, .cons hdescribes hrest⟩
      rw [List.mapM_cons, hs, hparts]
      rfl

theorem not_mem_body {tokens : List Token} (h : .background ∉ tokens.dropLast) :
    .background ∉ body tokens := by
  unfold body
  split
  · exact h
  · rename_i hlast
    intro hmem
    rcases List.eq_nil_or_concat' tokens with rfl | ⟨front, t, rfl⟩
    · exact List.not_mem_nil hmem
    · rw [List.dropLast_concat] at h
      rcases List.mem_append.mp hmem with hmem | hmem
      · exact h hmem
      · obtain rfl := List.mem_singleton.mp hmem
        exact hlast (by simp)

theorem segments_no_separators {tokens : List Token} (h : .background ∉ tokens.dropLast) :
    ∀ segment ∈ (body tokens).splitOn .pipe, .pipe ∉ segment ∧ .background ∉ segment := by
  intro segment hs
  exact ⟨fun hp => (mem_of_mem_splitOn hs hp).2 rfl,
    fun hm => not_mem_body h (mem_of_mem_splitOn hs hm).1⟩

theorem ofSegments_lone {s : Segment} (hargv : s.argv = []) (hr : s.redirections = []) :
    ofSegments [s] true = .ok (.assignments s.assignments) := by
  obtain ⟨pairs, argv, redirections⟩ := s
  obtain rfl : argv = [] := hargv
  obtain rfl : redirections = [] := hr
  rfl

theorem ofSegments_of_not_lone {parts : List Segment} {foreground : Bool}
    (h : ∀ s, parts = [s] → foreground = true → s.argv = [] → s.redirections ≠ []) :
    ofSegments parts foreground
      = if parts.any (·.argv.isEmpty) then .error .missingCommand
        else .ok (.pipeline ⟨parts.map Segment.stage, foreground⟩) := by
  unfold ofSegments
  split
  · exact (h _ rfl rfl rfl rfl).elim
  · rfl

theorem ofTokens_of_misplaced {tokens : List Token} (h : .background ∈ tokens.dropLast) :
    ofTokens tokens = .error .misplacedBackground := by
  have hne : tokens ≠ [] := by
    rintro rfl
    simp at h
  rw [ofTokens, if_neg hne, splitBackground_eq, if_pos h]
  rfl

theorem ofTokens_eq {tokens : List Token} (hne : tokens ≠ [])
    (h : .background ∉ tokens.dropLast) :
    ofTokens tokens
      = ((body tokens).splitOn .pipe).mapM (Segment.read {}) >>=
          (ofSegments · (inForeground tokens)) := by
  rw [ofTokens, if_neg hne, splitBackground_eq, if_neg h, ← segments_eq_splitOn]
  rfl

theorem parse_eq_ofTokens {line : String} {tokens : List Token}
    (h : lex line.toList = .ok tokens) : Line.parse line = ofTokens tokens := by
  rw [Line.parse, h]
  rfl

/-! ## What was read -/

/-- A line that is accepted is empty, or its segments were read and put
together. -/
theorem exists_parts_of_parse {line : String} {parsed : Line} (h : Line.parse line = .ok parsed) :
    parsed = .empty
      ∨ ∃ (tokens : List Token) (parts : List Segment), lex line.toList = .ok tokens
          ∧ List.Forall₂ (fun segment s => Describes segment s.assignments s.stage)
              ((body tokens).splitOn .pipe) parts
          ∧ ofSegments parts (inForeground tokens) = .ok parsed := by
  cases hlex : lex line.toList with
  | error fault =>
      rw [Line.parse, hlex] at h
      cases h
  | ok tokens =>
      rw [parse_eq_ofTokens hlex] at h
      by_cases hne : tokens = []
      · rw [ofTokens, if_pos hne] at h
        exact Or.inl (Except.ok.inj h).symm
      by_cases hmark : .background ∈ tokens.dropLast
      · rw [ofTokens_of_misplaced hmark] at h
        cases h
      have hsep := segments_no_separators hmark
      rw [ofTokens_eq hne hmark] at h
      by_cases hd : ∃ segment ∈ (body tokens).splitOn .pipe, Dangling segment
      · rw [readAll_of_dangling hsep hd] at h
        cases h
      · obtain ⟨parts, hparts, hdescribes⟩ :=
          readAll_of_not_dangling hsep fun segment hs hdangling => hd ⟨segment, hs, hdangling⟩
        rw [hparts] at h
        exact Or.inr ⟨tokens, parts, rfl, hdescribes, h⟩

theorem ofSegments_eq_assignments {parts : List Segment} {foreground : Bool}
    {pairs : List (String × String)} (h : ofSegments parts foreground = .ok (.assignments pairs)) :
    ∃ s, parts = [s] ∧ s.assignments = pairs := by
  unfold ofSegments at h
  split at h
  · exact ⟨_, rfl, Line.assignments.inj (Except.ok.inj h)⟩
  · split at h <;> cases h

theorem ofSegments_eq_pipeline {parts : List Segment} {foreground : Bool} {p : Pipeline}
    (h : ofSegments parts foreground = .ok (.pipeline p)) :
    p.stages = parts.map Segment.stage ∧ ∀ s ∈ parts, s.argv ≠ [] := by
  unfold ofSegments at h
  split at h
  · cases h
  · split at h
    · cases h
    · rename_i hany
      obtain rfl := Line.pipeline.inj (Except.ok.inj h)
      refine ⟨rfl, fun s hs hempty => hany ?_⟩
      exact List.any_eq_true.mpr ⟨s, hs, List.isEmpty_iff.mpr hempty⟩

theorem stages_ne_nil_of_parse {line : String} {p : Pipeline}
    (h : Line.parse line = .ok (.pipeline p)) : p.stages ≠ [] := by
  rcases exists_parts_of_parse h with h | ⟨tokens, parts, -, hdescribes, hparts⟩
  · cases h
  intro hempty
  rw [(ofSegments_eq_pipeline hparts).1] at hempty
  obtain rfl := List.map_eq_nil_iff.mp hempty
  exact List.splitOn_ne_nil _ _ (List.forall₂_nil_right_iff.mp hdescribes)

/-- The stages of a line have a command, which is their first argument. -/
theorem argv_of_parse {line : String} {p : Pipeline} (h : Line.parse line = .ok (.pipeline p)) :
    ∀ s ∈ p.stages, s.argv = s.command :: s.argv.tail := by
  intro stage hstage
  rcases exists_parts_of_parse h with h | ⟨tokens, parts, -, -, hparts⟩
  · cases h
  · obtain ⟨hstages, hargv⟩ := ofSegments_eq_pipeline hparts
    rw [hstages] at hstage
    obtain ⟨s, hs, rfl⟩ := List.mem_map.mp hstage
    have hne := hargv s hs
    rw [Segment.stage]
    cases hwords : s.argv with
    | nil => exact absurd hwords hne
    | cons word rest => rfl

theorem Sorts.isVariableName {words : List (String × Bool)} {pairs : List (String × String)}
    {argv : List String} (h : Sorts words pairs argv) :
    ∀ pair ∈ pairs, isVariableName pair.1 = true := by
  obtain ⟨front, back, -, hfront, -, -⟩ := h
  induction hfront with
  | nil => simp
  | cons hpair _ ih => exact List.forall_mem_cons.mpr ⟨hpair.2.1, ih⟩

/-- The names that a line of assignments assigns to are valid. -/
theorem isVariableName_of_parse {line : String} {pairs : List (String × String)}
    (h : Line.parse line = .ok (.assignments pairs)) :
    ∀ pair ∈ pairs, isVariableName pair.1 = true := by
  rcases exists_parts_of_parse h with h | ⟨tokens, parts, -, hdescribes, hparts⟩
  · cases h
  · obtain ⟨s, rfl, rfl⟩ := ofSegments_eq_assignments hparts
    obtain ⟨segment, rest, hs, -, -⟩ := List.forall₂_cons_right_iff.mp hdescribes
    exact hs.words.isVariableName

/-- **The grammar of lines.** What a line asks for, by its tokens. Without any
it is empty. A background mark in front of other tokens is a fault; after it,
a redirection without a file name in any segment; and then, unless the line
is a lone segment of assignments, a segment without a command. In every other
case the line is the pipeline of the stages its segments describe. -/
theorem parse_of_lex {line : String} {tokens : List Token} (h : lex line.toList = .ok tokens) :
    (tokens = [] → Line.parse line = .ok .empty)
      ∧ (.background ∈ tokens.dropLast → Line.parse line = .error .misplacedBackground)
      ∧ (tokens ≠ [] → .background ∉ tokens.dropLast →
          ((∃ segment ∈ (body tokens).splitOn .pipe, Dangling segment) →
            Line.parse line = .error .missingFileName)
          ∧ ((∀ segment ∈ (body tokens).splitOn .pipe, ¬Dangling segment) →
            ∃ parts : List (List (String × String) × Stage),
              List.Forall₂ (fun segment part => Describes segment part.1 part.2)
                ((body tokens).splitOn .pipe) parts
              ∧ (∀ pairs stage, parts = [(pairs, stage)] → inForeground tokens = true →
                  stage.argv = [] → stage.redirections = [] →
                  Line.parse line = .ok (.assignments pairs))
              ∧ ((∀ pairs stage, parts = [(pairs, stage)] → inForeground tokens = true →
                  stage.argv = [] → stage.redirections ≠ []) →
                  ((∃ part ∈ parts, part.2.argv = []) →
                    Line.parse line = .error .missingCommand)
                  ∧ ((∀ part ∈ parts, part.2.argv ≠ []) →
                    Line.parse line
                      = .ok (.pipeline ⟨parts.map Prod.snd, inForeground tokens⟩))))) := by
  rw [parse_eq_ofTokens h]
  refine ⟨fun hempty => by rw [hempty]; rfl, ofTokens_of_misplaced, fun hne hmark => ?_⟩
  have hsep := segments_no_separators hmark
  rw [ofTokens_eq hne hmark]
  refine ⟨fun hd => by rw [readAll_of_dangling hsep hd]; rfl, fun hd => ?_⟩
  obtain ⟨parts, hparts, hdescribes⟩ := readAll_of_not_dangling hsep hd
  rw [hparts]
  refine ⟨parts.map fun s => (s.assignments, s.stage),
    List.forall₂_map_right_iff.mpr hdescribes, ?_, fun hlone => ⟨?_, ?_⟩⟩
  · intro pairs stage hpart hfg hargv hr
    obtain ⟨s, rfl, hs⟩ := List.map_eq_singleton_iff.mp hpart
    obtain ⟨rfl, rfl⟩ := Prod.mk.inj hs
    rw [hfg]
    exact ofSegments_lone hargv hr
  · rintro ⟨part, hpart, hargv⟩
    obtain ⟨s, hs, rfl⟩ := List.mem_map.mp hpart
    show ofSegments parts _ = _
    rw [ofSegments_of_not_lone, if_pos]
    · exact List.any_eq_true.mpr ⟨s, hs, List.isEmpty_iff.mpr hargv⟩
    · rintro s rfl
      exact hlone _ _ rfl
  · intro hargv
    show ofSegments parts _ = _
    rw [ofSegments_of_not_lone, if_neg, List.map_map]
    · rfl
    · intro hany
      obtain ⟨s, hs, hempty⟩ := List.any_eq_true.mp hany
      exact hargv _ (List.mem_map_of_mem hs) (List.isEmpty_iff.mp hempty)
    · rintro s rfl
      exact hlone _ _ rfl

/-- The segments are looked at before the missing commands: a redirection
without a file name in the second one is the fault of the whole line. -/
theorem parse_dangling_behind_empty_segment :
    lex "| A=1 cat < | wc &".toList
        = .ok [.pipe, .word "A=1" false, .word "cat" false, .redirect none .input, .pipe,
            .word "wc" false, .background]
      ∧ Line.parse "| A=1 cat < | wc &" = .error .missingFileName := by
  have h : lex "| A=1 cat < | wc &".toList
        = .ok [.pipe, .word "A=1" false, .word "cat" false, .redirect none .input, .pipe,
            .word "wc" false, .background] := Except.eq_ok_of_toOption (by decide +kernel)
  have hdangling : Dangling [.word "A=1" false, .word "cat" false, .redirect none .input] :=
    ⟨[.word "A=1" false, .word "cat" false], none, .input, [], rfl, by simp⟩
  exact ⟨h, ((parse_of_lex h).2.2 (by decide) (by decide)).1 ⟨_, by decide, hdangling⟩⟩

end Line

end JobShell
