import JobShell.Proofs.Grammar
import JobShell.Proofs.Spelling
import JobShell.Proofs.Utf8

/-!
# Descriptions of pipelines

Notices and logs name a job by the description of its pipeline. A pipeline
that needs no quotes and sets no variables (`Pipeline.IsPlain`) can be read
back from it (`parse_describe`).

The printer and the parser meet at the tokens: `Pipeline.tokens` lists those
a description is made of. The description is their rendering
(`toList_describe`), so the lexer reads them back, and the parser makes the
same stages of them, segment by segment (`Segment.read_tokens`).
-/

namespace JobShell

open Line (Token Segment IsBare renderTokens)

/-! ## Plain pipelines -/

/-- The descriptor can be redirected and the path needs no quotes. -/
structure Redirection.IsPlain (r : Redirection) : Prop where
  fd : 0 ≤ r.fd ∧ r.fd ≤ Redirection.maxFd
  path : ∃ text : String, r.path = .ofString text ∧ IsBare text.toList

/-- The stage is named by its first argument, no word of it needs quotes, and
it sets no variables. -/
structure Stage.IsPlain (s : Stage) : Prop where
  command : s.argv.head? = some s.command
  argv : ∀ word ∈ s.argv, IsBare word.toList
  unassigned : ∀ pair, ¬Spells s.command pair
  redirections : ∀ r ∈ s.redirections, r.IsPlain
  vars : s.vars = ∅

/-- There are stages, and all of them are plain. -/
structure Pipeline.IsPlain (p : Pipeline) : Prop where
  nonempty : p.stages ≠ []
  stages : ∀ s ∈ p.stages, s.IsPlain

theorem Stage.IsPlain.exists_argv {s : Stage} (h : s.IsPlain) :
    ∃ arguments, s.argv = s.command :: arguments :=
  List.head?_eq_some_iff.mp h.command

/-! ## The tokens of a description -/

/-- The operator and the path. The number is only there where it is not that
of the direction. -/
def Redirection.tokens (r : Redirection) : List Token :=
  [.redirect (if r.fd = r.direction.standard then none else some r.fd.toNat) r.direction,
   .word r.path.lossy false]

/-- The arguments and then the redirections. -/
def Stage.tokens (s : Stage) : List Token :=
  s.argv.map (Token.word · false) ++ s.redirections.flatMap Redirection.tokens

/-- The stages between pipes, and the mark of a pipeline in the background. -/
def Pipeline.tokens (p : Pipeline) : List Token :=
  [Token.pipe].intercalate (p.stages.map Stage.tokens)
    ++ if p.foreground then [] else [.background]

theorem Redirection.IsPlain.lossy_path {r : Redirection} (h : r.IsPlain) :
    IsBare r.path.lossy.toList ∧ r.path = .ofString r.path.lossy := by
  obtain ⟨text, hpath, hbare⟩ := h.path
  have hlossy : r.path.lossy = text := by
    have hpieces : (text.toList.map some).map (·.getD '\uFFFD') = text.toList := by
      rw [List.map_map]
      exact List.map_id _
    rw [hpath, Bytes.lossy, Bytes.pieces_ofString, hpieces, String.ofList_toList]
  rw [hlossy]
  exact ⟨hbare, hpath⟩

theorem Redirection.IsPlain.isWellFormed {r : Redirection} (h : r.IsPlain) :
    ∀ t ∈ r.tokens, t.IsWellFormed := by
  rw [Redirection.tokens, List.forall_mem_cons, List.forall_mem_singleton]
  refine ⟨?_, h.lossy_path.1⟩
  split
  · trivial
  · obtain ⟨-, hle⟩ := h.fd
    rw [Redirection.maxFd] at hle
    show r.fd.toNat ≤ 9
    omega

theorem Stage.IsPlain.isWellFormed {s : Stage} (h : s.IsPlain) :
    ∀ t ∈ s.tokens, t.IsWellFormed := by
  rw [Stage.tokens, List.forall_mem_append]
  constructor
  · intro t ht
    obtain ⟨word, hword, rfl⟩ := List.mem_map.mp ht
    exact h.argv word hword
  · intro t ht
    obtain ⟨r, hr, ht⟩ := List.mem_flatMap.mp ht
    exact (h.redirections r hr).isWellFormed t ht

/-! ## Rendering them -/

theorem intercalate_cons {α : Type} (separator first : List α) (rest : List (List α)) :
    separator.intercalate (first :: rest) = first ++ rest.flatMap (separator ++ ·) := by
  induction rest generalizing first with
  | nil => simp
  | cons next rest ih =>
      rw [List.intercalate_cons_cons, ih, List.flatMap_cons, List.append_assoc, List.append_assoc]

theorem mem_intercalate {α : Type} {separator x : α} {parts : List (List α)}
    (h : x ∈ [separator].intercalate parts) : x = separator ∨ ∃ part ∈ parts, x ∈ part := by
  cases parts with
  | nil => simp at h
  | cons first rest =>
      rw [intercalate_cons, List.mem_append, List.mem_flatMap] at h
      rcases h with hx | ⟨part, hpart, hx⟩
      · exact Or.inr ⟨first, List.mem_cons_self .., hx⟩
      · rcases List.mem_cons.mp hx with rfl | hx
        · exact Or.inl rfl
        · exact Or.inr ⟨part, List.mem_cons_of_mem _ hpart, hx⟩

/-- The tokens with a blank in front of each of them. -/
def spaced (tokens : List Token) : List Char := tokens.flatMap (' ' :: ·.render)

theorem spaced_eq {tokens : List Token} (hne : tokens ≠ []) :
    spaced tokens = ' ' :: renderTokens tokens := by
  cases tokens with
  | nil => exact absurd rfl hne
  | cons t rest =>
      rw [renderTokens, List.map_cons, intercalate_cons, List.flatMap_map]
      rfl

theorem spaced_append (front back : List Token) :
    spaced (front ++ back) = spaced front ++ spaced back :=
  List.flatMap_append

theorem Redirection.IsPlain.spaced_tokens {r : Redirection} (h : r.IsPlain) :
    spaced r.tokens = ' ' :: r.render.toList := by
  obtain ⟨hnonneg, -⟩ := h.fd
  have hnumber : toString r.fd = toString r.fd.toNat := by
    rw [← Int.toNat_of_nonneg hnonneg]
    rfl
  rw [Redirection.tokens, Redirection.render]
  split <;> simp [spaced, Token.render, hnumber]

theorem Stage.IsPlain.spaced_tokens {s : Stage} (h : s.IsPlain) :
    spaced s.tokens = ' ' :: s.render.toList := by
  obtain ⟨arguments, hargv⟩ := h.exists_argv
  have hredirections : spaced (s.redirections.flatMap Redirection.tokens)
      = s.redirections.flatMap (' ' :: ·.render.toList) := by
    rw [spaced, List.flatMap_assoc]
    exact List.flatMap_congr fun r hr => (h.redirections r hr).spaced_tokens
  rw [Stage.tokens, spaced_append, hredirections, Stage.render, hargv]
  simp [spaced, Token.render, intercalate_cons, List.flatMap_map]

theorem Stage.IsPlain.tokens_ne_nil {s : Stage} (h : s.IsPlain) : s.tokens ≠ [] := by
  obtain ⟨arguments, hargv⟩ := h.exists_argv
  simp [Stage.tokens, hargv]

namespace Pipeline

variable {p : Pipeline}

theorem IsPlain.tokens_ne_nil (h : p.IsPlain) :
    [Token.pipe].intercalate (p.stages.map Stage.tokens) ≠ [] := by
  have hstages := h.stages
  cases hp : p.stages with
  | nil => exact absurd hp h.nonempty
  | cons first rest =>
      rw [hp, List.forall_mem_cons] at hstages
      rw [List.map_cons, intercalate_cons]
      exact List.append_ne_nil_of_left_ne_nil hstages.1.tokens_ne_nil _

/-- The description of a plain pipeline is the rendering of its tokens. -/
theorem IsPlain.toList_describe (h : p.IsPlain) : p.describe.toList = renderTokens p.tokens := by
  have hstages := h.stages
  have hspaced : spaced ([Token.pipe].intercalate (p.stages.map Stage.tokens))
      = ' ' :: (" | ".intercalate (p.stages.map Stage.render)).toList := by
    cases hp : p.stages with
    | nil => exact absurd hp h.nonempty
    | cons first rest =>
        rw [hp, List.forall_mem_cons] at hstages
        have hrest : rest.flatMap (fun s => spaced (Token.pipe :: s.tokens))
            = rest.flatMap (fun s => " | ".toList ++ s.render.toList) :=
          List.flatMap_congr fun s hs => by
            show ' ' :: '|' :: spaced s.tokens = _
            rw [(hstages.2 s hs).spaced_tokens]
            rfl
        rw [String.toList_intercalate, List.map_map, List.map_cons, List.map_cons,
          intercalate_cons, intercalate_cons, spaced_append, hstages.1.spaced_tokens,
          List.flatMap_map, List.flatMap_map, spaced, List.flatMap_assoc]
        exact congrArg (' ' :: first.render.toList ++ ·) hrest
  have hne : p.tokens ≠ [] := List.append_ne_nil_of_left_ne_nil h.tokens_ne_nil _
  refine (List.cons_eq_cons.mp (?_ : ' ' :: _ = ' ' :: _)).2
  rw [← spaced_eq hne, Pipeline.tokens, spaced_append, hspaced, Pipeline.describe]
  cases p.foreground <;> simp [spaced, Token.render]

theorem IsPlain.isWellFormed (h : p.IsPlain) : ∀ t ∈ p.tokens, t.IsWellFormed := by
  rw [Pipeline.tokens, List.forall_mem_append]
  constructor
  · intro t ht
    rcases mem_intercalate ht with rfl | ⟨part, hpart, ht⟩
    · trivial
    · obtain ⟨s, hs, rfl⟩ := List.mem_map.mp hpart
      exact (h.stages s hs).isWellFormed t ht
  · cases p.foreground <;> simp [Token.IsWellFormed]

end Pipeline

/-! ## Parsing them -/

namespace Line.Segment

theorem read_words {s : Segment} (hs : s.argv ≠ []) (words : List String) (rest : List Token) :
    s.read (words.map (Token.word · false) ++ rest)
      = read { s with argv := s.argv ++ words } rest := by
  induction words generalizing s with
  | nil => simp
  | cons word words ih =>
      rw [List.map_cons, List.cons_append, read, addWord_of_not_spells fun h => (hs h).elim,
        ih (by simp), List.append_assoc, List.singleton_append]

theorem read_redirections {redirections : List Redirection}
    (h : ∀ r ∈ redirections, r.IsPlain) (s : Segment) :
    s.read (redirections.flatMap Redirection.tokens)
      = .ok { s with redirections := s.redirections ++ redirections } := by
  induction redirections generalizing s with
  | nil => rw [List.flatMap_nil, read, List.append_nil]
  | cons r rest ih =>
      rw [List.forall_mem_cons] at h
      have hfd : (if r.fd = r.direction.standard then none else some r.fd.toNat : Option Nat).elim
          r.direction.standard Int.ofNat = r.fd := by
        obtain ⟨hnonneg, -⟩ := h.1.fd
        split
        · rename_i heq
          rw [Option.elim_none, ← heq]
        · rw [Option.elim_some, Int.ofNat_eq_natCast, Int.toNat_of_nonneg hnonneg]
      rw [List.flatMap_cons, Redirection.tokens, List.cons_append, List.singleton_append, read,
        addRedirection_eq, hfd, ← h.1.lossy_path.2, ih h.2, List.append_assoc,
        List.singleton_append]

/-- The tokens of a stage are sorted back into it. -/
theorem read_tokens {stage : Stage} (h : stage.IsPlain) :
    Segment.read {} stage.tokens
      = .ok { argv := stage.argv, redirections := stage.redirections } := by
  obtain ⟨arguments, hargv⟩ := h.exists_argv
  rw [Stage.tokens, hargv, List.map_cons, List.cons_append, read,
    addWord_of_not_spells fun _ _ => h.unassigned, read_words (by simp),
    read_redirections h.redirections]
  rfl

theorem stage_of_isPlain {stage : Stage} (h : stage.IsPlain) :
    Segment.stage { argv := stage.argv, redirections := stage.redirections } = stage := by
  obtain ⟨arguments, hargv⟩ := h.exists_argv
  have hcommand : stage.argv.headD "" = stage.command := by rw [hargv]; rfl
  rw [Segment.stage, hcommand, List.foldl_nil, ← h.vars]

end Line.Segment

namespace Line

theorem not_mem_tokens (stage : Stage) :
    Token.pipe ∉ stage.tokens ∧ Token.background ∉ stage.tokens := by
  constructor <;> simp [Stage.tokens, Redirection.tokens]

theorem readAll_tokens {stages : List Stage} (h : ∀ s ∈ stages, s.IsPlain) :
    (stages.map Stage.tokens).mapM (Segment.read {})
      = .ok (stages.map fun s => { argv := s.argv, redirections := s.redirections }) := by
  induction stages with
  | nil => rfl
  | cons stage rest ih =>
      rw [List.forall_mem_cons] at h
      rw [List.map_cons, List.mapM_cons, Segment.read_tokens h.1, ih h.2]
      rfl

theorem ofSegments_of_isPlain {p : Pipeline} (h : p.IsPlain) :
    ofSegments (p.stages.map fun s => { argv := s.argv, redirections := s.redirections })
      p.foreground = .ok (.pipeline p) := by
  have hargv : ∀ s ∈ p.stages, s.argv ≠ [] := fun s hs => by
    obtain ⟨arguments, hargv⟩ := (h.stages s hs).exists_argv
    simp [hargv]
  have hany : ¬(p.stages.map fun s : Stage =>
      ({ argv := s.argv, redirections := s.redirections } : Segment)).any (·.argv.isEmpty) := by
    rw [List.any_map, List.any_eq_true]
    rintro ⟨s, hs, hempty⟩
    exact hargv s hs (List.isEmpty_iff.mp hempty)
  have hstages : (p.stages.map fun s : Stage =>
        ({ argv := s.argv, redirections := s.redirections } : Segment)).map Segment.stage
      = p.stages := by
    rw [List.map_map]
    exact (List.map_congr_left fun s hs => Segment.stage_of_isPlain (h.stages s hs)).trans
      (List.map_id' _)
  rw [ofSegments_of_not_lone, if_neg hany, hstages]
  rintro part heq - hempty
  obtain ⟨s, hs, rfl⟩ := List.mem_map.mp (heq ▸ List.mem_singleton_self part)
  exact absurd hempty (hargv s hs)

/-- What the tokens of a plain pipeline ask for is the pipeline. -/
theorem ofTokens_tokens {p : Pipeline} (h : p.IsPlain) :
    ofTokens p.tokens = .ok (.pipeline p) := by
  have hmark : .background ∉ [Token.pipe].intercalate (p.stages.map Stage.tokens) := by
    intro hmem
    rcases mem_intercalate hmem with hpipe | ⟨part, hpart, hmem⟩
    · cases hpipe
    · obtain ⟨s, -, rfl⟩ := List.mem_map.mp hpart
      exact (not_mem_tokens s).2 hmem
  have hsplit : ([Token.pipe].intercalate (p.stages.map Stage.tokens)).splitOn .pipe
      = p.stages.map Stage.tokens := by
    have hpipe : ∀ part ∈ p.stages.map Stage.tokens, Token.pipe ∉ part := by
      intro part hpart
      obtain ⟨s, -, rfl⟩ := List.mem_map.mp hpart
      exact (not_mem_tokens s).1
    exact List.splitOn_intercalate Token.pipe hpipe (mt List.map_eq_nil_iff.mp h.nonempty)
  have hparts := ofSegments_of_isPlain h
  have hne := h.tokens_ne_nil
  obtain ⟨stages, foreground⟩ := p
  cases foreground with
  | true =>
      have htokens : Pipeline.tokens ⟨stages, true⟩
          = [Token.pipe].intercalate (stages.map Stage.tokens) := List.append_nil _
      have hlast : ([Token.pipe].intercalate (stages.map Stage.tokens)).getLast?
          ≠ some .background := fun hlast => hmark (List.mem_of_getLast? hlast)
      rw [htokens, ofTokens_eq hne fun hmem => hmark (List.mem_of_mem_dropLast hmem), body,
        if_neg hlast, hsplit, readAll_tokens h.stages, inForeground, decide_eq_true hlast]
      exact hparts
  | false =>
      have htokens : Pipeline.tokens ⟨stages, false⟩
          = [Token.pipe].intercalate (stages.map Stage.tokens) ++ [.background] := rfl
      rw [htokens, ofTokens_eq (by simp) (by rwa [List.dropLast_concat]), body,
        if_pos (by simp), List.dropLast_concat, hsplit, readAll_tokens h.stages, inForeground,
        decide_eq_false (by simp)]
      exact hparts

/-- A line that renders well-formed tokens asks for what they ask for. -/
theorem parse_of_rendered {line : String} {tokens : List Token}
    (hline : line.toList = renderTokens tokens) (h : ∀ t ∈ tokens, t.IsWellFormed) :
    Line.parse line = ofTokens tokens :=
  parse_eq_ofTokens (hline ▸ lex_renderTokens h)

/-- **Descriptions can be read back.** The line that describes a plain
pipeline asks for that pipeline: its stages in their order, with the same
arguments, redirections and descriptors, and in the same place. -/
theorem parse_describe {p : Pipeline} (h : p.IsPlain) :
    Line.parse p.describe = .ok (.pipeline p) := by
  rw [parse_of_rendered h.toList_describe h.isWellFormed, ofTokens_tokens h]

/-- A digit is an argument in front of a redirection, and the directions are
crossed. -/
def crossed : Pipeline where
  stages :=
    [⟨"cat", ["cat", "2"], [⟨0, .output, .ofString "a"⟩, ⟨1, .input, .ofString "3"⟩], ∅⟩,
     ⟨"wc", ["wc"], [⟨1, .output, .ofString "b"⟩], ∅⟩]
  foreground := false

/-- Numbers are shown where they differ from those of the directions, and
only there. -/
theorem parse_describe_crossed :
    crossed.IsPlain ∧ crossed.describe = "cat 2 0> a 1< 3 | wc > b &"
      ∧ Line.parse "cat 2 0> a 1< 3 | wc > b &" = .ok (.pipeline crossed) := by
  have hunassigned : ∀ {word : String}, assignment? word = none → ∀ pair, ¬Spells word pair :=
    fun hnone pair hspells => by
      rw [assignment?_eq_some_iff.mpr hspells] at hnone
      cases hnone
  have hplain : crossed.IsPlain := by
    refine ⟨by simp [crossed], ?_⟩
    rw [crossed, List.forall_mem_cons, List.forall_mem_singleton]
    refine ⟨⟨rfl, by decide, hunassigned (by decide), ?_, rfl⟩,
      ⟨rfl, by decide, hunassigned (by decide), ?_, rfl⟩⟩
    · rw [List.forall_mem_cons, List.forall_mem_singleton]
      exact ⟨⟨by decide, "a", rfl, by decide⟩, ⟨by decide, "3", rfl, by decide⟩⟩
    · rw [List.forall_mem_singleton]
      exact ⟨by decide, "b", rfl, by decide⟩
  have hdescribe : crossed.describe = "cat 2 0> a 1< 3 | wc > b &" := by decide +kernel
  exact ⟨hplain, hdescribe, hdescribe ▸ parse_describe hplain⟩

end Line

end JobShell
