import JobShell.Proofs.Description
import JobShell.Proofs.Refusals
import JobShell.Proofs.Spelling
import JobShell.Proofs.Truncation
import JobShell.Proofs.Zeros

/-!
# What a parsed line promises

Those who run a line do not check again what the parser has checked. Words
are read by character and the roles of words by token, so what they rely on
comes from both: which characters an unquoted word can have and which digit
an operator (`isWellFormed_of_lex`), and where segments and assignments begin
and end (`Describes`).

`Line.sound_of_parse` collects it. A stage has a command, its redirections
are of the descriptors `0` to `9`, and its bindings are of valid names to
bare text. Two failures of a build are for other callers, then: that of an
empty pipeline, and that of a redirection out of range.
-/

namespace JobShell

open Machine (NodeId)

/-! ## Tokens behind a line -/

namespace Line

/-- A valid name, and a value that can stand on a line as it is. -/
def IsBinding (pair : String × String) : Prop :=
  isVariableName pair.1 = true ∧ ∀ c ∈ pair.2.toList, IsBareChar c

/-- The tokens of a line that asks for something: the background mark is last
if there is one, and every redirection has its file name. -/
theorem exists_tokens_of_parse {line : String} {parsed : Line}
    (h : Line.parse line = .ok parsed) (hne : parsed ≠ .empty) :
    ∃ tokens, lex line.toList = .ok tokens ∧ tokens ≠ [] ∧ .background ∉ tokens.dropLast
      ∧ ∀ segment ∈ (body tokens).splitOn .pipe, ¬Dangling segment := by
  cases hlex : lex line.toList with
  | error fault =>
      rw [Line.parse, hlex] at h
      cases h
  | ok tokens =>
      rw [parse_eq_ofTokens hlex] at h
      by_cases hempty : tokens = []
      · rw [ofTokens, if_pos hempty] at h
        exact (hne (Except.ok.inj h).symm).elim
      by_cases hmark : .background ∈ tokens.dropLast
      · rw [ofTokens_of_misplaced hmark] at h
        cases h
      refine ⟨tokens, rfl, hempty, hmark, fun segment hs hdangling => ?_⟩
      rw [ofTokens_eq hempty hmark,
        readAll_of_dangling (segments_no_separators hmark) ⟨segment, hs, hdangling⟩] at h
      cases h

/-- A segment that describes nothing has no tokens. -/
theorem Describes.eq_nil {segment : List Token} {stage : Stage} (h : Describes segment [] stage)
    (hpipe : .pipe ∉ segment) (hmark : .background ∉ segment) (hdangling : ¬Dangling segment)
    (hargv : stage.argv = []) (hredirections : stage.redirections = []) : segment = [] := by
  have hwords : freeWords segment = [] := by
    obtain ⟨front, back, hsplit, hfront, hback, -⟩ := h.words
    obtain rfl := List.forall₂_nil_right_iff.mp hfront
    rw [hargv] at hback
    obtain rfl := List.map_eq_nil_iff.mp hback.symm
    exact hsplit
  have hnone : redirectionsOf segment = [] := h.redirections.symm.trans hredirections
  cases segment with
  | nil => rfl
  | cons token rest =>
      cases token with
      | word text quoted => simp at hwords
      | pipe => simp at hpipe
      | background => simp at hmark
      | redirect fd direction =>
          cases rest with
          | nil => exact (hdangling ⟨[], fd, direction, [], rfl, by simp⟩).elim
          | cons next rest =>
              cases next with
              | word path quoted => simp at hnone
              | pipe | background | redirect =>
                  exact (hdangling ⟨[], fd, direction, _, rfl, by simp⟩).elim

/-! ## Stages -/

theorem mem_of_mem_redirectionsOf {segment : List Token} {r : Redirection}
    (h : r ∈ redirectionsOf segment) : ∃ fd direction, .redirect fd direction ∈ segment
      ∧ r.fd = fd.elim direction.standard Int.ofNat := by
  obtain ⟨⟨token, next⟩, hmem, hr⟩ := List.mem_filterMap.mp h
  have htoken := (List.of_mem_zip hmem).1
  split at hr
  · rename_i fd direction path quoted hpair
    obtain ⟨rfl, rfl⟩ := Prod.mk.inj hpair
    obtain rfl := Option.some.inj hr
    exact ⟨fd, direction, htoken, rfl⟩
  · cases hr

/-- The descriptor of an operator that is read. -/
theorem Token.IsWellFormed.fd_range {fd : Option Nat} {direction : Direction}
    (h : (Token.redirect fd direction).IsWellFormed) :
    0 ≤ fd.elim direction.standard Int.ofNat ∧ fd.elim direction.standard Int.ofNat ≤ 9 := by
  cases fd with
  | none => cases direction <;> decide
  | some n =>
      have hn : n ≤ 9 := h
      exact ⟨Int.natCast_nonneg n, Int.ofNat_le.mpr hn⟩

/-- The value of a bare word that is an assignment is bare. -/
theorem isBinding_of_spells {word : String} {pair : String × String} (h : Spells word pair)
    (hbare : IsBare word.toList) : IsBinding pair := by
  obtain ⟨hname, rfl⟩ := h
  refine ⟨hname, fun c hc => hbare.2 c ?_⟩
  rw [String.toList_append]
  exact List.mem_append_right _ hc

/-- What well-formed tokens describe. -/
theorem Describes.sound {segment : List Token} {pairs : List (String × String)} {stage : Stage}
    (h : Describes segment pairs stage) (hsegment : ∀ token ∈ segment, token.IsWellFormed) :
    (∀ r ∈ stage.redirections, 0 ≤ r.fd ∧ r.fd ≤ 9) ∧ ∀ pair ∈ pairs, IsBinding pair := by
  constructor
  · intro r hr
    rw [h.redirections] at hr
    obtain ⟨fd, direction, htoken, hfd⟩ := mem_of_mem_redirectionsOf hr
    rw [hfd]
    exact (hsegment _ htoken).fd_range
  · intro pair hpair
    obtain ⟨front, back, hwords, hfront, -, -⟩ := h.words
    obtain ⟨⟨word, quoted⟩, hmem, hquoted, hspells⟩ := exists_of_forall₂ hfront pair hpair
    obtain rfl : quoted = false := hquoted
    have htoken : .word word false ∈ segment :=
      mem_of_mem_freeWords (hwords ▸ List.mem_append_left back hmem)
    exact isBinding_of_spells hspells (hsegment _ htoken)

end Line

/-- What a stage has to be like for those who prepare and start it. -/
structure Stage.IsFit (s : Stage) : Prop where
  argv : s.argv ≠ []
  command : s.argv.head? = some s.command
  redirections : ∀ r ∈ s.redirections, 0 ≤ r.fd ∧ r.fd ≤ 9
  vars : ∀ name value, s.vars[name]? = some value → Line.IsBinding (name, value)

namespace Line

/-- Every part of a line that is read comes from well-formed tokens. -/
theorem sound_of_parts {line : String} {tokens : List Token} {parts : List Segment}
    (hlex : lex line.toList = .ok tokens)
    (hparts : List.Forall₂ (fun segment s => Describes segment s.assignments s.stage)
      ((body tokens).splitOn .pipe) parts) {s : Segment} (hs : s ∈ parts) :
    (∀ r ∈ s.redirections, 0 ≤ r.fd ∧ r.fd ≤ 9) ∧ (∀ pair ∈ s.assignments, IsBinding pair)
      ∧ ∀ name, s.stage.vars[name]? = s.assignments.reverse.lookup name := by
  obtain ⟨segment, hsegment, hdescribes⟩ := exists_of_forall₂ hparts s hs
  obtain ⟨hredirections, hpairs⟩ := hdescribes.sound fun token htoken =>
    isWellFormed_of_lex hlex token (body_subset tokens (mem_of_mem_splitOn hsegment htoken).1)
  exact ⟨hredirections, hpairs, hdescribes.vars⟩

theorem isFit_of_parse {line : String} {p : Pipeline} (h : Line.parse line = .ok (.pipeline p)) :
    p.stages ≠ [] ∧ ∀ s ∈ p.stages, s.IsFit := by
  refine ⟨stages_ne_nil_of_parse h, ?_⟩
  have hargv := argv_of_parse h
  rcases exists_parts_of_parse h with h | ⟨tokens, parts, hlex, hdescribes, hparts⟩
  · cases h
  obtain ⟨hstages, -⟩ := ofSegments_eq_pipeline hparts
  intro stage hstage
  have hwords := hargv stage hstage
  rw [hstages] at hstage
  obtain ⟨s, hs, rfl⟩ := List.mem_map.mp hstage
  obtain ⟨hredirections, hpairs, hvars⟩ := sound_of_parts hlex hdescribes hs
  refine ⟨by rw [hwords]; simp, by rw [hwords]; rfl, hredirections, ?_⟩
  intro name value hvalue
  rw [hvars] at hvalue
  obtain ⟨front, back, hsplit, -⟩ := List.lookup_eq_some_iff.mp hvalue
  have hmem : (name, value) ∈ s.assignments.reverse := by
    rw [hsplit]
    exact List.mem_append_right _ (List.mem_cons_self ..)
  exact hpairs _ (List.mem_reverse.mp hmem)

/-- A line of assignments is one segment that ends without a background mark
and has nothing but assignments. -/
theorem ofSegments_eq_lone {parts : List Segment} {foreground : Bool}
    {pairs : List (String × String)} (h : ofSegments parts foreground = .ok (.assignments pairs)) :
    parts = [⟨pairs, [], []⟩] ∧ foreground = true := by
  unfold ofSegments at h
  split at h
  · obtain rfl := Line.assignments.inj (Except.ok.inj h)
    exact ⟨rfl, rfl⟩
  · split at h <;> cases h

theorem isBinding_of_parse {line : String} {pairs : List (String × String)}
    (h : Line.parse line = .ok (.assignments pairs)) :
    pairs ≠ [] ∧ ∀ pair ∈ pairs, IsBinding pair := by
  obtain ⟨tokens, hlex, hne, hmark, hdangling⟩ := exists_tokens_of_parse h nofun
  rcases exists_parts_of_parse h with h | ⟨tokens', parts, hlex', hdescribes, hparts⟩
  · cases h
  obtain rfl := Except.ok.inj (hlex.symm.trans hlex')
  obtain ⟨rfl, hforeground⟩ := ofSegments_eq_lone hparts
  refine ⟨?_, (sound_of_parts hlex hdescribes (List.mem_singleton_self _)).2.1⟩
  rintro rfl
  obtain ⟨segment, others, hsegment, hothers, hsplit⟩ := List.forall₂_cons_right_iff.mp hdescribes
  obtain rfl := List.forall₂_nil_right_iff.mp hothers
  have hmem : segment ∈ (body tokens).splitOn .pipe := hsplit ▸ List.mem_singleton_self segment
  obtain ⟨hpipe, hback⟩ := segments_no_separators hmark segment hmem
  obtain rfl := hsegment.eq_nil hpipe hback (hdangling segment hmem) rfl rfl
  -- Nothing stands in front of the mark, and there is none: the line is empty.
  have hjoin : [Token.pipe].intercalate ((body tokens).splitOn .pipe) = body tokens :=
    List.intercalate_splitOn _
  have hbody : body tokens = [] := by
    rw [← hjoin, hsplit]
    rfl
  have hlast : tokens.getLast? ≠ some .background := by simpa [inForeground] using hforeground
  rw [body, if_neg hlast] at hbody
  exact hne hbody

end Line

/-! ## Builds -/

namespace FileView

theorem cause_of_absolute {v : FileView} {path : Bytes} {failure : Failure}
    (hfailed : v.absolute path = .error failure) : ∃ cause, failure = .io cause := by
  unfold absolute at hfailed
  split at hfailed
  · cases hfailed
  split at hfailed
  · cases hfailed
  · rename_i cause _
    exact ⟨cause, (Except.error.inj hfailed).symm⟩

theorem cause_of_resolve {v : FileView} {searchPath command : Bytes} {failure : Failure}
    (hfailed : v.resolve searchPath command = .error failure) :
    (∃ path, failure = .commandNotFound path) ∨ ∃ cause, failure = .io cause := by
  unfold resolve at hfailed
  split at hfailed
  · exact Or.inl ⟨_, (Except.error.inj hfailed).symm⟩
  split at hfailed
  · cases hpath : v.absolute command with
    | error other =>
        rw [hpath] at hfailed
        obtain rfl : other = failure := Except.error.inj hfailed
        exact Or.inr (cause_of_absolute hpath)
    | ok path =>
        rw [hpath] at hfailed
        dsimp only [bind, Except.bind] at hfailed
        split at hfailed
        · cases hfailed
        · exact Or.inl ⟨_, (Except.error.inj hfailed).symm⟩
  · dsimp only at hfailed
    split at hfailed
    · exact Or.inr (cause_of_absolute hfailed)
    · exact Or.inl ⟨_, (Except.error.inj hfailed).symm⟩

end FileView

namespace Host

variable {h : Host} {directory : NodeId}

theorem error_of_prepareStage {searchPath : Bytes} {index : Nat} {stage : Stage}
    {failure : Failure}
    (hfailed : h.prepareStage directory searchPath index stage = .error failure) :
    (h.fileView directory).resolve searchPath (.ofString stage.command) = .error failure := by
  unfold prepareStage at hfailed
  cases hpath : (h.fileView directory).resolve searchPath (.ofString stage.command) with
  | error other =>
      rw [hpath] at hfailed
      exact congrArg _ (Except.error.inj hfailed)
  | ok path =>
      rw [hpath] at hfailed
      cases hfailed

/-- A redirection in range does not fail with the complaint about one that is
not. -/
theorem ne_unredirectable_of_openRedirection {r : Redirection} {failure : Failure}
    (hr : 0 ≤ r.fd ∧ r.fd ≤ 9) (hfailed : h.openRedirection directory r = .error failure)
    (path : Bytes) (fd : Int) : failure ≠ .redirection path (.unredirectable fd) := by
  obtain ⟨cause, rfl, hinside, -⟩ := cause_of_openRedirection hfailed
  intro heq
  obtain ⟨-, rfl⟩ := Failure.redirection.inj heq
  rcases cause_of_openFile (hinside hr) with hnul | ⟨number, hnumber⟩
  · exact OsError.nulInPath_ne_unredirectable fd hnul.symm
  · cases hnumber

theorem Applied.ne_unredirectable {redirections : List Redirection} {opened : List OpenedFile}
    {failure : Failure} {h' : Host}
    (happlied : Applied directory h redirections opened (some failure) h')
    (hfds : ∀ r ∈ redirections, 0 ≤ r.fd ∧ r.fd ≤ 9) (path : Bytes) (fd : Int) :
    failure ≠ .redirection path (.unredirectable fd) := by
  cases happlied with
  | @upTo _ _ r back _ _ hfront hfailed =>
      have hr : r ∈ redirections := by
        rw [← hfront]
        exact List.mem_append_right _ (List.mem_cons_self ..)
      exact ne_unredirectable_of_openRedirection (hfds r hr) hfailed path fd

theorem ne_unredirectable_of_buildTable {redirections : List Redirection}
    (hfds : ∀ r ∈ redirections, 0 ≤ r.fd ∧ r.fd ≤ 9) (h : Host) (directory : NodeId)
    (stdin stdout : Descriptor) (path : Bytes) (fd : Int) :
    (h.buildTable directory stdin stdout redirections).1
      ≠ .error (.redirection path (.unredirectable fd)) := by
  cases hbuild : h.buildTable directory stdin stdout redirections with
  | mk result h' =>
  obtain ⟨opened, failed, h₁, happlied, hresult⟩ := applied_of_buildTable hbuild
  cases failed with
  | none =>
      rw [hresult.1]
      nofun
  | some failure =>
      rw [hresult.1]
      intro heq
      exact happlied.ne_unredirectable hfds path fd (Except.error.inj heq)

/-- Finding commands opens no file. -/
theorem cause_of_prepareStages {searchPath : Bytes} {first : Nat} {stages : List Stage}
    {failure : Failure} {h' : Host}
    (hfailed : h.prepareStages directory searchPath first stages = (.error failure, h')) :
    (∃ path, failure = .commandNotFound path) ∨ ∃ cause, failure = .io cause := by
  induction stages generalizing h first with
  | nil => cases hfailed
  | cons stage rest ih =>
      rw [prepareStages] at hfailed
      split at hfailed
      · rename_i failure' hprepare
        obtain ⟨hfailure, -⟩ := Prod.mk.inj hfailed
        obtain rfl := Except.error.inj hfailure
        exact FileView.cause_of_resolve (error_of_prepareStage hprepare)
      · split at hfailed
        · cases hfailed
        · rename_i heq
          obtain ⟨hfailure, rfl⟩ := Prod.mk.inj hfailed
          obtain rfl := Except.error.inj hfailure
          exact ih heq

/-- What the build of a job does not fail with. -/
theorem ne_of_buildJob {p : Pipeline} (hne : p.stages ≠ [])
    (hfds : ∀ s ∈ p.stages, ∀ r ∈ s.redirections, 0 ≤ r.fd ∧ r.fd ≤ 9) (h : Host)
    (directory : NodeId) (searchPath : Bytes) :
    (h.buildJob directory searchPath p).1 ≠ .error .emptyPipeline
      ∧ ∀ path fd, (h.buildJob directory searchPath p).1
          ≠ .error (.redirection path (.unredirectable fd)) := by
  cases hprepare : h.prepareStages directory searchPath 0 p.stages with
  | mk result h₁ =>
  cases result with
  | error failure =>
      have hbuild : h.buildJob directory searchPath p = (.error failure, h₁) := by
        rw [buildJob, if_neg (by rwa [List.isEmpty_iff]), hprepare]
      rw [hbuild]
      rcases cause_of_prepareStages hprepare with ⟨path, rfl⟩ | ⟨cause, rfl⟩
      · simp
      · simp
  | ok prepared =>
      obtain ⟨hending, -⟩ := ending_of_prepareStages hne hprepare
      generalize (h.buildJob directory searchPath p).1 = built,
        (h.buildJob directory searchPath p).2 = after at hending
      cases hending with
      | unconnected => simp
      | built => simp
      | @failed ends opened r back cause h₂ h₃ _ _ _ hfront hinside =>
          refine ⟨by simp, fun path fd heq => ?_⟩
          obtain ⟨-, rfl⟩ := Failure.redirection.inj (Except.error.inj heq)
          have hmem : r ∈ p.stages.flatMap Stage.redirections := by
            rw [hfront]
            exact List.mem_append_right _ (List.mem_cons_self ..)
          obtain ⟨s, hs, hr⟩ := List.mem_flatMap.mp hmem
          rcases cause_of_openFile (hinside (hfds s hs r hr)) with hnul | ⟨number, hnumber⟩
          · exact OsError.nulInPath_ne_unredirectable fd hnul.symm
          · cases hnumber

end Host

/-- **Lines are fit for those who run them.** A pipeline has stages, and each
of them a command, which is its first argument, redirections of the
descriptors `0` to `9`, and bindings of valid names to bare text; a line of
assignments has some, and all are bindings of this kind. So neither building
a job of the pipeline nor the table of one of its stages fails for want of
stages or for the number of a descriptor, wherever it is done. -/
theorem Line.sound_of_parse {line : String} {parsed : Line}
    (h : Line.parse line = .ok parsed) :
    (∀ pairs, parsed = .assignments pairs → pairs ≠ [] ∧ ∀ pair ∈ pairs, IsBinding pair)
      ∧ ∀ p, parsed = .pipeline p →
        p.stages ≠ [] ∧ (∀ s ∈ p.stages, s.IsFit)
          ∧ ∀ (host : Host) (directory : NodeId),
            (∀ searchPath,
              (host.buildJob directory searchPath p).1 ≠ .error .emptyPipeline
                ∧ ∀ path fd, (host.buildJob directory searchPath p).1
                    ≠ .error (.redirection path (.unredirectable fd)))
            ∧ ∀ s ∈ p.stages, ∀ stdin stdout path fd,
              (host.buildTable directory stdin stdout s.redirections).1
                ≠ .error (.redirection path (.unredirectable fd)) := by
  constructor
  · rintro pairs rfl
    exact isBinding_of_parse h
  · rintro p rfl
    obtain ⟨hne, hfit⟩ := isFit_of_parse h
    refine ⟨hne, hfit, fun host directory => ⟨fun searchPath => ?_, fun s hs stdin stdout => ?_⟩⟩
    · exact Host.ne_of_buildJob hne (fun s hs => (hfit s hs).redirections) host directory
        searchPath
    · exact Host.ne_unredirectable_of_buildTable (hfit s hs).redirections host directory stdin
        stdout

/-- Bindings, a redirection by number, and a quoted word with characters that
no value can have. -/
theorem Line.sound_of_bound_and_numbered :
    ∃ p, Line.parse "A=1 B=x=y 2> e cat \"a | b\" | wc &" = .ok (.pipeline p)
      ∧ p.stages ≠ [] ∧ ∀ s ∈ p.stages, s.IsFit := by
  have hparse : Line.parse "A=1 B=x=y 2> e cat \"a | b\" | wc &"
      = Line.ofTokens [.word "A=1" false, .word "B=x=y" false, .redirect (some 2) .output,
          .word "e" false, .word "cat" false, .word "a | b" true, .pipe, .word "wc" false,
          .background] :=
    Line.parse_of_rendered (by rfl) (by decide)
  obtain ⟨hne, hfit, -⟩ := (Line.sound_of_parse hparse).2 _ rfl
  exact ⟨_, hparse, hne, hfit⟩

end JobShell
