import JobShell.Proofs.Calls

/-!
# Lines without the character zero

The environment of a process can not hold the byte zero, so a session that
publishes a value with the character zero does not survive it. A line makes
no such character: every character of a word that is read stands on the line
(`subset_of_lex`), and so does every character of a value that the line asks
for (`Line.Asks.not_mem_value`).

What a line without it can still publish is a value that was stored before
and that it exports by name. With such values out of the way
(`Variables.IsSound`) nothing is refused (`runLine_isSound`).
-/

namespace JobShell

namespace Line

/-! ## Characters of tokens -/

theorem singleQuoted_subset {cs text rest : List Char}
    (h : singleQuoted cs = some (text, rest)) : text ⊆ cs ∧ rest ⊆ cs := by
  fun_induction singleQuoted cs generalizing text with
  | case1 => cases h
  | case2 rest' =>
      obtain ⟨rfl, rfl⟩ := Prod.mk.inj (Option.some.inj h)
      exact ⟨List.nil_subset _, List.subset_cons_self ..⟩
  | case3 c rest' hc ih =>
      obtain ⟨⟨more, left⟩, hmore, heq⟩ := Option.map_eq_some_iff.mp h
      obtain ⟨rfl, rfl⟩ := Prod.mk.inj heq
      obtain ⟨htext, hrest⟩ := ih hmore
      exact ⟨List.cons_subset_cons c htext, List.subset_cons_of_subset c hrest⟩

theorem doubleQuotedText_subset {cs text rest : List Char}
    (h : doubleQuotedText cs = some (text, rest)) : text ⊆ cs ∧ rest ⊆ cs := by
  fun_induction doubleQuotedText cs generalizing text with
  | case1 | case3 => cases h
  | case2 rest' =>
      obtain ⟨rfl, rfl⟩ := Prod.mk.inj (Option.some.inj h)
      exact ⟨List.nil_subset _, List.subset_cons_self ..⟩
  | case4 e more hquote ih =>
      obtain ⟨⟨text', left⟩, hmore, heq⟩ := Option.map_eq_some_iff.mp h
      obtain ⟨rfl, rfl⟩ := Prod.mk.inj heq
      obtain ⟨htext, hrest⟩ := ih hmore
      have hboth : '\\' :: e :: text' ⊆ '\\' :: e :: more :=
        List.cons_subset_cons _ (List.cons_subset_cons e htext)
      refine ⟨?_, List.subset_cons_of_subset _ (List.subset_cons_of_subset _ hrest)⟩
      split
      · exact List.subset_of_cons_subset hboth
      · exact hboth
  | case5 c rest' hc hescape ih =>
      obtain ⟨⟨more, left⟩, hmore, heq⟩ := Option.map_eq_some_iff.mp h
      obtain ⟨rfl, rfl⟩ := Prod.mk.inj heq
      obtain ⟨htext, hrest⟩ := ih hmore
      exact ⟨List.cons_subset_cons c htext, List.subset_cons_of_subset c hrest⟩

/-- The characters of a token's text. -/
def Token.characters : Token → List Char
  | .word text _ => text.toList
  | .pipe | .background | .redirect _ _ => []

theorem Draft.characters_word {d : Draft} {line : List Char} (h : d.text ⊆ line) :
    d.word.characters ⊆ line := by
  rw [word, Token.characters, String.toList_ofList]
  exact fun _ hc => h (List.mem_reverse.mp hc)

theorem Draft.append_subset {d : Draft} {more line : List Char} (h : d.text ⊆ line)
    (hmore : more ⊆ line) : (d.append more).text ⊆ line :=
  List.append_subset.mpr ⟨fun _ hc => hmore (List.mem_reverse.mp hc), h⟩

/-- A word is made of the draft and of characters that are read. -/
theorem readWord_subset {draft : Draft} {cs rest line : List Char} {token : Token}
    (h : readWord draft cs = .ok (token, rest)) (hdraft : draft.text ⊆ line) (hcs : cs ⊆ line) :
    token.characters ⊆ line ∧ rest ⊆ line := by
  fun_induction readWord draft cs with
  | case1 draft =>
      obtain ⟨rfl, rfl⟩ := Prod.mk.inj (Except.ok.inj h)
      exact ⟨Draft.characters_word hdraft, List.nil_subset _⟩
  | case2 | case4 => cases h
  | case3 draft more text left hquoted ih =>
      obtain ⟨htext, hleft⟩ := singleQuoted_subset hquoted
      have hmore := List.subset_of_cons_subset hcs
      exact ih h (Draft.append_subset hdraft (List.Subset.trans htext hmore))
        (List.Subset.trans hleft hmore)
  | case5 draft more text left hquoted hc ih =>
      obtain ⟨htext, hleft⟩ := doubleQuotedText_subset hquoted
      have hmore := List.subset_of_cons_subset hcs
      exact ih h (Draft.append_subset hdraft (List.Subset.trans htext hmore))
        (List.Subset.trans hleft hmore)
  | case6 draft hc hc' =>
      obtain ⟨rfl, rfl⟩ := Prod.mk.inj (Except.ok.inj h)
      exact ⟨Draft.characters_word hdraft, List.nil_subset _⟩
  | case7 draft hc hc' e more ih =>
      have hmore := List.subset_of_cons_subset hcs
      refine ih h (List.cons_subset.mpr ⟨hmore (List.mem_cons_self ..), hdraft⟩)
        (List.subset_of_cons_subset hmore)
  | case8 draft c rest' _ _ _ _ direction digit _ _ =>
      obtain ⟨rfl, rfl⟩ := Prod.mk.inj (Except.ok.inj h)
      exact ⟨List.nil_subset _, List.subset_of_cons_subset hcs⟩
  | case9 draft c rest' =>
      obtain ⟨rfl, rfl⟩ := Prod.mk.inj (Except.ok.inj h)
      exact ⟨Draft.characters_word hdraft, hcs⟩
  | case10 draft c rest' _ _ _ _ ih =>
      exact ih h (List.cons_subset.mpr ⟨hcs (List.mem_cons_self ..), hdraft⟩)
        (List.subset_of_cons_subset hcs)

theorem readToken_subset {c : Char} {cs rest : List Char} {token : Token}
    (h : readToken c cs = .ok (token, rest)) : token.characters ⊆ c :: cs ∧ rest ⊆ c :: cs := by
  have hoperator : ∀ {operator : Token}, operator.characters = [] →
      Except.ok (operator, cs) = (Except.ok (token, rest) : Except SyntaxFault _) →
      token.characters ⊆ c :: cs ∧ rest ⊆ c :: cs := fun hnone heq => by
    obtain ⟨rfl, rfl⟩ := Prod.mk.inj (Except.ok.inj heq)
    rw [hnone]
    exact ⟨List.nil_subset _, List.subset_cons_self ..⟩
  unfold readToken at h
  split at h
  · exact hoperator rfl h
  split at h
  · exact hoperator rfl h
  split at h
  · exact hoperator rfl h
  · exact readWord_subset h (List.nil_subset _) (List.Subset.refl _)

/-- Words have no characters that are not on the line. -/
theorem subset_of_lex {cs : List Char} {tokens : List Token} (h : lex cs = .ok tokens) :
    ∀ token ∈ tokens, token.characters ⊆ cs := by
  fun_induction lex cs generalizing tokens with
  | case1 =>
      obtain rfl := Except.ok.inj h
      simp
  | case2 c rest hblank ih =>
      exact fun token hmem => List.subset_cons_of_subset c (ih h token hmem)
  | case3 => cases h
  | case4 c rest hblank token left hread ih =>
      obtain ⟨more, hmore, rfl⟩ := Except.map_eq_ok_iff.mp h
      obtain ⟨htoken, hleft⟩ := readToken_subset hread
      rw [List.forall_mem_cons]
      exact ⟨htoken, fun other hmem => List.Subset.trans (ih hmore other hmem) hleft⟩

/-! ## Characters of what is read -/

theorem mem_of_mem_freeWords {segment : List Token} {text : String} {quoted : Bool}
    (h : (text, quoted) ∈ freeWords segment) : .word text quoted ∈ segment := by
  obtain ⟨⟨before, token⟩, hmem, hword⟩ := List.mem_filterMap.mp h
  have htoken := (List.of_mem_zip hmem).2
  split at hword
  · cases hword
  · rename_i hpair
    obtain ⟨-, rfl⟩ := Prod.mk.inj hpair
    obtain ⟨rfl, rfl⟩ := Prod.mk.inj (Option.some.inj hword)
    exact htoken
  · cases hword

theorem body_subset (tokens : List Token) : body tokens ⊆ tokens := by
  unfold body
  split
  · exact List.dropLast_subset tokens
  · exact List.Subset.refl tokens

/-- Arguments and the values of assignments are made of the words of their
segment. -/
theorem Describes.subset {segment : List Token} {pairs : List (String × String)} {stage : Stage}
    {line : List Char} (h : Describes segment pairs stage)
    (hsegment : ∀ token ∈ segment, token.characters ⊆ line) :
    (∀ word ∈ stage.argv, word.toList ⊆ line) ∧ ∀ pair ∈ pairs, pair.2.toList ⊆ line := by
  obtain ⟨front, back, hwords, hfront, hargv, -⟩ := h.words
  have hword : ∀ word ∈ front ++ back, word.1.toList ⊆ line := fun word hmem =>
    hsegment _ (mem_of_mem_freeWords (hwords ▸ hmem))
  rw [List.forall_mem_append] at hword
  constructor
  · rw [hargv, List.forall_mem_map]
    exact hword.2
  · intro pair hpair
    obtain ⟨word, hmem, -, -, hspells⟩ := exists_of_forall₂ hfront pair hpair
    refine List.Subset.trans ?_ (hword.1 word hmem)
    rw [hspells, String.toList_append]
    exact List.subset_append_right ..

/-- What every part of a line is made of. -/
theorem subset_of_parts {line : String} {tokens : List Token} {parts : List Segment}
    (hlex : lex line.toList = .ok tokens)
    (hparts : List.Forall₂ (fun segment s => Describes segment s.assignments s.stage)
      ((body tokens).splitOn .pipe) parts) {s : Segment} (hs : s ∈ parts) :
    (∀ word ∈ s.argv, word.toList ⊆ line.toList)
      ∧ ∀ pair ∈ s.assignments, pair.2.toList ⊆ line.toList := by
  obtain ⟨segment, hsegment, hdescribes⟩ := exists_of_forall₂ hparts s hs
  exact hdescribes.subset fun token htoken =>
    subset_of_lex hlex token (body_subset tokens (mem_of_mem_splitOn hsegment htoken).1)

theorem subset_of_argv {line : String} {p : Pipeline} (h : Line.parse line = .ok (.pipeline p)) :
    ∀ stage ∈ p.stages, ∀ word ∈ stage.argv, word.toList ⊆ line.toList := by
  rcases exists_parts_of_parse h with h | ⟨tokens, parts, hlex, hdescribes, hparts⟩
  · cases h
  · rw [(ofSegments_eq_pipeline hparts).1, List.forall_mem_map]
    exact fun s hs => (subset_of_parts hlex hdescribes hs).1

theorem subset_of_assignments {line : String} {pairs : List (String × String)}
    (h : Line.parse line = .ok (.assignments pairs)) :
    ∀ pair ∈ pairs, pair.2.toList ⊆ line.toList := by
  rcases exists_parts_of_parse h with h | ⟨tokens, parts, hlex, hdescribes, hparts⟩
  · cases h
  · obtain ⟨s, rfl, rfl⟩ := ofSegments_eq_assignments hparts
    exact (subset_of_parts hlex hdescribes (List.mem_singleton_self s)).2

theorem Commands.subset {line : String} {b : Builtin} {arguments : List String}
    (h : Commands line b arguments) : ∀ word ∈ arguments, word.toList ⊆ line.toList := by
  obtain ⟨p, first, rest, hparse, hp, hargv⟩ := h
  have hwords := subset_of_argv hparse first (hp ▸ List.mem_cons_self ..)
  rw [hargv, List.forall_mem_cons] at hwords
  exact hwords.2

end Line

/-! ## Values that a line asks for -/

theorem Session.subset_of_exportArgument {argument name value : String}
    (h : exportArgument argument = .ok (name, some value)) :
    value.toList ⊆ argument.toList := by
  unfold exportArgument at h
  dsimp only at h
  split at h <;> split at h
  case h_1.isTrue hsplit _ =>
    obtain ⟨-, heq⟩ := Prod.mk.inj (Except.ok.inj h)
    obtain rfl := Option.some.inj heq
    obtain ⟨hword, -⟩ := splitAtEquals_eq_some_iff.mp hsplit
    rw [hword, String.toList_ofList]
    exact List.subset_append_of_subset_right _ (List.subset_cons_self ..)
  all_goals cases h

/-- The value that a change gives to its variable, if it does. -/
def Update.value? : Update → Option String
  | .assign _ value => some value
  | .export_ _ value => value
  | .unset _ => none

/-- A line without the character zero asks for no value with it. -/
theorem Line.Asks.not_mem_value {line : String} {u : Update} (h : Asks line u)
    (hline : '\x00' ∉ line.toList) : ∀ value ∈ u.value?, '\x00' ∉ value.toList := by
  intro value hvalue hmem
  cases h with
  | assign hparse hpair =>
      obtain rfl := Option.some.inj hvalue
      exact hline (subset_of_assignments hparse _ hpair hmem)
  | command hcommand hasks =>
      cases hasks with
      | cd hpath =>
          obtain rfl := Option.some.inj hvalue
          exact hpath hmem
      | export_ hitems hitem =>
          obtain ⟨argument, hargument, hexport⟩ := Except.exists_of_mem_mapM hitems _ hitem
          obtain rfl := Option.mem_def.mp hvalue
          exact hline (hcommand.subset argument hargument
            (Session.subset_of_exportArgument hexport hmem))
      | unset _ _ => cases hvalue

/-- What a call puts into the environment is the value that the change gives,
or one that was stored before. -/
theorem Update.mem_value_call? {vs : Variables} {u : Update} {c : EnvironmentCall}
    {value : String} (h : u.call? vs = some c) (hvalue : value ∈ c.value?) :
    value ∈ u.value? ∨ ∃ name, u = .export_ name none ∧ vs.get? name = some value := by
  cases u with
  | assign name given =>
      rw [call?] at h
      split at h
      · obtain rfl := Option.some.inj h
        exact Or.inl hvalue
      · cases h
  | export_ name given =>
      obtain ⟨stored, hstored, rfl⟩ := Option.map_eq_some_iff.mp h
      obtain rfl := Option.some.inj hvalue
      cases given with
      | none => exact Or.inr ⟨name, rfl, hstored⟩
      | some given => exact Or.inl hstored
  | unset name =>
      rw [call?] at h
      split at h
      · obtain rfl := Option.some.inj h
        cases hvalue
      · cases h

/-! ## Environments without the byte zero -/

namespace Environment

end Environment

namespace Variables

variable {vs : Variables} {watched : String → Prop}

/-- Nothing that was asked of the environment was refused, and the values of
the variables that are watched hold no character zero. -/
structure IsSound (vs : Variables) (watched : String → Prop) : Prop where
  accepted : vs.refused = false
  values : ∀ name value, watched name → vs.get? name = some value → '\x00' ∉ value.toList

/-- A change of a valid name keeps this if it brings no character zero and
exports by name only what is watched. -/
theorem IsSound.apply (h : vs.IsSound watched) {u : Update} (hname : isVariableName u.name = true)
    (hvalue : ∀ value ∈ u.value?, '\x00' ∉ value.toList)
    (hwatched : ∀ name, u = .export_ name none → watched name) :
    (u.apply vs).IsSound watched := by
  constructor
  · rw [Update.refused_apply, h.accepted, Bool.false_or, Option.any_eq_false]
    intro c hc
    have hpossible : c.isPossible = true := by
      refine (EnvironmentCall.isPossible_iff_of_isVariableName ?_).mpr fun value hmem => ?_
      · rwa [Update.name_call? hc]
      rcases Update.mem_value_call? hc hmem with hgiven | ⟨name, hexport, hstored⟩
      · exact hvalue value hgiven
      · exact h.values name value (hwatched name hexport) hstored
    simp [hpossible]
  intro other stored hother hstored
  cases u with
  | assign name value =>
      rw [Update.apply, get?_assign] at hstored
      split at hstored
      · obtain rfl := Option.some.inj hstored
        exact hvalue value rfl
      · exact h.values other stored hother hstored
  | export_ name value =>
      rw [Update.apply, get?_exportName] at hstored
      split at hstored
      · cases value with
        | none => exact h.values name stored (hwatched name rfl) hstored
        | some given => exact hvalue stored hstored
      · exact h.values other stored hother hstored
  | unset name =>
      rw [Update.apply, get?_unset] at hstored
      split at hstored
      · cases hstored
      · exact h.values other stored hother hstored

theorem refused_inherit (env : Environment) : (inherit env).refused = false := by
  rw [inherit, foldl_inherit]

end Variables

/-- A line without the character zero keeps a session sound, unless it exports
a variable by name that is not watched. -/
theorem Session.runLine_isSound {s : Session} {line : String} {watched : String → Prop}
    (h : s.vars.IsSound watched) (hline : '\x00' ∉ line.toList)
    (hwatched : ∀ name, Line.Asks line (.export_ name none) → watched name) :
    (s.runLine line).2.vars.IsSound watched := by
  refine (runLine_updates s line).induction (R := (Variables.IsSound · watched))
    (fun vs u hu hvs => ?_) h
  exact hvs.apply (isVariableName_of_asks hu) (hu.not_mem_value hline)
    fun name heq => hwatched name (heq ▸ hu)

end JobShell
