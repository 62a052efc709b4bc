import JobShell.Proofs.Commands
import JobShell.Proofs.Publication

/-!
# What is listed of the variables

`set` prints a line `NAME=VALUE` for each variable, in the order of the names.
Such a line can be read back whatever the value is, because a valid name holds
no equals sign: the first one on the line is the one that was put there. So
the list is the store itself (`IsListedAs`) as long as every name in the store
is valid, and that is so in every session (`listed_afterLines`): a name gets
there from the environment that the session started with or by an `Update`,
and each of the two lets valid names through only.
-/

namespace JobShell

namespace Variables

variable {vs : Variables}

/-! ## The names in the store -/

/-- Only valid names have values or marks. -/
structure IsNamed (vs : Variables) : Prop where
  value : ∀ name value, vs.get? name = some value → isVariableName name = true
  mark : ∀ name, vs.isExported name = true → isVariableName name = true

theorem isNamed_inherit (env : Environment) : (inherit env).IsNamed where
  value name value h := by
    rw [get?_inherit] at h
    obtain ⟨front, back, heq, -⟩ := List.lookup_eq_some_iff.mp h
    have hmem : (name, value) ∈ env.filterMap inheritable? := by
      rw [← List.mem_reverse, heq]
      simp
    exact (mem_inheritable_iff.mp hmem).1
  mark name h := by
    obtain ⟨value, hmem⟩ := (isExported_inherit env name).mp h
    exact (mem_inheritable_iff.mp hmem).1

theorem get?_apply_of_ne {u : Update} {name : String} (hne : name ≠ u.name) :
    (u.apply vs).get? name = vs.get? name := by
  cases u with
  | assign other value => exact (get?_assign ..).trans (if_neg hne)
  | export_ other value => exact (get?_exportName ..).trans (if_neg hne)
  | unset other => exact (get?_unset ..).trans (if_neg hne)

theorem isExported_apply_of_ne {u : Update} {name : String} (hne : name ≠ u.name) :
    (u.apply vs).isExported name = vs.isExported name := by
  cases u with
  | assign other value => exact isExported_assign ..
  | export_ other value =>
      have hkey : (name == other) = false := beq_eq_false_iff_ne.mpr hne
      rw [Update.apply, isExported_exportName, hkey, Bool.false_or]
  | unset other =>
      have hkey : (name != other) = true := bne_iff_ne.mpr hne
      rw [Update.apply, isExported_unset, hkey, Bool.true_and]

theorem IsNamed.apply (h : vs.IsNamed) {u : Update} (hname : isVariableName u.name = true) :
    (u.apply vs).IsNamed where
  value name value hvalue := by
    by_cases heq : name = u.name
    · rwa [heq]
    · rw [get?_apply_of_ne heq] at hvalue
      exact h.value name value hvalue
  mark name hmark := by
    by_cases heq : name = u.name
    · rwa [heq]
    · rw [isExported_apply_of_ne heq] at hmark
      exact h.mark name hmark

/-! ## The lines -/

/-- The lines are the variables `pairs`, one each: the names ascend in the order
of their bytes, and each line is read as the assignment it was made from. -/
structure IsListedAs (vs : Variables) (pairs : List (String × String)) : Prop where
  read : vs.listing.map assignment? = pairs.map some
  ascending : pairs.Pairwise fun a b => Bytes.ofString a.1 < Bytes.ofString b.1
  nodup : pairs.Nodup
  mem_iff : ∀ name value, (name, value) ∈ pairs ↔ vs.get? name = some value

theorem IsNamed.isListedAs (h : vs.IsNamed) : vs.IsListedAs vs.values.toList := by
  have hmem : ∀ name value, (name, value) ∈ vs.values.toList ↔ vs.get? name = some value :=
    fun name value => Std.TreeMap.mem_toList_iff_getElem?_eq_some
  have hascending : vs.values.toList.Pairwise fun a b =>
      Bytes.ofString a.1 < Bytes.ofString b.1 := by
    refine Std.TreeMap.ordered_keys_toList.imp fun {a b} hlt => Bytes.ofString_lt ?_
    exact compareOfLessAndEq_eq_lt.mp hlt
  refine ⟨?_, hascending, ?_, hmem⟩
  · rw [listing, List.map_map]
    refine List.map_congr_left fun ⟨name, value⟩ hpair => ?_
    exact assignment?_eq_some_iff.mpr ⟨h.value name value ((hmem name value).mp hpair), rfl⟩
  · refine hascending.imp fun {a b} hlt => ?_
    rintro rfl
    exact List.lt_irrefl _ hlt

end Variables

/-! ## Sessions -/

namespace Session

theorem runLine_of_set (s : Session) {line : String} (h : Line.Commands line .set []) :
    (s.runLine line).2
      = s.vars.listing.foldl (fun s text => s.onHost (·.print (text ++ "\n"))) s := by
  rw [runLine_of_commands s h]
  rfl

/-- **What `set` lists.** After any lines every name in the store is valid, and
the lines that are printed are its variables in the order of the names, each
of them once and each of them read back as what it was. -/
theorem listed_afterLines {env : Environment} {s : Session} (hs : s.vars = Variables.inherit env)
    (lines : List String) :
    (s.afterLines lines).vars.IsNamed
      ∧ (∃ pairs, (s.afterLines lines).vars.IsListedAs pairs)
      ∧ ∀ line, Line.Commands line .set [] →
        ((s.afterLines lines).runLine line).2
          = (s.afterLines lines).vars.listing.foldl
              (fun s text => s.onHost (·.print (text ++ "\n"))) (s.afterLines lines) := by
  have hnamed : (s.afterLines lines).vars.IsNamed :=
    (afterLines_vars s lines).induction (fun vs u hname h => h.apply hname)
      (hs ▸ Variables.isNamed_inherit env)
  exact ⟨hnamed, ⟨_, hnamed.isListedAs⟩, fun line h => runLine_of_set _ h⟩

/-- A name in front of another one that it begins. As lines the two go the other
way round, since a digit comes before the equals sign. -/
theorem listed_behind_prefix :
    (startedIn [(.ofString "A", .ofString "=\n")]).vars
        = Variables.inherit [(.ofString "A", .ofString "=\n")]
      ∧ ("A1" ++ "=" ++ "" : String) < "A" ++ "=" ++ "=\n"
      ∧ ∃ pairs,
        ((startedIn [(.ofString "A", .ofString "=\n")]).afterLines ["A1="]).vars.IsListedAs pairs
          ∧ ("A1", "") ∈ pairs ∧ ("A", "=\n") ∈ pairs := by
  obtain ⟨-, ⟨pairs, hlisted⟩, -⟩ := listed_afterLines
    (show (startedIn [(.ofString "A", .ofString "=\n")]).vars = .inherit _ from rfl) ["A1="]
  have hparse : Line.parse "A1=" = Line.ofTokens [.word "A1=" false] :=
    Line.parse_of_rendered (by rfl) (by decide)
  have hvars : ((startedIn [(.ofString "A", .ofString "=\n")]).afterLines ["A1="]).vars
      = (Variables.inherit [(.ofString "A", .ofString "=\n")]).assign "A1" "" := by
    show (Session.runLine _ "A1=").2.vars = _
    rw [runLine_of_parse _ (hparse.trans rfl)]
    rfl
  refine ⟨rfl, by decide, pairs, hlisted, ?_, ?_⟩
  · rw [hlisted.mem_iff, hvars, Variables.get?_assign, if_pos rfl]
  · have hname : isVariableName "A" = true := by decide
    have hentry : Variables.inheritable? (.ofString "A", .ofString "=\n") = some ("A", "=\n") := by
      simp [Variables.inheritable?, hname]
    rw [hlisted.mem_iff, hvars, Variables.get?_assign, if_neg (by decide), Variables.get?_inherit,
      List.filterMap_cons_some hentry]
    rfl

end Session

end JobShell
