import JobShell.Proofs.Resolution

/-!
# Which names are paths

A command with a slash in its name is meant to be a path, and any other one to
be searched for (`FileView.ObeysSlash`). But what decides is the components of
the name, and those leave out some slashes: if all that follows the first slash
are empty parts and dots (`Path.IsPadded`), one component is left, and the
command is searched for like a name without a slash.

`Path.isQualified_iff` says that these are the only names for which the
components and the slash disagree, and `FileView.obeysSlash_iff` what that
means for the commands.
-/

namespace JobShell

namespace Path

variable {path name : Bytes} {rest : List Bytes}

/-- There is a slash, and behind the first one there is nothing but empty parts
and dots. -/
def IsPadded (path : Bytes) : Prop :=
  ∃ name rest, Bytes.SplitsInto slash path (name :: rest) ∧ name ≠ [] ∧ rest ≠ []
    ∧ ∀ part ∈ rest, part = [] ∨ part = here

theorem component?_eq_none_iff {part : Bytes} :
    component? part = none ↔ part = [] ∨ part = here := by
  rw [component?]
  split
  next h => exact iff_of_true rfl h
  next h =>
    refine iff_of_false ?_ h
    split <;> exact Option.some_ne_none _

/-- A path has a slash exactly if it has more than one part. -/
theorem mem_iff_of_splitsInto (h : Bytes.SplitsInto slash path (name :: rest)) :
    slash ∈ path ↔ rest ≠ [] := by
  rw [← h.joined]
  cases rest with
  | nil =>
      have hfree := h.free name (List.mem_cons_self ..)
      simpa [List.intercalate] using hfree
  | cons part others => simp [List.intercalate]

theorem isAbsolute_of_splitsInto (h : Bytes.SplitsInto slash path (name :: rest)) :
    isAbsolute path = true ↔ name = [] ∧ rest ≠ [] := by
  rw [isAbsolute, decide_eq_true_iff, ← h.joined]
  have hfree := h.free name (List.mem_cons_self ..)
  cases name with
  | nil => cases rest <;> simp [List.intercalate]
  | cons b bs =>
      have hne : b ≠ slash := fun heq => hfree (heq ▸ List.mem_cons_self ..)
      cases rest <;> simp [List.intercalate, hne]

/-- The first part of a relative path is always a component. -/
theorem components_of_splitsInto (h : Bytes.SplitsInto slash path (name :: rest))
    (hname : name ≠ []) :
    ∃ first, first ≠ .root ∧ components path = first :: rest.filterMap component? := by
  have hrelative : ¬isAbsolute path = true := by
    rw [isAbsolute_of_splitsInto h]
    exact fun habsolute => hname habsolute.1
  rw [components, ← Bytes.splitsInto_iff.mp h, if_neg hrelative, List.head?_cons,
    List.filterMap_cons]
  by_cases hhere : name = here
  · rw [if_pos (congrArg some hhere), component?_eq_none_iff.mpr (Or.inr hhere)]
    exact ⟨.current, by simp, rfl⟩
  · rw [if_neg fun heq => hhere (Option.some.inj heq), List.nil_append, component?,
      if_neg (not_or.mpr ⟨hname, hhere⟩)]
    by_cases habove : name = above
    · exact ⟨.parent, by simp, by rw [if_pos habove]⟩
    · exact ⟨.normal name, by simp, by rw [if_neg habove]⟩

/-- Whether a relative path is qualified depends on what is behind its first
slash. -/
theorem isQualified_of_splitsInto (h : Bytes.SplitsInto slash path (name :: rest))
    (hname : name ≠ []) :
    isQualified path = false ↔ ∀ part ∈ rest, part = [] ∨ part = here := by
  obtain ⟨first, hroot, hcomponents⟩ := components_of_splitsInto h hname
  simp only [← component?_eq_none_iff, ← List.filterMap_eq_nil_iff]
  rw [isQualified, hcomponents]
  cases rest.filterMap component? with
  | nil =>
      cases first with
      | root => exact (hroot rfl).elim
      | current | parent | normal _ => exact iff_of_true rfl rfl
  | cons second others =>
      refine iff_of_false ?_ (List.cons_ne_nil second others)
      cases first <;> simp

/-- A name counts as a path exactly if it has a slash and is not padded. -/
theorem isQualified_iff (hne : path ≠ []) :
    isQualified path = true ↔ slash ∈ path ∧ ¬IsPadded path := by
  have hparts : Bytes.SplitsInto slash path (Bytes.splitAt slash path) :=
    Bytes.splitsInto_iff.mpr rfl
  obtain ⟨name, rest, heq⟩ := List.exists_cons_of_ne_nil hparts.nonempty
  rw [heq] at hparts
  have hpadded : IsPadded path
      ↔ name ≠ [] ∧ rest ≠ [] ∧ ∀ part ∈ rest, part = [] ∨ part = here := by
    refine ⟨?_, fun h => ⟨name, rest, hparts, h⟩⟩
    rintro ⟨name', rest', hparts', h⟩
    obtain ⟨rfl, rfl⟩ := List.cons.inj ((Bytes.splitsInto_iff.mp hparts').trans heq)
    exact h
  rw [hpadded, mem_iff_of_splitsInto hparts]
  by_cases hname : name = []
  · have hrest : rest ≠ [] := by
      rintro rfl
      exact hne (by rw [← hparts.joined, hname]; rfl)
    have habsolute := (isAbsolute_of_splitsInto hparts).mpr ⟨hname, hrest⟩
    simp [isQualified_of_isAbsolute habsolute, hname, hrest]
  · rw [← Bool.not_eq_false, isQualified_of_splitsInto hparts hname]
    cases rest with
    | nil => simp
    | cons part others => simp [hname]

end Path

namespace FileView

variable {command : Bytes}

/-- The file at an absolute path. -/
def fileAt (v : FileView) (path : Bytes) : Except Failure Bytes :=
  if v.isRegularFile path then .ok path else .error (.commandNotFound path)

/-- The file that a path leads to, as seen from the current directory. -/
def locate (v : FileView) (path : Bytes) : Except Failure Bytes :=
  if Path.isAbsolute path then v.fileAt path
  else
    match v.currentDirectory with
    | .ok directory => v.fileAt (Path.join directory path)
    | .error cause => .error (.io cause)

/-- The file of this name in the first directory of the search path that has
one. -/
def search (v : FileView) (searchPath name : Bytes) : Except Failure Bytes :=
  match (Path.searchDirectories searchPath).find?
    fun directory => v.isRegularFile (Path.join directory name) with
  | some directory => v.absolute (Path.join directory name)
  | none => .error (.commandNotFound name)

theorem resolve_eq_locate (v : FileView) (searchPath : Bytes) (hne : command ≠ [])
    (hqualified : Path.isQualified command = true) :
    v.resolve searchPath command = v.locate command := by
  rw [resolve, if_neg hne, if_pos hqualified, absolute, locate]
  by_cases habsolute : Path.isAbsolute command = true
  · rw [if_pos habsolute, if_pos habsolute]
    rfl
  · rw [if_neg habsolute, if_neg habsolute]
    cases v.currentDirectory <;> rfl

theorem resolve_eq_search (v : FileView) (searchPath : Bytes) (hne : command ≠ [])
    (hbare : Path.isQualified command = false) :
    v.resolve searchPath command = v.search searchPath command := by
  rw [resolve, if_neg hne, if_neg (by simp [hbare]), search]
  dsimp only
  rw [List.find?_map, Function.comp_def]
  cases (Path.searchDirectories searchPath).find?
      fun directory => v.isRegularFile (Path.join directory command) <;> rfl

/-- The slash decides whether a command is a path or a name to search for,
whatever files there are. -/
structure ObeysSlash (command : Bytes) : Prop where
  qualified : Path.isQualified command = true ↔ slash ∈ command
  /-- The search path has no part in where a path leads. -/
  path : slash ∈ command → ∀ (v : FileView) (searchPath : Bytes),
    v.resolve searchPath command = v.locate command
  name : slash ∉ command → ∀ (v : FileView) (searchPath : Bytes),
    v.resolve searchPath command = v.search searchPath command

/-- A machine without files. -/
def bare : FileView where
  isRegularFile _ := false
  currentDirectory := .ok [slash]

/-- Without files a search and a path do not find the same thing missing. -/
theorem search_bare_ne_locate (searchPath : Bytes) (hrelative : ¬Path.isAbsolute command = true) :
    bare.search searchPath command ≠ bare.locate command := by
  have hsearch : bare.search searchPath command = .error (.commandNotFound command) := by
    have hnone : (Path.searchDirectories searchPath).find?
        (fun directory => bare.isRegularFile (Path.join directory command)) = none :=
      List.find?_eq_none.mpr fun _ _ => Bool.false_ne_true
    rw [search, hnone]
  have hlocate : bare.locate command = .error (.commandNotFound (slash :: command)) := by
    rw [locate, if_neg hrelative]
    simp [bare, fileAt, Path.join, hrelative]
  rw [hsearch, hlocate]
  intro heq
  exact List.cons_ne_self slash command (Failure.commandNotFound.inj (Except.error.inj heq)).symm

/-- **The slash decides, except for padded names.** A command obeys its slash
exactly if it is not padded. A padded one is searched for in spite of its
slash, which makes a difference even where there are no files. -/
theorem obeysSlash_iff (hne : command ≠ []) :
    (ObeysSlash command ↔ ¬Path.IsPadded command)
      ∧ (Path.IsPadded command → slash ∈ command
        ∧ (∀ (v : FileView) (searchPath : Bytes),
          v.resolve searchPath command = v.search searchPath command)
        ∧ ∀ searchPath, bare.resolve searchPath command ≠ bare.locate command) := by
  have hslash : Path.IsPadded command → slash ∈ command := by
    rintro ⟨name, rest, hparts, -, hrest, -⟩
    exact (Path.mem_iff_of_splitsInto hparts).mpr hrest
  have hsearched : Path.IsPadded command → Path.isQualified command = false := fun hpadded => by
    rw [← Bool.not_eq_true, Path.isQualified_iff hne]
    exact fun h => h.2 hpadded
  refine ⟨⟨fun h hpadded => ?_, fun hpadded => ?_⟩, fun hpadded => ⟨hslash hpadded, ?_, ?_⟩⟩
  · have hqualified := h.qualified.mpr (hslash hpadded)
    rw [hsearched hpadded] at hqualified
    cases hqualified
  · have hqualified : Path.isQualified command = true ↔ slash ∈ command := by
      rw [Path.isQualified_iff hne]
      exact and_iff_left hpadded
    refine ⟨hqualified, fun hmem v searchPath => ?_, fun hmem v searchPath => ?_⟩
    · exact v.resolve_eq_locate searchPath hne (hqualified.mpr hmem)
    · exact v.resolve_eq_search searchPath hne (Bool.eq_false_iff.mpr fun h => hmem (hqualified.mp h))
  · exact fun v searchPath => v.resolve_eq_search searchPath hne (hsearched hpadded)
  · intro searchPath
    rw [resolve_eq_search _ _ hne (hsearched hpadded)]
    refine search_bare_ne_locate searchPath fun habsolute => ?_
    rw [← Bool.not_eq_true] at hsearched
    exact hsearched hpadded (Path.isQualified_of_isAbsolute habsolute)

/-- A dot at the end does not matter behind a second part that does. -/
theorem obeysSlash_two_parts :
    Bytes.ofString "./ls/." ≠ [] ∧ ¬Path.IsPadded (.ofString "./ls/.")
      ∧ ObeysSlash (.ofString "./ls/.") := by
  have hne : Bytes.ofString "./ls/." ≠ [] := by decide
  have hpadded : ¬Path.IsPadded (.ofString "./ls/.") :=
    ((Path.isQualified_iff hne).mp (by decide)).2
  exact ⟨hne, hpadded, (obeysSlash_iff hne).1.mpr hpadded⟩

/-- With a slash at its end a name is still searched for, and what is reported
missing is the name and not a path. -/
theorem search_trailing_slash :
    let v := ofFiles (.ofString "/home") []
    slash ∈ Bytes.ofString "ls/" ∧ Path.isQualified (.ofString "ls/") = false
      ∧ v.resolve (.ofString "/bin") (.ofString "ls/") = .error (.commandNotFound (.ofString "ls/"))
      ∧ v.locate (.ofString "ls/") = .error (.commandNotFound (.ofString "/home/ls/")) :=
  ⟨by decide, by decide, rfl, rfl⟩

end FileView

end JobShell
