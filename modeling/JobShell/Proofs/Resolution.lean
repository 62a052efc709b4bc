import JobShell.Proofs.Splitting
import JobShell.Resolve
import Mathlib.Data.List.Basic

/-!
# Which file a command runs

A search path is cut at its colons in one way only (`Bytes.splitsInto_iff`).
The search tries the directories in their order: it finds the command in the
first one that has it (`FileView.resolve_bare_eq_ok`), and finds nothing
exactly if no directory has it (`FileView.resolve_bare_eq_error`).

The search asks for a file as the search path spells it, and it returns that
path as seen from the current directory. Both lead to the same file if the
current directory is where relative paths begin (`FileView.IsPlaced`); then
every answer is the absolute path of a regular file.
-/

namespace JobShell

/-! ## Paths -/

namespace Path

variable {base path : Bytes}

theorem join_of_isAbsolute (h : isAbsolute path = true) : join base path = path := by
  rw [join, if_pos h]

theorem ite_isAbsolute : (if isAbsolute path then path else join base path) = join base path := by
  split
  next h => rw [join_of_isAbsolute h]
  next => rfl

theorem isAbsolute_join (hbase : isAbsolute base = true) : isAbsolute (join base path) = true := by
  rw [join]
  split
  · assumption
  cases base with
  | nil => simp [isAbsolute] at hbase
  | cons b rest => split <;> simpa [isAbsolute] using hbase

theorem isQualified_of_isAbsolute (h : isAbsolute path = true) : isQualified path = true := by
  rw [isQualified, components, if_pos h]
  cases (Bytes.splitAt slash path).filterMap component? <;> rfl

/-- A name without a slash is searched for. -/
theorem isQualified_of_not_mem (hne : path ≠ []) (h : slash ∉ path) :
    isQualified path = false := by
  have hsplit : Bytes.splitAt slash path = [path] := by
    rw [Bytes.splitAt_eq_splitOn, List.splitOn_eq_singleton h]
  have hrelative : ¬ isAbsolute path = true := by
    intro habs
    exact h (List.mem_of_mem_head? (by simpa [isAbsolute] using habs))
  rw [isQualified, components, hsplit, if_neg hrelative]
  by_cases hhere : path = here
  · simp [hhere, component?]
  by_cases habove : path = above
  · simp [habove, component?, here, above]
  · simp [hhere, habove, hne, component?]

end Path

namespace FileView

variable {v : FileView} {here searchPath command p : Bytes}

/-- The current directory is `here`: a path leads to a regular file exactly if it
does as seen from there. -/
structure IsPlaced (v : FileView) (here : Bytes) : Prop where
  currentDirectory : v.currentDirectory = .ok here
  isAbsolute : Path.isAbsolute here = true
  isRegularFile_join : ∀ path, v.isRegularFile (Path.join here path) = v.isRegularFile path

/-- `entry` is the first of the directories in which `command` is a regular
file. -/
def IsFirstWith (v : FileView) (command : Bytes) (entries : List Bytes) (entry : Bytes) : Prop :=
  ∃ before after, entries = before ++ entry :: after
    ∧ v.isRegularFile (Path.join entry command) = true
    ∧ ∀ other ∈ before, v.isRegularFile (Path.join other command) = false

/-- What is known of the answer `result` to a command, seen from the directory
`here`. -/
structure Resolved (v : FileView) (here searchPath command : Bytes)
    (result : Except Failure Bytes) : Prop where
  sound : ∀ p, result = .ok p → Path.isAbsolute p = true ∧ v.isRegularFile p = true
  empty : command = [] → result = .error (.commandNotFound [])
  /-- An absolute path is qualified, and a name without a slash is not. -/
  kinds : (Path.isAbsolute command = true → Path.isQualified command = true)
    ∧ (command ≠ [] → slash ∉ command → Path.isQualified command = false)
  /-- The search path has no part in where a qualified command is. -/
  qualified : command ≠ [] → Path.isQualified command = true →
    result =
      let path := if Path.isAbsolute command then command else Path.join here command
      if v.isRegularFile path then .ok path else .error (.commandNotFound path)
  bare : command ≠ [] → Path.isQualified command = false →
    ∃ parts, (∀ others, Bytes.SplitsInto colon searchPath others ↔ others = parts) ∧
      let entries := parts.map fun part => if part = [] then Path.here else part
      (∀ p, result = .ok p ↔ ∃ entry, v.IsFirstWith command entries entry
        ∧ p = if Path.isAbsolute entry then Path.join entry command
          else Path.join here (Path.join entry command))
      ∧ (result = .error (.commandNotFound command)
        ↔ ∀ entry ∈ entries, v.isRegularFile (Path.join entry command) = false)

theorem IsPlaced.absolute (hv : v.IsPlaced here) (path : Bytes) :
    v.absolute path = .ok (Path.join here path) := by
  rw [FileView.absolute, hv.currentDirectory]
  split
  next habs => rw [Path.join_of_isAbsolute habs]
  next => rfl

theorem resolve_qualified (hv : v.IsPlaced here) (hne : command ≠ [])
    (hqualified : Path.isQualified command = true) (searchPath : Bytes) :
    v.resolve searchPath command =
      if v.isRegularFile (Path.join here command) then .ok (Path.join here command)
      else .error (.commandNotFound (Path.join here command)) := by
  rw [resolve, if_neg hne, if_pos hqualified, hv.absolute]
  rfl

theorem resolve_bare (hv : v.IsPlaced here) (hne : command ≠ [])
    (hbare : Path.isQualified command = false) (searchPath : Bytes) :
    v.resolve searchPath command =
      match (Path.searchDirectories searchPath).find?
        fun entry => v.isRegularFile (Path.join entry command) with
      | some entry => .ok (Path.join here (Path.join entry command))
      | none => .error (.commandNotFound command) := by
  rw [resolve, if_neg hne, if_neg (by simp [hbare])]
  dsimp only
  rw [List.find?_map, Function.comp_def]
  cases (Path.searchDirectories searchPath).find?
      fun entry => v.isRegularFile (Path.join entry command) with
  | none => rfl
  | some entry => exact hv.absolute _

/-- An answer is the absolute path of a regular file. -/
theorem sound_of_resolve (hv : v.IsPlaced here) (h : v.resolve searchPath command = .ok p) :
    Path.isAbsolute p = true ∧ v.isRegularFile p = true := by
  by_cases hne : command = []
  · rw [resolve, if_pos hne] at h
    cases h
  cases hqualified : Path.isQualified command with
  | true =>
      rw [resolve_qualified hv hne hqualified] at h
      split at h
      next hregular =>
        obtain rfl := Except.ok.inj h
        exact ⟨Path.isAbsolute_join hv.isAbsolute, hregular⟩
      next => cases h
  | false =>
      rw [resolve_bare hv hne hqualified] at h
      split at h
      next entry hfind =>
        obtain rfl := Except.ok.inj h
        have hregular := List.find?_some hfind
        exact ⟨Path.isAbsolute_join hv.isAbsolute, (hv.isRegularFile_join _).trans hregular⟩
      next => cases h

theorem isFirstWith_iff {entries : List Bytes} {entry : Bytes} :
    v.IsFirstWith command entries entry
      ↔ entries.find? (fun entry => v.isRegularFile (Path.join entry command)) = some entry := by
  rw [List.find?_eq_some_iff_append, IsFirstWith]
  constructor
  · rintro ⟨before, after, heq, hregular, hbefore⟩
    exact ⟨hregular, before, after, heq, fun other hmem => by simp [hbefore other hmem]⟩
  · rintro ⟨hregular, before, after, heq, hbefore⟩
    exact ⟨before, after, heq, hregular, fun other hmem => by simpa using hbefore other hmem⟩

theorem resolve_bare_eq_ok (hv : v.IsPlaced here) (hne : command ≠ [])
    (hbare : Path.isQualified command = false) :
    v.resolve searchPath command = .ok p
      ↔ ∃ entry, v.IsFirstWith command (Path.searchDirectories searchPath) entry
        ∧ p = Path.join here (Path.join entry command) := by
  simp only [isFirstWith_iff]
  rw [resolve_bare hv hne hbare]
  split
  next entry hfind =>
    constructor
    · intro h
      exact ⟨entry, hfind, (Except.ok.inj h).symm⟩
    · rintro ⟨other, hother, rfl⟩
      rw [Option.some.inj (hfind.symm.trans hother)]
  next hfind => simp [hfind]

theorem resolve_bare_eq_error (hv : v.IsPlaced here) (hne : command ≠ [])
    (hbare : Path.isQualified command = false) :
    v.resolve searchPath command = .error (.commandNotFound command)
      ↔ ∀ entry ∈ Path.searchDirectories searchPath,
        v.isRegularFile (Path.join entry command) = false := by
  rw [resolve_bare hv hne hbare]
  split
  next entry hfind =>
    constructor
    · intro h
      cases h
    · intro h
      have hregular := List.find?_some hfind
      rw [h entry (List.mem_of_find?_eq_some hfind)] at hregular
      cases hregular
  next hfind => simpa using hfind

/-- Every command is resolved, seen from an existing current directory. -/
theorem resolved_of_isPlaced (hv : v.IsPlaced here) (searchPath command : Bytes) :
    v.Resolved here searchPath command (v.resolve searchPath command) where
  sound _ := sound_of_resolve hv
  empty hempty := by rw [resolve, if_pos hempty, hempty]
  kinds := ⟨Path.isQualified_of_isAbsolute, Path.isQualified_of_not_mem⟩
  qualified hne hqualified := by
    rw [resolve_qualified hv hne hqualified, Path.ite_isAbsolute]
  bare hne hbare := by
    refine ⟨_, fun _ => Bytes.splitsInto_iff, fun p => ?_, resolve_bare_eq_error hv hne hbare⟩
    rw [resolve_bare_eq_ok hv hne hbare]
    refine exists_congr fun entry => and_congr_right fun _ => ?_
    split
    next habs => rw [Path.join_of_isAbsolute (Path.isAbsolute_join habs)]
    next => rfl

/-- A current directory and the regular files there are. -/
def ofFiles (here : Bytes) (files : List Bytes) : FileView where
  isRegularFile path := files.contains (Path.join here path)
  currentDirectory := .ok here

theorem isPlaced_ofFiles {files : List Bytes} (h : Path.isAbsolute here = true) :
    (ofFiles here files).IsPlaced here where
  currentDirectory := rfl
  isAbsolute := h
  isRegularFile_join path := by
    simp only [ofFiles]
    rw [Path.join_of_isAbsolute (Path.isAbsolute_join h)]

/-- The first directory is missing, the second is an empty entry, and the third
is relative. -/
theorem resolved_in_relative_directory :
    ∃ (v : FileView) (here : Bytes), v.IsPlaced here
      ∧ v.resolve (.ofString "/opt::tools:/bin") (.ofString "ls") = .ok (.ofString "/home/tools/ls")
      ∧ v.Resolved here (.ofString "/opt::tools:/bin") (.ofString "ls")
          (.ok (.ofString "/home/tools/ls")) := by
  let files : List Bytes := [.ofString "/bin/ls", .ofString "/home/tools/ls"]
  have hv : (ofFiles (.ofString "/home") files).IsPlaced (.ofString "/home") :=
    isPlaced_ofFiles (by decide)
  have hresolve : (ofFiles (.ofString "/home") files).resolve (.ofString "/opt::tools:/bin")
      (.ofString "ls") = .ok (.ofString "/home/tools/ls") := by rfl
  exact ⟨_, _, hv, hresolve, hresolve ▸ resolved_of_isPlaced hv _ _⟩

end FileView

end JobShell
