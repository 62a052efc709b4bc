import JobShell.Job

/-!
# Built jobs

What a job has of its pipeline when the build succeeded
(`Host.builtFrom_of_buildJob`). Of the three passes over the stages the first
one gives them their places and the others keep them.
-/

namespace JobShell

open Machine (NodeId)

/-- Every stage knows its place. -/
def Job.Numbered (job : Job) : Prop :=
  ∀ (index : Nat) (s : PreparedStage), job.stages[index]? = some s → s.index = index

/-- What a stage is, apart from what is open for it. -/
def PreparedStage.plan (s : PreparedStage) : Nat × Bytes × Stage := (s.index, s.path, s.stage)

namespace Host

/-- A stage is prepared if its command is found. -/
theorem prepareStage_eq_ok {h h' : Host} {directory : NodeId} {searchPath : Bytes} {index : Nat}
    {stage : Stage} {s : PreparedStage}
    (hok : h.prepareStage directory searchPath index stage = .ok (s, h')) :
    ∃ path message, (h.fileView directory).resolve searchPath (.ofString stage.command) = .ok path
      ∧ s = { index, path, stage } ∧ h' = h.log .info message := by
  unfold prepareStage at hok
  cases hpath : (h.fileView directory).resolve searchPath (.ofString stage.command) with
  | error failure =>
      rw [hpath] at hok
      cases hok
  | ok path =>
      rw [hpath] at hok
      obtain ⟨rfl, rfl⟩ := Prod.mk.inj (Except.ok.inj hok)
      exact ⟨path, _, rfl, rfl, rfl⟩

theorem prepared_of_prepareStages {h : Host} {directory : NodeId} {searchPath : Bytes}
    {first : Nat} {stages : List Stage} {prepared : List PreparedStage}
    (hok : (h.prepareStages directory searchPath first stages).1 = .ok prepared) :
    prepared.length = stages.length ∧ ∀ (i : Nat) (s : PreparedStage), prepared[i]? = some s →
      ∃ path stage, stages[i]? = some stage ∧ s = { index := first + i, path, stage } := by
  induction stages generalizing h first prepared with
  | nil =>
      obtain rfl := Except.ok.inj hok
      exact ⟨rfl, nofun⟩
  | cons stage rest ih =>
      rw [prepareStages] at hok
      split at hok
      · cases hok
      · rename_i s h' hs
        obtain ⟨path, -, -, rfl, -⟩ := prepareStage_eq_ok hs
        split at hok
        · rename_i others h'' hothers
          obtain rfl := Except.ok.inj hok
          obtain ⟨hlength, hrest⟩ := ih (congrArg Prod.fst hothers)
          refine ⟨congrArg (· + 1) hlength, fun i s hs => ?_⟩
          cases i with
          | zero => exact ⟨path, stage, rfl, (Option.some.inj hs).symm⟩
          | succ i =>
              obtain ⟨path', stage', hstage', rfl⟩ := hrest i s hs
              refine ⟨path', stage', hstage', ?_⟩
              rw [Nat.add_right_comm, Nat.add_assoc]
        · cases hok

theorem indices_prepareStages {h : Host} {directory : NodeId} {searchPath : Bytes} {first : Nat}
    {stages : List Stage} {prepared : List PreparedStage}
    (hok : (h.prepareStages directory searchPath first stages).1 = .ok prepared) :
    prepared.map PreparedStage.index = List.range' first stages.length := by
  obtain ⟨hlength, hprepared⟩ := prepared_of_prepareStages hok
  refine List.ext_getElem (by simp [hlength]) fun i hi hi' => ?_
  rw [List.length_map] at hi
  obtain ⟨path, stage, -, heq⟩ := hprepared i prepared[i] (List.getElem?_eq_getElem hi)
  rw [List.getElem_map, List.getElem_range', heq, Nat.one_mul]

theorem stages_of_prepareStages {h : Host} {directory : NodeId} {searchPath : Bytes} {first : Nat}
    {stages : List Stage} {prepared : List PreparedStage}
    (hok : (h.prepareStages directory searchPath first stages).1 = .ok prepared) :
    prepared.map PreparedStage.stage = stages := by
  obtain ⟨hlength, hprepared⟩ := prepared_of_prepareStages hok
  refine List.ext_getElem? fun i => ?_
  rw [List.getElem?_map]
  cases hs : prepared[i]? with
  | none =>
      rw [List.getElem?_eq_none_iff, hlength] at hs
      exact (List.getElem?_eq_none hs).symm
  | some s =>
      obtain ⟨path, stage, hstage, rfl⟩ := hprepared i s hs
      exact hstage.symm

theorem plans_connectFrom (h : Host) (left : PreparedStage) (rest : List PreparedStage) :
    (h.connectFrom left rest).2.1.map PreparedStage.plan
      = left.plan :: rest.map PreparedStage.plan := by
  induction rest generalizing h left with
  | nil => rfl
  | cons right rest ih =>
      rw [connectFrom]
      split
      · rfl
      · exact congrArg _ (ih ..)

theorem plans_connectStages (h : Host) (stages : List PreparedStage) :
    (h.connectStages stages).2.1.map PreparedStage.plan = stages.map PreparedStage.plan := by
  cases stages with
  | nil => rfl
  | cons first rest => exact plans_connectFrom ..

theorem plan_buildStage (h : Host) (directory : NodeId) (s : PreparedStage) :
    (h.buildStage directory s).2.1.plan = s.plan := by
  unfold buildStage
  split <;> rfl

theorem plans_buildStages (h : Host) (directory : NodeId) (stages : List PreparedStage) :
    (h.buildStages directory stages).2.1.map PreparedStage.plan
      = stages.map PreparedStage.plan := by
  induction stages generalizing h with
  | nil => rfl
  | cons s rest ih =>
      have hplan := plan_buildStage h directory s
      rw [buildStages]
      split
      · rename_i heq
        rw [heq] at hplan
        rw [List.map_cons, hplan, List.map_cons]
      · rename_i heq
        rw [heq] at hplan
        rw [List.map_cons, hplan, ih, List.map_cons]

end Host

/-- The job runs the stages of the pipeline, at least one, in their places. -/
structure Job.BuiltFrom (p : Pipeline) (job : Job) : Prop where
  numbered : job.Numbered
  length : job.stages.length = p.stages.length
  nonempty : job.stages ≠ []
  foreground : job.foreground = p.foreground
  description : job.description = p.describe

theorem Job.numbered_of_indices {job : Job} {total : Nat}
    (h : job.stages.map PreparedStage.index = List.range' 0 total) : job.Numbered := by
  intro index s hs
  have hlength : job.stages.length = total := by
    simpa using congrArg List.length h
  have hlt : index < total := hlength ▸ (List.getElem?_eq_some_iff.mp hs).1
  have hget := congrArg (·[index]?) h
  rw [List.getElem?_map, hs, List.getElem?_range' hlt] at hget
  simpa using Option.some.inj hget

/-- The three passes of a build that succeeds. -/
theorem Host.passes_of_buildJob {h h' : Host} {directory : NodeId} {searchPath : Bytes}
    {p : Pipeline} {job : Job} (hok : h.buildJob directory searchPath p = (.ok job, h')) :
    ∃ prepared h₁ connected h₂ built h₃ level message,
      h.prepareStages directory searchPath 0 p.stages = (.ok prepared, h₁)
        ∧ h₁.connectStages prepared = (none, connected, h₂)
        ∧ h₂.buildStages directory connected = (none, built, h₃)
        ∧ p.stages ≠ []
        ∧ job = ⟨built, p.foreground,
            (List.range (p.stages.length - 1)).map fun left => (left, left + 1), p.describe⟩
        ∧ h' = h₃.log level message := by
  unfold buildJob at hok
  split at hok
  · cases hok
  rename_i hstages
  rw [List.isEmpty_iff] at hstages
  split at hok
  · cases hok
  rename_i prepared h₁ hprepare
  split at hok
  · cases hok
  rename_i connected h₂ hconnect
  split at hok
  · cases hok
  rename_i built h₃ hbuild
  obtain ⟨hjob, rfl⟩ := Prod.mk.inj hok
  obtain rfl := Except.ok.inj hjob
  exact ⟨prepared, h₁, connected, h₂, built, h₃, _, _, hprepare, hconnect, hbuild, hstages, rfl,
    rfl⟩

theorem Host.builtFrom_of_buildJob {h : Host} {directory : NodeId} {searchPath : Bytes}
    {p : Pipeline} {job : Job} (hok : (h.buildJob directory searchPath p).1 = .ok job) :
    job.BuiltFrom p := by
  obtain ⟨prepared, h₁, connected, h₂, built, h₃, level, message, hprepare, hconnect, hbuild,
    hstages, rfl, -⟩ := passes_of_buildJob (Prod.ext hok rfl)
  have hindices : built.map PreparedStage.index = List.range' 0 p.stages.length :=
    calc built.map PreparedStage.index
      _ = (built.map PreparedStage.plan).map Prod.fst := by rw [List.map_map]; rfl
      _ = (connected.map PreparedStage.plan).map Prod.fst := by
          rw [← plans_buildStages h₂ directory connected, hbuild]
      _ = (prepared.map PreparedStage.plan).map Prod.fst := by
          rw [← plans_connectStages h₁ prepared, hconnect]
      _ = prepared.map PreparedStage.index := by rw [List.map_map]; rfl
      _ = List.range' 0 p.stages.length := indices_prepareStages (congrArg Prod.fst hprepare)
  have hlength : built.length = p.stages.length := by
    simpa using congrArg List.length hindices
  refine ⟨Job.numbered_of_indices hindices, hlength, ?_, rfl, rfl⟩
  rintro (rfl : built = [])
  exact hstages (List.length_eq_zero_iff.mp hlength.symm)

/-- The job of a pipeline whose commands are all found at one place and that
has nothing to open. -/
def Job.uniform (path : Bytes) (p : Pipeline) : Job where
  stages := p.stages.mapIdx fun index stage => { index, path, stage }
  foreground := p.foreground
  pipes := (List.range (p.stages.length - 1)).map fun left => (left, left + 1)
  description := p.describe

theorem Job.builtFrom_uniform (path : Bytes) {p : Pipeline} (hne : p.stages ≠ []) :
    (Job.uniform path p).BuiltFrom p where
  numbered index s hs := by
    rw [uniform, List.getElem?_mapIdx, Option.map_eq_some_iff] at hs
    obtain ⟨stage, -, rfl⟩ := hs
    rfl
  length := List.length_mapIdx
  nonempty h := hne (List.mapIdx_eq_nil_iff.mp h)
  foreground := rfl
  description := rfl

end JobShell
