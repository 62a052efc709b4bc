import Mathlib
import JobShell.Proofs.Building
import JobShell.Proofs.Openings

/-!
# How the stages of a job are connected

Between neighbouring stages there is one pipe. `wired_of_buildJob` says who
holds its two ends when the build is over: the table of the stage that writes
and that of the stage that reads, each of them once, behind the stream the end
was made for or, if that stream is redirected, displaced. No other table holds
them, so that the reader finds the end of its input when the writer is done.

The counting rests on freshness alone: a pipe gets descriptors that were
free, and so does every file that is opened after it.
-/

namespace JobShell

open Machine (NodeId Tree)

/-- The end of a pipe that is open at `fd` belongs to the stage at `place`,
as its stream `slot`. -/
structure Job.HoldsEnd (job : Job) (fd : Fd) (place : Nat) (slot : Fd) : Prop where
  count : ∀ (i : Nat) (s : PreparedStage) (t : DescriptorTable), job.stages[i]? = some s →
    s.table? = some t → t.fds.count fd = if i = place then 1 else 0
  behind : ∀ (s : PreparedStage) (t : DescriptorTable), job.stages[place]? = some s →
    s.table? = some t → (∀ r ∈ s.stage.redirections, r.fd ≠ slot) →
    t.slots[slot]? = some (.pipe fd)
  shadowed : ∀ (s : PreparedStage) (t : DescriptorTable), job.stages[place]? = some s →
    s.table? = some t → (∃ r ∈ s.stage.redirections, r.fd = slot) → .pipe fd ∈ t.shadowed

/-- The stages of a pipeline, connected by pipes with these read and write
ends. -/
structure Job.Wired (p : Pipeline) (job : Job) (ends : List (Fd × Fd)) : Prop where
  stages : job.stages.map PreparedStage.stage = p.stages
  pipes : job.pipes = (List.range (p.stages.length - 1)).map fun i => (i, i + 1)
  length : ends.length = p.stages.length - 1
  /-- What a stage keeps open is in its table. -/
  table : ∀ s ∈ job.stages, ∃ t, s.table? = some t ∧ s.fds = t.fds
  writer : ∀ (i : Nat) (reader writer : Fd), ends[i]? = some (reader, writer) →
    job.HoldsEnd writer i 1
  reader : ∀ (i : Nat) (reader writer : Fd), ends[i]? = some (reader, writer) →
    job.HoldsEnd reader (i + 1) 0
  first : ∀ (s : PreparedStage) (t : DescriptorTable), job.stages[0]? = some s →
    s.table? = some t → (∀ r ∈ s.stage.redirections, r.fd ≠ 0) → t.slots[(0 : Fd)]? = some .inherit
  last : ∀ (s : PreparedStage) (t : DescriptorTable),
    job.stages[p.stages.length - 1]? = some s → s.table? = some t →
    (∀ r ∈ s.stage.redirections, r.fd ≠ 1) → t.slots[(1 : Fd)]? = some .inherit

/-! ## One stage -/

/-- What a stage keeps is a table of two streams and of files it opened. -/
structure PreparedStage.Made (s : PreparedStage) (stdin stdout : Descriptor)
    (opened : List OpenedFile) : Prop where
  input : s.stdin = .inherit
  output : s.stdout = .inherit
  table : s.table? = some ((DescriptorTable.standard stdin stdout).redirectEach opened)
  redirections : opened.map OpenedFile.redirection = s.stage.redirections

namespace PreparedStage.Made

variable {s : PreparedStage} {stdin stdout d : Descriptor} {opened : List OpenedFile} {fd slot : Fd}

theorem fds (h : s.Made stdin stdout opened) :
    s.fds = ((DescriptorTable.standard stdin stdout).redirectEach opened).fds := by
  rw [PreparedStage.fds, h.table, h.input, h.output]
  rfl

/-- Files that were opened elsewhere do not count. -/
theorem count (hfresh : ∀ o ∈ opened, o.fd ≠ fd) :
    ((DescriptorTable.standard stdin stdout).redirectEach opened).fds.count fd
      = stdin.fd?.toList.count fd + stdout.fd?.toList.count fd := by
  have hnot : fd ∉ opened.map OpenedFile.fd := by
    intro hmem
    obtain ⟨o, ho, heq⟩ := List.mem_map.mp hmem
    exact hfresh o ho heq
  rw [(DescriptorTable.fds_redirectEach _ opened).count_eq, List.count_append,
    List.count_eq_zero_of_not_mem hnot, Nat.zero_add, DescriptorTable.fds_standard,
    List.count_append]

theorem getElem?_slots (h : s.Made stdin stdout opened)
    (hslot : (DescriptorTable.standard stdin stdout).slots[slot]? = some d)
    (hnone : ∀ r ∈ s.stage.redirections, r.fd ≠ slot) :
    ((DescriptorTable.standard stdin stdout).redirectEach opened).slots[slot]? = some d := by
  rw [DescriptorTable.getElem?_redirectEach_of_ne, hslot]
  intro o ho
  exact hnone o.redirection (h.redirections ▸ List.mem_map_of_mem ho)

theorem mem_shadowed (h : s.Made stdin stdout opened)
    (hslot : (DescriptorTable.standard stdin stdout).slots[slot]? = some d)
    (hsome : ∃ r ∈ s.stage.redirections, r.fd = slot) :
    d ∈ ((DescriptorTable.standard stdin stdout).redirectEach opened).shadowed := by
  refine DescriptorTable.mem_shadowed_of_getElem? hslot ?_
  obtain ⟨r, hr, hfd⟩ := hsome
  rw [← h.redirections] at hr
  obtain ⟨o, ho, rfl⟩ := List.mem_map.mp hr
  exact ⟨o, ho, hfd⟩

end PreparedStage.Made

/-! ## All stages -/

namespace Host

/-- Every stage of a job that was built has a table of the ends next to it and
of files that were opened after all pipes. -/
theorem made_of_buildJob {h h' : Host} {directory : NodeId} {searchPath : Bytes} {p : Pipeline}
    {job : Job} (hok : h.buildJob directory searchPath p = (.ok job, h')) :
    ∃ (ends : List (Fd × Fd)) (h₁ h₂ : Host), h.Writes h₁ ∧ h₁.Connected ends h₂
      ∧ h₂.Extends h' ∧ h'.world.pipes.size = h₂.world.pipes.size
      ∧ job.pipes = (List.range (p.stages.length - 1)).map (fun left => (left, left + 1))
      ∧ ends.length = p.stages.length - 1
      ∧ ∀ (i : Nat) (s : PreparedStage), job.stages[i]? = some s →
        p.stages[i]? = some s.stage ∧ ∃ opened,
          s.Made (inputAt .inherit ends i) (outputAt ends i) opened
            ∧ ∀ o ∈ opened, o.fd ∉ h₂.shell.slots := by
  obtain ⟨prepared, h₁, connected, h₂, built, h₃, level, message, hprepare, hconnect, hbuild,
    hstages, rfl, rfl⟩ := passes_of_buildJob hok
  obtain ⟨entries, rfl⟩ : ∃ entries, h₁ = h.logAll entries := by
    have hlogged := exists_logAll_prepareStages h directory searchPath 0 p.stages
    rwa [hprepare] at hlogged
  obtain ⟨hlength, hprepared⟩ := prepared_of_prepareStages (congrArg Prod.fst hprepare)
  obtain ⟨traces, hredirections, hopened, rfl⟩ := tables_of_buildStages hbuild
  cases prepared with
  | nil => exact (hstages (List.length_eq_zero_iff.mp hlength.symm)).elim
  | cons left rest =>
  obtain ⟨ends, hconnected, hends, hconnectedLength, hplaces⟩ := connected_of_connectFrom hconnect
  have hwritten := writes_log h₃ level message
  refine ⟨ends, _, h₂, writes_logAll h entries, hconnected,
    hopened.extends_.trans hwritten.extends_, ?_, rfl, ?_, fun i s hs => ?_⟩
  · rw [hwritten.world.pipes, hopened.pipes]
  · rw [hends, ← hlength, List.length_cons, Nat.add_sub_cancel]
  · obtain ⟨c, opened, hc, htrace, rfl⟩ := List.getElem?_zipWith_eq_some.mp hs
    have hlt : i < (left :: rest).length := by
      rw [List.length_cons, ← hconnectedLength]
      exact (List.getElem?_eq_some_iff.mp hc).1
    obtain ⟨path, stage, hstage, hprep⟩ := hprepared i _ (List.getElem?_eq_getElem hlt)
    have hleft : left.stdin = .inherit := by
      obtain ⟨path', stage', -, rfl⟩ := hprepared 0 left rfl
      rfl
    have hplace := hplaces i _ (List.getElem?_eq_getElem hlt) (by rw [hprep])
    rw [hprep, hleft, hc] at hplace
    obtain rfl := Option.some.inj hplace
    refine ⟨hstage, opened, ⟨rfl, rfl, rfl, ?_⟩, fun o ho => ?_⟩
    · have hboth := congrArg (·[i]?) hredirections
      simp only [List.getElem?_map, htrace, hc, Option.map_some] at hboth
      exact Option.some.inj hboth
    · exact (hopened.fresh.1 o (List.mem_flatten.mpr ⟨opened, List.mem_of_getElem? htrace, ho⟩)).1

end Host

/-! ## The ends of the pipes -/

namespace Host

section Ends

variable {ends : List (Fd × Fd)} {i : Nat} {reader writer : Fd}

theorem fd?_inputAt_succ (ends : List (Fd × Fd)) (i : Nat) :
    (inputAt .inherit ends (i + 1)).fd? = (ends.map Prod.fst)[i]? := by
  rw [inputAt, List.getElem?_map]
  cases ends[i]? <;> rfl

theorem fd?_outputAt (ends : List (Fd × Fd)) (i : Nat) :
    (outputAt ends i).fd? = (ends.map Prod.snd)[i]? := by
  rw [outputAt, List.getElem?_map]
  cases ends[i]? <;> rfl

theorem count_getElem? {fds : List Fd} {fd : Fd} (hnodup : fds.Nodup) (h : fds[i]? = some fd)
    (j : Nat) : (fds[j]?).toList.count fd = if j = i then 1 else 0 := by
  split
  · rename_i heq
    rw [heq, h]
    simp
  · rename_i hne
    refine List.count_eq_zero_of_not_mem fun hmem => hne ?_
    rw [Option.mem_toList] at hmem
    have hlt : j < fds.length := (List.getElem?_eq_some_iff.mp hmem).1
    exact (List.getElem?_inj hlt hnodup).mp (hmem.trans h.symm)

theorem count_getElem?_of_not_mem {fds : List Fd} {fd : Fd} (h : fd ∉ fds) (j : Nat) :
    (fds[j]?).toList.count fd = 0 := by
  refine List.count_eq_zero_of_not_mem fun hmem => h ?_
  exact List.mem_of_getElem? (Option.mem_toList.mp hmem)

/-- A write end is the output of the stage it is made for, and nobody's input. -/
theorem count_writer (hnodup : (ends.map Prod.fst ++ ends.map Prod.snd).Nodup)
    (hend : ends[i]? = some (reader, writer)) (j : Nat) :
    (inputAt .inherit ends j).fd?.toList.count writer
      + (outputAt ends j).fd?.toList.count writer = if j = i then 1 else 0 := by
  obtain ⟨-, hwriters, hapart⟩ := List.nodup_append.mp hnodup
  have hget : (ends.map Prod.snd)[i]? = some writer := by
    rw [List.getElem?_map, hend]
    rfl
  have hnot : writer ∉ ends.map Prod.fst := fun hmem =>
    hapart writer hmem writer (List.mem_of_getElem? hget) rfl
  have hinput : (inputAt .inherit ends j).fd?.toList.count writer = 0 := by
    cases j with
    | zero => rfl
    | succ j =>
        rw [fd?_inputAt_succ]
        exact count_getElem?_of_not_mem hnot j
  rw [hinput, Nat.zero_add, fd?_outputAt, count_getElem? hwriters hget]

/-- A read end is the input of the stage behind, and nobody's output. -/
theorem count_reader (hnodup : (ends.map Prod.fst ++ ends.map Prod.snd).Nodup)
    (hend : ends[i]? = some (reader, writer)) (j : Nat) :
    (inputAt .inherit ends j).fd?.toList.count reader
      + (outputAt ends j).fd?.toList.count reader = if j = i + 1 then 1 else 0 := by
  obtain ⟨hreaders, -, hapart⟩ := List.nodup_append.mp hnodup
  have hget : (ends.map Prod.fst)[i]? = some reader := by
    rw [List.getElem?_map, hend]
    rfl
  have hnot : reader ∉ ends.map Prod.snd := fun hmem =>
    hapart reader (List.mem_of_getElem? hget) reader hmem rfl
  rw [fd?_outputAt, count_getElem?_of_not_mem hnot, Nat.add_zero]
  cases j with
  | zero => rfl
  | succ j =>
      rw [fd?_inputAt_succ, count_getElem? hreaders hget]
      simp only [Nat.add_right_cancel_iff]

end Ends

/-- **Pipes between neighbours.** -/
theorem wired_of_buildJob {h h' : Host} {directory : NodeId} {searchPath : Bytes} {p : Pipeline}
    {job : Job} (hok : h.buildJob directory searchPath p = (.ok job, h')) :
    ∃ ends, job.Wired p ends
      ∧ h'.world.pipes.size = h.world.pipes.size + (p.stages.length - 1)
      ∧ ∀ (i : Nat) (reader writer : Fd), ends[i]? = some (reader, writer) →
        h'.endpoint? reader = some (.pipeReader (h.world.pipes.size + i))
          ∧ h'.endpoint? writer = some (.pipeWriter (h.world.pipes.size + i)) := by
  obtain ⟨ends, h₁, h₂, hwrites, hconnected, hext, hsize, hpipes, hends, hmade⟩ :=
    made_of_buildJob hok
  have hbuilt := builtFrom_of_buildJob (congrArg Prod.fst hok)
  have hnodup := hconnected.fresh.2
  -- Files were opened when the ends were open already.
  have hcount : ∀ (fd : Fd), fd ∈ h₂.shell.slots → ∀ (i : Nat) (s : PreparedStage)
      (t : DescriptorTable), job.stages[i]? = some s → s.table? = some t →
      t.fds.count fd = (inputAt .inherit ends i).fd?.toList.count fd
        + (outputAt ends i).fd?.toList.count fd := by
    intro fd hfd i s t hs ht
    obtain ⟨-, opened, hs, hfree⟩ := hmade i s hs
    obtain rfl := Option.some.inj (hs.table.symm.trans ht)
    exact PreparedStage.Made.count fun o ho heq => hfree o ho (heq ▸ hfd)
  have hslots : ∀ (slot : Fd) (d : Descriptor) (i : Nat),
      (DescriptorTable.standard (inputAt .inherit ends i) (outputAt ends i)).slots[slot]?
        = some d →
      ∀ (s : PreparedStage) (t : DescriptorTable), job.stages[i]? = some s → s.table? = some t →
        ((∀ r ∈ s.stage.redirections, r.fd ≠ slot) → t.slots[slot]? = some d)
          ∧ ((∃ r ∈ s.stage.redirections, r.fd = slot) → d ∈ t.shadowed) := by
    intro slot d i hslot s t hs ht
    obtain ⟨-, opened, hs, -⟩ := hmade i s hs
    obtain rfl := Option.some.inj (hs.table.symm.trans ht)
    exact ⟨hs.getElem?_slots hslot, hs.mem_shadowed hslot⟩
  refine ⟨ends, ?_, ?_, ?_⟩
  · exact
      { stages := by
          refine List.ext_getElem? fun i => ?_
          rw [List.getElem?_map]
          cases hs : job.stages[i]? with
          | some s => exact (hmade i s hs).1.symm
          | none =>
              rw [List.getElem?_eq_none_iff, hbuilt.length] at hs
              exact (List.getElem?_eq_none hs).symm
        pipes := hpipes
        length := hends
        table := fun s hs => by
          obtain ⟨i, hs⟩ := List.getElem?_of_mem hs
          obtain ⟨-, opened, hmade, -⟩ := hmade i s hs
          exact ⟨_, hmade.table, hmade.fds⟩
        writer := fun i reader writer hend => by
          have hopen := mem_of_endpoint? (hconnected.endpoint hend).2
          have hslot := hslots 1 (.pipe writer) i (by rw [outputAt, hend]; rfl)
          exact
            { count := fun j s t hs ht => by
                rw [hcount writer hopen j s t hs ht, count_writer hnodup hend]
              behind := fun s t hs ht => (hslot s t hs ht).1
              shadowed := fun s t hs ht => (hslot s t hs ht).2 }
        reader := fun i reader writer hend => by
          have hopen := mem_of_endpoint? (hconnected.endpoint hend).1
          have hslot := hslots 0 (.pipe reader) (i + 1) (by rw [inputAt, hend]; rfl)
          exact
            { count := fun j s t hs ht => by
                rw [hcount reader hopen j s t hs ht, count_reader hnodup hend]
              behind := fun s t hs ht => (hslot s t hs ht).1
              shadowed := fun s t hs ht => (hslot s t hs ht).2 }
        first := fun s t hs ht => (hslots 0 .inherit 0 rfl s t hs ht).1
        last := fun s t hs ht => by
          refine (hslots 1 .inherit _ ?_ s t hs ht).1
          rw [outputAt, List.getElem?_eq_none (Nat.le_of_eq hends)]
          rfl }
  · rw [hsize, hconnected.pipes, hends, hwrites.world.pipes]
  · intro i reader writer hend
    obtain ⟨hreader, hwriter⟩ := hconnected.endpoint hend
    rw [hwrites.world.pipes] at hreader hwriter
    exact ⟨hext.endpoint?_eq hreader, hext.endpoint?_eq hwriter⟩

end Host

/-- Two stages, the first of which writes to a file instead of the pipe. -/
def Pipeline.diverted : Pipeline where
  stages := [⟨"/a", [], [⟨1, .output, [98]⟩], ∅⟩, ⟨"/a", [], [], ∅⟩]
  foreground := true

theorem Host.wired_diverted : ∃ job h' ends,
    small.buildJob Tree.root [] .diverted = (.ok job, h') ∧ job.Wired .diverted ends := by
  have hbuilds : (small.buildJob Tree.root [] .diverted).1.toOption.isSome = true := by cbv
  obtain ⟨job, hjob⟩ := Option.isSome_iff_exists.mp hbuilds
  have hok : small.buildJob Tree.root [] .diverted
      = (.ok job, (small.buildJob Tree.root [] .diverted).2) :=
    Prod.ext (Except.eq_ok_of_toOption hjob) rfl
  obtain ⟨ends, hwired, -⟩ := wired_of_buildJob hok
  exact ⟨job, _, ends, hok, hwired⟩

end JobShell
