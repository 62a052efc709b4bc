import JobShell.Job.Execution
import JobShell.Proofs.Starting
import JobShell.Proofs.Truncation

/-!
# The descriptors of a job

Everything the shell opens for a job - the ends of pipes and the files of
redirections, also those that another redirection displaces - it has to close
again, each of them once. A `Ledger` keeps the descriptors that are open for
one job apart from those that are closed again; it does not know what to do
with a descriptor that is opened twice or closed when it is not open
(`Ledger.record`).

This is the ledger of a build. `books_of_buildJob` follows what the shell does
with its descriptors while it builds a job (`Host.Handles`): a build that
fails, wherever it does, has closed all it opened, and one that succeeds has
closed nothing and left every descriptor to one stage. What is opened besides
to start a process is closed by the start itself (`getElem?_start`).
-/

namespace JobShell

open Machine (NodeId Slot Slots)

/-- What happens around the descriptors of a job. -/
inductive Act
  /-- A descriptor is opened for the job. -/
  | opened (fd : Fd)
  /-- Something happens to the job in execution. -/
  | event (event : Event)
  /-- Something is done to the rest of the shell. -/
  | effect (effect : Effect)

/-- Some descriptors are closed. -/
def Act.closing (fds : List Fd) : Act := .effect (.close fds)

/-- The descriptors of a job. -/
structure Ledger where
  /-- Those that are open. -/
  held : List Fd := []
  /-- Those that were open. -/
  closed : List Fd := []

namespace Ledger

variable {l l' : Ledger} {kept kept' gone gone' fds : List Fd} {acts more : List Act}

/-- The ledger after an act. It has no entry for a descriptor that is opened
again, nor for one that is closed and not open. -/
def record (l : Ledger) : Act → Option Ledger
  | .opened fd =>
    if fd ∈ l.held ++ l.closed then none else some { l with held := fd :: l.held }
  | .effect (.close fds) =>
    if fds.Nodup ∧ ∀ fd ∈ fds, fd ∈ l.held then
      some { held := l.held.filter (· ∉ fds), closed := l.closed ++ fds }
    else none
  | .event _ | .effect _ => some l

/-- The ledger after some acts. -/
def recordAll (l : Ledger) : List Act → Option Ledger
  | [] => some l
  | act :: rest => (l.record act).bind fun l => recordAll l rest

theorem recordAll_append (l : Ledger) (acts more : List Act) :
    l.recordAll (acts ++ more) = (l.recordAll acts).bind fun l => l.recordAll more := by
  induction acts generalizing l with
  | nil => rfl
  | cons act rest ih =>
      rw [List.cons_append, recordAll, recordAll, Option.bind_assoc]
      exact congrArg _ (funext ih)

theorem recordAll_singleton (l : Ledger) (act : Act) : l.recordAll [act] = l.record act := by
  rw [recordAll]
  cases l.record act <;> rfl

theorem recordAll_trans (h : l.recordAll acts = some l') (more : List Act) :
    l.recordAll (acts ++ more) = l'.recordAll more := by
  rw [recordAll_append, h]
  rfl

/-- Effects that close nothing are not recorded. -/
theorem recordAll_of_quiet (h : ∀ act ∈ acts, ∃ effect, act = .effect effect
      ∧ ∀ fds, effect ≠ .close fds) : l.recordAll acts = some l := by
  induction acts with
  | nil => rfl
  | cons act rest ih =>
      obtain ⟨⟨effect, rfl, hquiet⟩, hrest⟩ := List.forall_mem_cons.mp h
      have hfirst : l.record (.effect effect) = some l := by
        cases effect with
        | close fds => exact (hquiet fds rfl).elim
        | log _ _ | signalGroup _ _ | giveTerminal _ | post _ => rfl
      rw [recordAll, hfirst]
      exact ih hrest

/-! ## What a ledger lists -/

/-- The ledger lists these descriptors, in some order. -/
structure Lists (l : Ledger) (kept gone : List Fd) : Prop where
  held : l.held.Perm kept
  closed : l.closed.Perm gone
  nodup : (kept ++ gone).Nodup

namespace Lists

theorem empty : Lists {} [] [] := ⟨.refl _, .refl _, List.nodup_nil⟩

theorem perm (h : l.Lists kept gone) (hkept : kept.Perm kept') (hgone : gone.Perm gone') :
    l.Lists kept' gone' where
  held := h.held.trans hkept
  closed := h.closed.trans hgone
  nodup := (hkept.append hgone).nodup_iff.mp h.nodup

theorem opened {fd : Fd} (h : l.Lists kept gone) (hfd : fd ∉ kept ++ gone) :
    ∃ l', l.record (.opened fd) = some l' ∧ l'.Lists (fd :: kept) gone := by
  have hnew : fd ∉ l.held ++ l.closed := fun hmem =>
    hfd ((h.held.append h.closed).mem_iff.mp hmem)
  exact ⟨_, if_neg hnew, h.held.cons fd, h.closed, List.nodup_cons.mpr ⟨hfd, h.nodup⟩⟩

theorem close (h : l.Lists (fds ++ kept) gone) :
    ∃ l', l.record (.closing fds) = some l' ∧ l'.Lists kept (gone ++ fds) := by
  obtain ⟨hopen, hgone, hapart⟩ := List.nodup_append.mp h.nodup
  obtain ⟨hfds, hkept, hdisjoint⟩ := List.nodup_append.mp hopen
  have hcan : fds.Nodup ∧ ∀ fd ∈ fds, fd ∈ l.held :=
    ⟨hfds, fun fd hfd => h.held.mem_iff.mpr (List.mem_append_left _ hfd)⟩
  have hleft : (l.held.filter (· ∉ fds)).Perm kept := by
    have hnone : fds.filter (· ∉ fds) = [] := by
      rw [List.filter_eq_nil_iff]
      exact fun fd hfd hnot => of_decide_eq_true hnot hfd
    have hall : kept.filter (· ∉ fds) = kept := by
      rw [List.filter_eq_self]
      exact fun fd hfd => decide_eq_true fun hmem => hdisjoint fd hmem fd hfd rfl
    have hfiltered := h.held.filter (· ∉ fds)
    rwa [List.filter_append, hnone, hall, List.nil_append] at hfiltered
  refine ⟨_, if_pos hcan, hleft, h.closed.append_right fds, ?_⟩
  have hmoved : (fds ++ kept ++ gone).Perm (kept ++ (gone ++ fds)) := by
    rw [← List.append_assoc]
    exact List.append_assoc fds kept gone ▸ List.perm_append_comm
  exact hmoved.nodup_iff.mp h.nodup

/-- Different descriptors that are opened one after the other. -/
theorem openedEach (h : l.Lists kept []) (hnodup : (fds ++ kept).Nodup) :
    ∃ l', l.recordAll (fds.map .opened) = some l' ∧ l'.Lists (fds ++ kept) [] := by
  induction fds generalizing l kept with
  | nil => exact ⟨l, rfl, h⟩
  | cons fd rest ih =>
      have hmoved : (fd :: rest ++ kept).Perm (rest ++ fd :: kept) := List.perm_middle.symm
      have hrest := hmoved.nodup_iff.mp hnodup
      have hfd : fd ∉ kept ++ [] := by
        rw [List.append_nil]
        exact fun hmem => (List.nodup_cons.mp hnodup).1 (List.mem_append_right _ hmem)
      obtain ⟨l₁, hfirst, h₁⟩ := h.opened hfd
      obtain ⟨l₂, hothers, h₂⟩ := ih h₁ hrest
      refine ⟨l₂, ?_, h₂.perm hmoved.symm (.refl _)⟩
      rw [List.map_cons, recordAll, hfirst]
      exact hothers

theorem closeEach {fdss : List (List Fd)} (h : l.Lists (fdss.flatten ++ kept) gone) :
    ∃ l', l.recordAll (fdss.map .closing) = some l' ∧ l'.Lists kept (gone ++ fdss.flatten) := by
  induction fdss generalizing l gone with
  | nil =>
      refine ⟨l, rfl, h.perm (.refl _) ?_⟩
      rw [List.flatten_nil, List.append_nil]
  | cons fds rest ih =>
      rw [List.flatten_cons, List.append_assoc] at h
      obtain ⟨l₁, hfirst, h₁⟩ := h.close
      obtain ⟨l₂, hothers, h₂⟩ := ih h₁
      refine ⟨l₂, ?_, ?_⟩
      · rw [List.map_cons, recordAll, hfirst]
        exact hothers
      · rwa [List.flatten_cons, ← List.append_assoc]

end Lists

/-! ## What a ledger tells -/

/-- The ledger tells how the descriptors of the shell differ from what they
were before: those it holds are new, and there is no other difference. -/
structure Tells (l : Ledger) (before now : Slots) : Prop where
  held : ∀ fd ∈ l.held, fd ∈ now ∧ fd ∉ before
  others : ∀ fd ∉ l.held, now[fd]? = before[fd]?

namespace Tells

variable {before now : Slots}

theorem start (before : Slots) : Tells {} before before where
  held _ hfd := (List.not_mem_nil hfd).elim
  others _ _ := rfl

theorem opened {fd : Fd} {slot : Slot} (h : l.Tells before now) (hfree : fd ∉ now)
    (hrecord : l.record (.opened fd) = some l') : l'.Tells before (now.insert fd slot) := by
  simp only [record] at hrecord
  split at hrecord
  · cases hrecord
  rename_i hnew
  obtain rfl := Option.some.inj hrecord
  have hbefore : fd ∉ before := by
    intro hmem
    have hnot : fd ∉ l.held := fun hheld => hnew (List.mem_append_left _ hheld)
    obtain ⟨slot, hslot⟩ := Slots.mem_iff_exists.mp hmem
    exact hfree (Slots.mem_iff_exists.mpr ⟨slot, (h.others fd hnot).trans hslot⟩)
  constructor
  · intro other hother
    rcases List.mem_cons.mp hother with rfl | hother
    · exact ⟨Std.TreeMap.mem_insert_self, hbefore⟩
    · exact ⟨Std.TreeMap.mem_insert.mpr (Or.inr (h.held other hother).1), (h.held other hother).2⟩
  · intro other hother
    rw [List.mem_cons, not_or] at hother
    rw [getElem?_insert_key, if_neg hother.1, h.others other hother.2]

theorem closed (h : l.Tells before now) (hrecord : l.record (.closing fds) = some l')
    {now' : Slots} (hnow : ∀ fd : Fd, now'[fd]? = if fd ∈ fds then none else now[fd]?) :
    l'.Tells before now' := by
  simp only [record, Act.closing] at hrecord
  split at hrecord
  · rename_i hcan
    obtain rfl := Option.some.inj hrecord
    constructor
    · intro fd hfd
      obtain ⟨hheld, hnot⟩ := List.mem_filter.mp hfd
      obtain ⟨slot, hslot⟩ := Slots.mem_iff_exists.mp (h.held fd hheld).1
      refine ⟨Slots.mem_iff_exists.mpr ⟨slot, ?_⟩, (h.held fd hheld).2⟩
      rw [hnow, if_neg (of_decide_eq_true hnot), hslot]
    · intro fd hfd
      rw [hnow]
      split
      · rename_i hmem
        exact (Slots.getElem?_eq_none_of_not_mem (h.held fd (hcan.2 fd hmem)).2).symm
      · rename_i hnot
        exact h.others fd fun hheld => hfd (List.mem_filter.mpr ⟨hheld, decide_eq_true hnot⟩)
  · cases hrecord

end Tells

end Ledger

/-! ## What the shell does with its descriptors -/

namespace Host

variable {h h' h'' : Host} {directory : NodeId} {acts more : List Act}

theorem getElem?_closeAll (h : Host) (fds : List Fd) (fd : Fd) :
    (h.closeAll fds).shell.slots[fd]? = if fd ∈ fds then none else h.shell.slots[fd]? := by
  unfold closeAll
  induction fds generalizing h with
  | nil => rfl
  | cons first rest ih =>
      rw [List.foldl_cons, ih, close]
      dsimp only
      rw [getElem?_erase_key]
      by_cases hfirst : fd = first <;> by_cases hrest : fd ∈ rest <;> simp [hfirst, hrest]

/-- The shell goes from one host to the other by making pipes, by opening
files of redirections and by closing descriptors, and it writes messages. The
acts are what that means for its descriptors. -/
inductive Handles (directory : NodeId) : Host → List Act → Host → Prop
  | wrote {h h' : Host} (hwrites : h.Writes h') : Handles directory h [] h'
  | piped {h h' : Host} {reader writer : Fd} (hpipe : h.makePipe = .ok ((reader, writer), h')) :
      Handles directory h [.opened reader, .opened writer] h'
  | opened {h h' : Host} {r : Redirection} {fd : Fd}
      (hopen : h.openRedirection directory r = .ok (fd, h')) :
      Handles directory h [.opened fd] h'
  | closed (h : Host) (fds : List Fd) : Handles directory h [.closing fds] (h.closeAll fds)
  | trans {h h' h'' : Host} {acts more : List Act} (hfirst : Handles directory h acts h')
      (hrest : Handles directory h' more h'') : Handles directory h (acts ++ more) h''

theorem slots_of_makePipe {reader writer : Fd} (hok : h.makePipe = .ok ((reader, writer), h')) :
    ∃ first second, reader ∉ h.shell.slots ∧ writer ∉ h.shell.slots.insert reader first
      ∧ h'.shell.slots = (h.shell.slots.insert reader first).insert writer second := by
  unfold makePipe at hok
  dsimp only at hok
  obtain ⟨⟨readFd, slots⟩, hreader, hok⟩ := Except.bind_eq_ok_iff.mp hok
  obtain ⟨⟨writeFd, slots'⟩, hwriter, hok⟩ := Except.bind_eq_ok_iff.mp hok
  obtain ⟨hfds, rfl⟩ := Prod.mk.inj (Except.ok.inj hok)
  obtain ⟨rfl, rfl⟩ := Prod.mk.inj hfds
  obtain ⟨hfirst, -, rfl⟩ := Slots.eq_insert_of_allocate hreader
  obtain ⟨hsecond, -, rfl⟩ := Slots.eq_insert_of_allocate hwriter
  exact ⟨_, _, hfirst, hsecond, rfl⟩

theorem slots_of_openRedirection {r : Redirection} {fd : Fd}
    (hok : h.openRedirection directory r = .ok (fd, h')) :
    ∃ slot, fd ∉ h.shell.slots ∧ h'.shell.slots = h.shell.slots.insert fd slot := by
  rw [openRedirection_eq] at hok
  split at hok
  case isFalse => cases hok
  obtain ⟨file, world, slots, -, hslots, rfl⟩ :=
    parts_of_openFile (Except.mapError_eq_ok_iff.mp hok)
  obtain ⟨hfree, -, rfl⟩ := Slots.eq_insert_of_allocate hslots
  exact ⟨_, hfree, rfl⟩

/-- The ledger goes on telling what is open. -/
theorem Handles.tells {before : Slots} {l l' : Ledger} (hhandles : h.Handles directory acts h')
    (htells : l.Tells before h.shell.slots) (hrecord : l.recordAll acts = some l') :
    l'.Tells before h'.shell.slots := by
  induction hhandles generalizing l l' with
  | wrote hwrites =>
      obtain rfl := Option.some.inj hrecord
      rwa [hwrites.shell]
  | piped hpipe =>
      obtain ⟨first, second, hreader, hwriter, hslots⟩ := slots_of_makePipe hpipe
      obtain ⟨l₁, hfirst, hrest⟩ := Option.bind_eq_some_iff.mp hrecord
      rw [Ledger.recordAll_singleton] at hrest
      rw [hslots]
      exact (htells.opened hreader hfirst).opened hwriter hrest
  | opened hopen =>
      obtain ⟨slot, hfree, hslots⟩ := slots_of_openRedirection hopen
      rw [Ledger.recordAll_singleton] at hrecord
      rw [hslots]
      exact htells.opened hfree hrecord
  | closed h fds =>
      rw [Ledger.recordAll_singleton] at hrecord
      exact htells.closed hrecord (getElem?_closeAll h fds)
  | trans _ _ ih ih' =>
      rw [Ledger.recordAll_append] at hrecord
      obtain ⟨l₁, hfirst, hrest⟩ := Option.bind_eq_some_iff.mp hrecord
      exact ih' (ih htells hfirst) hrest

/-! ## Pipes -/

/-- The descriptors of some pipes, in the order in which they are opened. -/
def endFds (ends : List (Fd × Fd)) : List Fd := ends.flatMap fun e => [e.1, e.2]

theorem endFds_perm (ends : List (Fd × Fd)) :
    (endFds ends).Perm (ends.map Prod.fst ++ ends.map Prod.snd) := by
  induction ends with
  | nil => exact .refl _
  | cons e rest ih =>
      calc endFds (e :: rest)
        _ |>.Perm (e.1 :: e.2 :: (rest.map Prod.fst ++ rest.map Prod.snd)) := (ih.cons _).cons _
        _ |>.Perm (e.1 :: (rest.map Prod.fst ++ e.2 :: rest.map Prod.snd)) :=
            List.perm_middle.symm.cons _

namespace Connected

variable {ends : List (Fd × Fd)}

theorem handles (hconnected : h.Connected ends h') (directory : NodeId) :
    h.Handles directory ((endFds ends).map .opened) h' := by
  induction hconnected with
  | nil h => exact .wrote (.refl h)
  | cons hpipe _ ih => exact (Handles.piped hpipe).trans ih

theorem nodup (hconnected : h.Connected ends h') : (endFds ends).Nodup :=
  (endFds_perm ends).nodup_iff.mpr hconnected.fresh.2

theorem free (hconnected : h.Connected ends h') : ∀ fd ∈ endFds ends, fd ∉ h.shell.slots :=
  fun fd hfd => hconnected.fresh.1 fd ((endFds_perm ends).mem_iff.mp hfd)

end Connected

theorem fds_setStdin {s : PreparedStage} (hin : s.stdin = .inherit) (fd : Fd) :
    ({ s with stdin := .pipe fd } : PreparedStage).fds = fd :: s.fds := by
  unfold PreparedStage.fds
  rw [hin]
  rfl

theorem fds_setStdout {s : PreparedStage} (hout : s.stdout = .inherit) (fd : Fd) :
    ({ s with stdout := .pipe fd } : PreparedStage).fds.Perm (fd :: s.fds) := by
  unfold PreparedStage.fds
  rw [hout]
  cases s.stdin with
  | inherit => exact .refl _
  | pipe other | file _ other => exact .swap ..

/-- The ends of the pipes that are made are with the stages, also if one pipe
can not be made. -/
theorem fds_connectFrom {left : PreparedStage} {rest stages : List PreparedStage}
    {failed : Option Failure} (hok : h.connectFrom left rest = (failed, stages, h'))
    (hleft : left.stdout = .inherit)
    (hrest : ∀ s ∈ rest, s.stdin = .inherit ∧ s.stdout = .inherit) :
    ∃ ends, h.Connected ends h' ∧ (stages.flatMap PreparedStage.fds).Perm
      (endFds ends ++ (left :: rest).flatMap PreparedStage.fds) := by
  induction rest generalizing h left stages failed with
  | nil =>
      obtain ⟨-, hpair⟩ := Prod.mk.inj hok
      obtain ⟨rfl, rfl⟩ := Prod.mk.inj hpair
      exact ⟨[], .nil h, .refl _⟩
  | cons right rest ih =>
      obtain ⟨⟨hin, hout⟩, hothers⟩ := List.forall_mem_cons.mp hrest
      unfold connectFrom at hok
      split at hok
      · obtain ⟨-, hpair⟩ := Prod.mk.inj hok
        obtain ⟨rfl, rfl⟩ := Prod.mk.inj hpair
        exact ⟨[], .nil h, .refl _⟩
      · rename_i reader writer h₁ hpipe
        cases hconnect : h₁.connectFrom { right with stdin := .pipe reader } rest with
        | mk result pair =>
        obtain ⟨others, h₂⟩ := pair
        rw [hconnect] at hok
        obtain ⟨-, hpair⟩ := Prod.mk.inj hok
        obtain ⟨rfl, rfl⟩ := Prod.mk.inj hpair
        obtain ⟨ends, hconnected, hperm⟩ := ih hconnect hout hothers
        rw [List.flatMap_cons, fds_setStdin hin] at hperm
        refine ⟨(reader, writer) :: ends, .cons hpipe hconnected, ?_⟩
        generalize hbehind : right.fds ++ rest.flatMap PreparedStage.fds = behind at hperm
        have hall : (left :: right :: rest).flatMap PreparedStage.fds = left.fds ++ behind := by
          rw [List.flatMap_cons, List.flatMap_cons, hbehind]
        have hmoved : (endFds ends ++ reader :: behind).Perm (reader :: (endFds ends ++ behind)) :=
          List.perm_middle
        have hfirst := fds_setStdout hleft writer
        rw [hall, List.flatMap_cons]
        rw [List.cons_append, hbehind] at hperm
        calc ({ left with stdout := .pipe writer } : PreparedStage).fds
              ++ others.flatMap PreparedStage.fds
          _ |>.Perm (writer :: left.fds ++ reader :: (endFds ends ++ behind)) :=
              hfirst.append (hperm.trans hmoved)
          _ |>.Perm (reader :: writer :: (left.fds ++ (endFds ends ++ behind))) :=
              List.perm_middle
          _ |>.Perm (reader :: writer :: (endFds ends ++ (left.fds ++ behind))) :=
              (List.perm_append_comm_assoc ..).cons _ |>.cons _

/-- A stage for which nothing is open. -/
def Bare (s : PreparedStage) : Prop :=
  s.stdin = .inherit ∧ s.stdout = .inherit ∧ s.table? = none

theorem Bare.fds {s : PreparedStage} (hs : Bare s) : s.fds = [] := by
  rw [PreparedStage.fds, hs.1, hs.2.1, hs.2.2]
  rfl

theorem fds_eq_nil {stages : List PreparedStage} (hstages : ∀ s ∈ stages, Bare s) :
    stages.flatMap PreparedStage.fds = [] :=
  List.flatMap_eq_nil_iff.mpr fun s hs => (hstages s hs).fds

theorem fds_connectStages {stages connected : List PreparedStage} {failed : Option Failure}
    (hok : h.connectStages stages = (failed, connected, h')) (hstages : ∀ s ∈ stages, Bare s) :
    ∃ ends, h.Connected ends h'
      ∧ (connected.flatMap PreparedStage.fds).Perm (endFds ends) := by
  cases stages with
  | nil =>
      obtain ⟨-, hpair⟩ := Prod.mk.inj hok
      obtain ⟨rfl, rfl⟩ := Prod.mk.inj hpair
      exact ⟨[], .nil h, .refl _⟩
  | cons left rest =>
      obtain ⟨hleft, hrest⟩ := List.forall_mem_cons.mp hstages
      obtain ⟨ends, hconnected, hperm⟩ := fds_connectFrom hok hleft.2.1 fun s hs =>
        ⟨(hrest s hs).1, (hrest s hs).2.1⟩
      rw [fds_eq_nil hstages, List.append_nil] at hperm
      exact ⟨ends, hconnected, hperm⟩

/-! ## Files -/

theorem Opened.handles {opened : List OpenedFile} (hopened : h.Opened directory opened h') :
    h.Handles directory ((opened.map OpenedFile.fd).map .opened) h' := by
  induction hopened with
  | nil h => exact .wrote (.refl h)
  | cons hopen _ _ ih => exact (Handles.opened hopen).trans ih

theorem Applied.opened {redirections : List Redirection} {opened : List OpenedFile}
    {failed : Option Failure} (happlied : Applied directory h redirections opened failed h') :
    h.Opened directory opened h' := by
  cases happlied with
  | all hopened _ => exact hopened
  | upTo hopened _ _ => exact hopened

/-- What is open for a stage with a table is in the table. -/
theorem fds_redirectEach_standard {s : PreparedStage} (hs : s.table? = none)
    (opened : List OpenedFile) :
    ((DescriptorTable.standard s.stdin s.stdout).redirectEach opened).fds.Perm
      (opened.map OpenedFile.fd ++ s.fds) := by
  refine (DescriptorTable.fds_redirectEach _ opened).trans (.append_left _ ?_)
  rw [DescriptorTable.fds_standard, PreparedStage.fds, hs]
  cases s.stdin <;> cases s.stdout <;> exact .refl _

/-- A stage takes over what was open for it and the files that are opened
now. If one of them can not be opened, all of that is closed. -/
theorem fds_buildStage {s s' : PreparedStage} {failed : Option Failure}
    (hok : h.buildStage directory s = (failed, s', h')) (hs : s.table? = none) :
    ∃ opened h₁ fds, h.Opened directory opened h₁ ∧ h' = h₁.closeAll fds
      ∧ (failed = none → fds = [])
      ∧ (fds ++ s'.fds).Perm (opened.map OpenedFile.fd ++ s.fds) := by
  unfold buildStage buildTable at hok
  cases hredirect : h.redirectAll directory (.standard s.stdin s.stdout) s.stage.redirections with
  | mk result pair =>
  obtain ⟨t, h₁⟩ := pair
  obtain ⟨opened, happlied, rfl⟩ := applied_of_redirectAll hredirect
  have hheld := fds_redirectEach_standard hs opened
  rw [hredirect] at hok
  cases result with
  | none =>
      obtain ⟨rfl, hpair⟩ := Prod.mk.inj hok
      obtain ⟨rfl, rfl⟩ := Prod.mk.inj hpair
      exact ⟨opened, _, [], happlied.opened, rfl, fun _ => rfl, hheld⟩
  | some failure =>
      obtain ⟨rfl, hpair⟩ := Prod.mk.inj hok
      obtain ⟨rfl, rfl⟩ := Prod.mk.inj hpair
      refine ⟨opened, h₁, _, happlied.opened, rfl, nofun, ?_⟩
      have hbare : Bare { s with stdin := .inherit, stdout := .inherit } := ⟨rfl, rfl, hs⟩
      rw [hbare.fds, List.append_nil]
      exact hheld

theorem fds_buildStages {stages built : List PreparedStage} {failed : Option Failure}
    (hok : h.buildStages directory stages = (failed, built, h'))
    (hstages : ∀ s ∈ stages, s.table? = none) :
    ∃ opened h₁ fds, h.Opened directory opened h₁ ∧ h' = h₁.closeAll fds
      ∧ (failed = none → fds = [])
      ∧ (fds ++ built.flatMap PreparedStage.fds).Perm
          (opened.map OpenedFile.fd ++ stages.flatMap PreparedStage.fds) := by
  induction stages generalizing h built with
  | nil =>
      obtain ⟨rfl, hpair⟩ := Prod.mk.inj hok
      obtain ⟨rfl, rfl⟩ := Prod.mk.inj hpair
      exact ⟨[], _, [], .nil _, rfl, fun _ => rfl, .refl _⟩
  | cons s rest ih =>
      obtain ⟨hs, hrest⟩ := List.forall_mem_cons.mp hstages
      unfold buildStages at hok
      split at hok
      · rename_i failure s' h₁ hstage
        obtain ⟨rfl, hpair⟩ := Prod.mk.inj hok
        obtain ⟨rfl, rfl⟩ := Prod.mk.inj hpair
        obtain ⟨opened, h₂, fds, hopened, rfl, -, hperm⟩ := fds_buildStage hstage hs
        refine ⟨opened, h₂, fds, hopened, rfl, nofun, ?_⟩
        rw [List.flatMap_cons, List.flatMap_cons, ← List.append_assoc, ← List.append_assoc]
        exact hperm.append_right _
      · rename_i s' h₁ hstage
        obtain ⟨opened, h₂, fds, hopened, rfl, hnone, hperm⟩ := fds_buildStage hstage hs
        obtain rfl := hnone rfl
        cases hbuild : (h₂.closeAll []).buildStages directory rest with
        | mk result pair =>
        obtain ⟨others, h₃⟩ := pair
        rw [hbuild] at hok
        obtain ⟨rfl, hpair⟩ := Prod.mk.inj hok
        obtain ⟨rfl, rfl⟩ := Prod.mk.inj hpair
        obtain ⟨more, h₄, fds, hmore, rfl, hnone, hothers⟩ := ih hbuild hrest
        refine ⟨opened ++ more, h₄, fds, hopened.append hmore, rfl, hnone, ?_⟩
        rw [List.flatMap_cons, List.flatMap_cons, List.map_append]
        calc fds ++ (s'.fds ++ others.flatMap PreparedStage.fds)
          _ |>.Perm (s'.fds ++ (fds ++ others.flatMap PreparedStage.fds)) :=
              List.perm_append_comm_assoc ..
          _ |>.Perm (opened.map OpenedFile.fd ++ s.fds
                ++ (more.map OpenedFile.fd ++ rest.flatMap PreparedStage.fds)) :=
              hperm.append hothers
          _ |>.Perm (opened.map OpenedFile.fd ++ more.map OpenedFile.fd
                ++ (s.fds ++ rest.flatMap PreparedStage.fds)) := by
              rw [List.append_assoc, List.append_assoc]
              exact (List.perm_append_comm_assoc ..).append_left _

/-! ## A build -/

/-- The ledger of everything the shell did from one host to the other lists
these descriptors. -/
def Books (directory : NodeId) (h : Host) (kept gone : List Fd) (h' : Host) : Prop :=
  ∃ acts l, h.Handles directory acts h' ∧ Ledger.recordAll {} acts = some l ∧ l.Lists kept gone

namespace Books

variable {kept kept' gone fds : List Fd}

theorem wrote (hwrites : h.Writes h') : Books directory h [] [] h' :=
  ⟨[], {}, .wrote hwrites, rfl, .empty⟩

theorem write (hbooks : Books directory h kept gone h') (hwrites : h'.Writes h'') :
    Books directory h kept gone h'' := by
  obtain ⟨acts, l, hhandles, hrecord, hl⟩ := hbooks
  refine ⟨_, l, hhandles.trans (.wrote hwrites), ?_, hl⟩
  rwa [List.append_nil]

theorem perm (hbooks : Books directory h kept gone h') (hkept : kept.Perm kept') :
    Books directory h kept' gone h' := by
  obtain ⟨acts, l, hhandles, hrecord, hl⟩ := hbooks
  exact ⟨acts, l, hhandles, hrecord, hl.perm hkept (.refl _)⟩

/-- Descriptors that were free are opened. -/
theorem openEach (hbooks : Books directory h kept [] h')
    (hhandles : h'.Handles directory (fds.map .opened) h'') (hnodup : fds.Nodup)
    (hfree : ∀ fd ∈ fds, fd ∉ h'.shell.slots) : Books directory h (fds ++ kept) [] h'' := by
  obtain ⟨acts, l, hbefore, hrecord, hl⟩ := hbooks
  have htells := hbefore.tells (.start h.shell.slots) hrecord
  have hboth : (fds ++ kept).Nodup := by
    have hkept := hl.nodup
    rw [List.append_nil] at hkept
    refine List.nodup_append.mpr ⟨hnodup, hkept, ?_⟩
    rintro fd hfd other hother rfl
    exact hfree fd hfd (htells.held fd (hl.held.mem_iff.mpr hother)).1
  obtain ⟨l', hopens, hl'⟩ := hl.openedEach hboth
  exact ⟨_, l', hbefore.trans hhandles, (Ledger.recordAll_trans hrecord _).trans hopens, hl'⟩

theorem close (hbooks : Books directory h (fds ++ kept) gone h') :
    Books directory h kept (gone ++ fds) (h'.closeAll fds) := by
  obtain ⟨acts, l, hbefore, hrecord, hl⟩ := hbooks
  obtain ⟨l', hcloses, hl'⟩ := hl.close
  refine ⟨_, l', hbefore.trans (.closed h' fds), ?_, hl'⟩
  rw [Ledger.recordAll_trans hrecord, Ledger.recordAll_singleton]
  exact hcloses

/-- All that is open is closed. -/
theorem closeRest (hbooks : Books directory h fds gone h') :
    Books directory h [] (gone ++ fds) (h'.closeAll fds) :=
  (hbooks.perm (.of_eq (List.append_nil fds).symm)).close

end Books

/-- What a build comes to: nothing is open if it failed, and if it did not, a
stage of the job has each descriptor that was opened. -/
def Booked (l : Ledger) : Except Failure Job → Prop
  | .error _ => l.held = []
  | .ok job => l.Lists (job.stages.flatMap PreparedStage.fds) []

theorem Books.failed {gone : List Fd} (hbooks : Books directory h [] gone h')
    (failure : Failure) : ∃ acts l, h.Handles directory acts h'
      ∧ Ledger.recordAll {} acts = some l ∧ Booked l (.error failure) := by
  obtain ⟨acts, l, hhandles, hrecord, hl⟩ := hbooks
  exact ⟨acts, l, hhandles, hrecord, hl.held.eq_nil⟩

theorem bare_of_prepareStages {searchPath : Bytes} {first : Nat} {stages : List Stage}
    {prepared : List PreparedStage}
    (hok : (h.prepareStages directory searchPath first stages).1 = .ok prepared) :
    ∀ s ∈ prepared, Bare s := by
  intro s hs
  obtain ⟨i, hs⟩ := List.getElem?_of_mem hs
  obtain ⟨path, stage, -, rfl⟩ := (prepared_of_prepareStages hok).2 i s hs
  exact ⟨rfl, rfl, rfl⟩

/-- Pipes keep a stage without a table. -/
theorem table_connectFrom {left : PreparedStage} {rest : List PreparedStage}
    (hstages : ∀ s ∈ left :: rest, s.table? = none) :
    ∀ s ∈ (h.connectFrom left rest).2.1, s.table? = none := by
  induction rest generalizing h left with
  | nil => exact hstages
  | cons right rest ih =>
      obtain ⟨hleft, hothers⟩ := List.forall_mem_cons.mp hstages
      obtain ⟨hright, hrest⟩ := List.forall_mem_cons.mp hothers
      rw [connectFrom]
      split
      · exact hstages
      · exact List.forall_mem_cons.mpr
          ⟨hleft, ih (List.forall_mem_cons.mpr ⟨hright, hrest⟩)⟩

theorem table_connectStages {stages connected : List PreparedStage} {failed : Option Failure}
    (hok : h.connectStages stages = (failed, connected, h')) (hstages : ∀ s ∈ stages, Bare s) :
    ∀ s ∈ connected, s.table? = none := by
  have hconnected : connected = (h.connectStages stages).2.1 := by rw [hok]
  rw [hconnected]
  cases stages with
  | nil => simp [connectStages]
  | cons left rest => exact table_connectFrom fun s hs => (hstages s hs).2.2

theorem books_of_connectStages {before : Host} {stages connected : List PreparedStage}
    {failed : Option Failure} (hbooks : Books directory before [] [] h)
    (hok : h.connectStages stages = (failed, connected, h')) (hstages : ∀ s ∈ stages, Bare s) :
    Books directory before (connected.flatMap PreparedStage.fds) [] h' := by
  obtain ⟨ends, hconnected, hends⟩ := fds_connectStages hok hstages
  have hopened :=
    hbooks.openEach (hconnected.handles directory) hconnected.nodup hconnected.free
  rw [List.append_nil] at hopened
  exact hopened.perm hends.symm

theorem books_of_buildStages {before : Host} {stages built : List PreparedStage}
    {failed : Option Failure}
    (hbooks : Books directory before (stages.flatMap PreparedStage.fds) [] h)
    (hok : h.buildStages directory stages = (failed, built, h'))
    (hstages : ∀ s ∈ stages, s.table? = none) :
    ∃ gone, (failed = none → gone = [])
      ∧ Books directory before (built.flatMap PreparedStage.fds) gone h' := by
  obtain ⟨opened, h₁, fds, hopened, rfl, hnone, hperm⟩ := fds_buildStages hok hstages
  have hfree : ∀ fd ∈ opened.map OpenedFile.fd, fd ∉ h.shell.slots :=
    List.forall_mem_map.mpr fun o ho => (hopened.fresh.1 o ho).1
  have hopen := hbooks.openEach hopened.handles hopened.fresh.2 hfree
  exact ⟨fds, hnone, (hopen.perm hperm.symm).close⟩

/-- **The ledger of a build.** -/
theorem books_of_buildJob (h : Host) (directory : NodeId) (searchPath : Bytes) (p : Pipeline) :
    ∃ acts l, h.Handles directory acts (h.buildJob directory searchPath p).2
      ∧ Ledger.recordAll {} acts = some l ∧ Booked l (h.buildJob directory searchPath p).1 := by
  unfold buildJob
  split
  · exact (Books.wrote (.refl h)).failed _
  obtain ⟨entries, hlogged⟩ := exists_logAll_prepareStages h directory searchPath 0 p.stages
  have hwrote : Books directory h [] [] (h.logAll entries) := .wrote (writes_logAll h entries)
  split
  · rename_i failure h₁ hprepare
    obtain rfl : h₁ = h.logAll entries := by rw [← hlogged, hprepare]
    exact hwrote.failed failure
  rename_i prepared h₁ hprepare
  obtain rfl : h₁ = h.logAll entries := by rw [← hlogged, hprepare]
  have hbare := bare_of_prepareStages (congrArg Prod.fst hprepare)
  split
  · rename_i failure connected h₂ hconnect
    exact (books_of_connectStages hwrote hconnect hbare).closeRest.failed failure
  rename_i connected h₂ hconnect
  have hpiped := books_of_connectStages hwrote hconnect hbare
  cases hbuild : h₂.buildStages directory connected with
  | mk result pair =>
  obtain ⟨built, h₃⟩ := pair
  obtain ⟨gone, hnone, hbuilt⟩ :=
    books_of_buildStages hpiped hbuild (table_connectStages hconnect hbare)
  cases result with
  | some failure => exact hbuilt.closeRest.failed failure
  | none =>
      obtain rfl := hnone rfl
      exact hbuilt.write (writes_log ..)

/-! ## A start -/

/-- A ledger tells of one more descriptor that is open. -/
theorem tells_inserted {before : Slots} {l : Ledger} {held : List Fd} {fd : Fd} {slot : Slot}
    {slots : Slots} (hl : l.Lists held []) (htells : l.Tells before slots) (hfree : fd ∉ slots) :
    ∃ l' : Ledger, l'.Lists (fd :: held) [] ∧ l'.Tells before (slots.insert fd slot) := by
  have hnew : fd ∉ held ++ [] := by
    rw [List.append_nil]
    exact fun hmem => hfree (htells.held fd (hl.held.mem_iff.mpr hmem)).1
  obtain ⟨l', hrecord, hl'⟩ := hl.opened hnew
  exact ⟨l', hl', htells.opened hfree hrecord⟩

theorem tells_duplicateStreams {before : Slots} {l : Ledger} {held : List Fd}
    {streams copies : List (Fd × Fd)} (hok : h.duplicateStreams streams = .ok (copies, h'))
    (hl : l.Lists held []) (htells : l.Tells before h.shell.slots) :
    ∃ l' : Ledger, l'.Lists (copies.map Prod.fst ++ held) [] ∧ l'.Tells before h'.shell.slots := by
  induction streams generalizing h l held copies with
  | nil =>
      obtain ⟨rfl, rfl⟩ := Prod.mk.inj (Except.ok.inj hok)
      exact ⟨l, hl, htells⟩
  | cons stream rest ih =>
      obtain ⟨⟨copy, h₁⟩, hduplicate, hok⟩ := Except.bind_eq_ok_iff.mp hok
      obtain ⟨⟨others, h₂⟩, hothers, hok⟩ := Except.bind_eq_ok_iff.mp hok
      obtain ⟨rfl, rfl⟩ := Prod.mk.inj (Except.ok.inj hok)
      obtain ⟨slots, hslots, rfl⟩ := duplicate_eq_ok hduplicate
      obtain ⟨slot, hallocate⟩ : ∃ slot, h.shell.slots.allocate h.slotLimit 3 slot
          = .ok (copy, slots) := by
        unfold Slots.duplicate at hslots
        split at hslots
        · cases hslots
        · exact ⟨_, hslots⟩
      obtain ⟨hfree, -, rfl⟩ := Slots.eq_insert_of_allocate hallocate
      obtain ⟨l₁, hl₁, htells₁⟩ := tells_inserted hl htells hfree
      obtain ⟨l₂, hl₂, htells₂⟩ := ih hothers hl₁ htells₁
      exact ⟨l₂, hl₂.perm List.perm_middle (.refl _), htells₂⟩

theorem tells_openReport {before : Slots} {l : Ledger} {held : List Fd} {fds : Fd × Fd}
    (hok : h.openReport = .ok (fds, h')) (hl : l.Lists held [])
    (htells : l.Tells before h.shell.slots) :
    ∃ l' : Ledger, l'.Lists (fds.2 :: fds.1 :: held) [] ∧ l'.Tells before h'.shell.slots := by
  unfold openReport at hok
  dsimp only at hok
  obtain ⟨⟨own, slots⟩, hown, hok⟩ := Except.bind_eq_ok_iff.mp hok
  obtain ⟨⟨other, slots'⟩, hother, hok⟩ := Except.bind_eq_ok_iff.mp hok
  obtain ⟨rfl, rfl⟩ := Prod.mk.inj (Except.ok.inj hok)
  obtain ⟨hfirst, -, rfl⟩ := Slots.eq_insert_of_allocate hown
  obtain ⟨hsecond, -, rfl⟩ := Slots.eq_insert_of_allocate hother
  obtain ⟨l₁, hl₁, htells₁⟩ := tells_inserted hl htells hfirst
  exact tells_inserted hl₁ htells₁ hsecond

theorem slots_split (h : Host) (directory : NodeId) (r : StartRequest) (copies : List (Fd × Fd))
    (reportFds : Fd × Fd) :
    (h.split directory r copies reportFds).2.shell.slots = h.shell.slots := by
  have hreport : ∀ (g : Host) (p : Machine.Process) (cause : OsError),
      (g.reportFailure p reportFds.2 cause).2.shell.slots = g.shell.slots := fun g p cause =>
    congrArg Machine.Outside.slots (shell_of_reportFailure (Prod.ext rfl rfl)).1
  unfold split
  dsimp only
  generalize hterminal : (if r.takesTerminal = true then
    { h with shell := { h.shell with foreground := some (r.group.getD h.world.nextPid) } }
    else h) = g
  have hslots : g.shell.slots = h.shell.slots := by
    rw [← hterminal]
    split <;> rfl
  rw [← hslots]
  split
  · exact hreport ..
  · split
    · exact hreport ..
    · rfl

/-- The descriptors that are opened to start a process are closed again,
whether it is started or not. -/
theorem getElem?_start (h : Host) (directory : NodeId) (r : StartRequest) (fd : Fd) :
    (h.start directory r).2.shell.slots[fd]? = h.shell.slots[fd]? := by
  unfold start
  split
  · rfl
  rename_i copies opened hcopies
  split
  · rfl
  split
  · rfl
  rename_i reportFds connected hreport
  obtain ⟨l₁, hl₁, htells₁⟩ := tells_duplicateStreams hcopies .empty (.start h.shell.slots)
  obtain ⟨l₂, hl₂, htells₂⟩ := tells_openReport hreport hl₁ htells₁
  have hperm : (reportFds.2 :: reportFds.1 :: (copies.map Prod.fst ++ [])).Perm
      ([reportFds.1, reportFds.2] ++ copies.map Prod.fst ++ []) :=
    (List.Perm.swap ..)
  obtain ⟨l₃, hcloses, hl₃⟩ := (hl₂.perm hperm (.refl _)).close
  have hsplit := slots_split connected directory r copies reportFds
  rw [← hsplit] at htells₂
  have htells₃ := htells₂.closed hcloses (getElem?_closeAll _ _)
  refine htells₃.others fd fun hmem => ?_
  rw [hl₃.held.eq_nil] at hmem
  exact List.not_mem_nil hmem

end Host

end JobShell
