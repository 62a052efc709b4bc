import JobShell.Proofs.Traffic
import Mathlib.Data.List.Perm.Subperm

/-!
# Jobs and queues that the traffic explains

`Traffic` allows every order of the threads of a session. A scheduler that
runs the jobs in an order of its own has some jobs, a queue and the notices
that were printed so far; they are `Explained` if some state that is reached
shows the same.

That state is not computed along. Each lemma of `Explained` is one thing that
can happen, to the first of the jobs and with any others behind it, so none
of them has to say what stays the same; only the steps of the traffic look
inside (`Traffic.Follows`).
-/

namespace JobShell

open Machine (Pid)

/-- A job that waits for its notice to be taken did so before, or has just
left it. -/
theorem Execution.Move.of_posting {e e' : Execution} {event : Event} (h : Move e event e')
    (hphase : e'.phase = .posting) : e.phase = .posting ∨ e.postsWith event ≠ [] := by
  have hposted : e'.phase.hasPosted = true := by rw [hphase]; rfl
  rcases h.hasPosted_iff.mp hposted with hbefore | hposts
  · refine Or.inl ?_
    cases hcase : e.phase with
    | posting => rfl
    | doneBackground =>
        -- Only a stage can still go on, and the job keeps its phase.
        cases h <;> simp_all [setProgress, Phase.afterBarrier?]
    | _ =>
        rw [hcase] at hbefore
        cases hbefore
  · exact Or.inr hposts

theorem Execution.posting_of_leave {e e' : Execution} {effects : List Effect}
    (hphase : e.phase = .runningBackground)
    (hstep : e.step .passedBarrier = some (e', effects)) : e'.phase = .posting := by
  refine (move_of_step hstep).posting_of_postsWith ?_
  rw [postsWith, if_pos hphase]
  exact List.cons_ne_nil e.notice []

theorem Execution.step_noticeTaken {e : Execution} (hphase : e.phase = .posting) :
    e.step .noticeTaken = some ({ e with phase := .doneBackground },
      [e.transition .runningBackground .doneBackground]) := by
  simp only [step, hphase]

namespace Traffic

/-! ## A state that explains others -/

/-- The numbered jobs were launched under their numbers, and the notices are
where the queue has them. The blocked posters may have come in another order
than those of the queue: jobs with the same description leave the same
notice. -/
structure Follows (t : Traffic) (jobs : List (Nat × Execution)) (q : NoticeQueue) : Prop where
  launched : ∀ x ∈ jobs, ∃ l, t.launches[x.1]? = some l ∧ l.execution = x.2
  waits : ∀ x ∈ jobs, x.2.phase = .posting → ∃ m ∈ t.held, m.owner = x.1
  distinct : (jobs.map Prod.fst).Nodup
  listens : t.listening = true ∧ q.listening = true
  capacity : t.capacity = q.capacity
  pending : t.pending.map Message.text = q.pending
  blocked : (t.held.map Message.text).Perm q.blocked

theorem mem_held_record {t : Traffic} {m : Message} (hm : m ∈ t.held) (i : Nat) (l : Launch)
    (event : Event) (e : Execution) (effects : List Effect) :
    m ∈ (t.record i l event e effects).held := by
  unfold record
  dsimp only
  split
  · exact List.mem_append_left _ hm
  · exact hm

namespace Follows

variable {t : Traffic} {jobs : List (Nat × Execution)} {q : NoticeQueue}

theorem subperm (h : t.Follows jobs q) {fewer : List (Nat × Execution)}
    (hsub : fewer.Subperm jobs) : t.Follows fewer q := by
  obtain ⟨kept, hperm, hsublist⟩ := hsub
  exact
    { h with
      launched := fun x hx => h.launched x (hsublist.subset (hperm.symm.subset hx))
      waits := fun x hx => h.waits x (hsublist.subset (hperm.symm.subset hx))
      distinct := (hperm.map Prod.fst).nodup_iff.mp (h.distinct.sublist (hsublist.map _)) }

theorem cons (h : t.Follows jobs q) {i : Nat} {l : Launch} (hother : i ∉ jobs.map Prod.fst)
    (hl : t.launches[i]? = some l)
    (hwaits : l.execution.phase = .posting → ∃ m ∈ t.held, m.owner = i) :
    t.Follows ((i, l.execution) :: jobs) q :=
  { h with
    launched := List.forall_mem_cons.mpr ⟨⟨l, hl, rfl⟩, h.launched⟩
    waits := List.forall_mem_cons.mpr ⟨hwaits, h.waits⟩
    distinct := List.nodup_cons.mpr ⟨hother, h.distinct⟩ }

/-- A launch does not concern the jobs there are. -/
theorem launch (h : t.Follows jobs q) (l : Launch) :
    Follows { t with launches := t.launches ++ [l] } jobs q :=
  { h with
    launched := fun x hx => by
      obtain ⟨k, hk, heq⟩ := h.launched x hx
      refine ⟨k, ?_, heq⟩
      rwa [List.getElem?_append_left (List.getElem?_eq_some_iff.mp hk).1] }

theorem length_notMem (h : t.Follows jobs q) : t.launches.length ∉ jobs.map Prod.fst := by
  intro hmem
  obtain ⟨x, hx, heq⟩ := List.mem_map.mp hmem
  obtain ⟨k, hk, -⟩ := h.launched x hx
  exact absurd (List.getElem?_eq_some_iff.mp hk).1 (heq ▸ Nat.lt_irrefl _)

theorem lt_capacity (h : t.Follows jobs q) (hroom : q.pending.length < q.capacity) :
    t.pending.length < t.capacity := by
  have hlength : t.pending.length = q.pending.length := by
    rw [← h.pending, List.length_map]
  rwa [h.capacity, hlength]

/-- What happens to another job. -/
theorem record (h : t.Follows jobs q) {i : Nat} (hother : i ∉ jobs.map Prod.fst) (l : Launch)
    (event : Event) (e : Execution) (effects : List Effect) :
    (t.record i l event e effects).Follows jobs
      { q with blocked := q.blocked ++ posts effects } := by
  have hheld : (t.record i l event e effects).held
      = t.held ++ (posts effects).map fun text => { owner := i, text } := if_pos h.listens.1
  exact
    { h with
      launched := fun x hx => by
        have hne : x.1 ≠ i := fun heq => hother (heq ▸ List.mem_map_of_mem hx)
        obtain ⟨k, hk, heq⟩ := h.launched x hx
        exact ⟨k, (getElem?_record_ne hne).trans hk, heq⟩
      waits := fun x hx hphase => by
        obtain ⟨m, hm, howner⟩ := h.waits x hx hphase
        exact ⟨m, hheld ▸ List.mem_append_left _ hm, howner⟩
      blocked := by
        rw [hheld, List.map_append, List.map_map]
        exact h.blocked.append (List.Perm.of_eq (List.map_id _)) }

/-- A notice of another job is accepted. -/
theorem accept (h : t.Follows jobs q) {m : Message} (hm : m ∈ t.held)
    (hother : m.owner ∉ jobs.map Prod.fst) {rest : List String}
    (hblocked : q.blocked.Perm (m.text :: rest)) :
    Follows { t with held := t.held.erase m, pending := t.pending ++ [m] } jobs
      { q with pending := q.pending ++ [m.text], blocked := rest } :=
  { h with
    waits := fun x hx hphase => by
      obtain ⟨m', hm', howner⟩ := h.waits x hx hphase
      have hne : m' ≠ m := by
        rintro rfl
        exact hother (howner ▸ List.mem_map_of_mem hx)
      exact ⟨m', (List.mem_erase_of_ne hne).mpr hm', howner⟩
    pending := by rw [List.map_append, h.pending]; rfl
    blocked := by
      have hheld := (List.perm_cons_erase hm).map Message.text
      exact (hheld.symm.trans (h.blocked.trans hblocked)).cons_inv }

/-- The session takes everything that is pending. -/
theorem takeAll {capacity : Nat} (h : t.Follows jobs q) (hreached : Reached capacity t) :
    ∃ t', Reached capacity t'
      ∧ t'.printed.map Message.text = t.printed.map Message.text ++ q.pending
      ∧ t'.Follows jobs { q with pending := [] } := by
  generalize hpending : t.pending = pending
  induction pending generalizing t q with
  | nil =>
      have hq : q.pending = [] := by rw [← h.pending, hpending]; rfl
      refine ⟨t, hreached, ?_, { h with pending := ?_ }⟩
      · rw [hq, List.append_nil]
      · rw [hpending]
        rfl
  | cons m rest ih =>
      have hfollows : Follows { t with pending := rest, printed := t.printed ++ [m] } jobs
          { q with pending := rest.map Message.text } := { h with pending := rfl }
      obtain ⟨t', hreached', hprinted, hfollows'⟩ :=
        ih hfollows (hreached.step (.received hpending)) rfl
      refine ⟨t', hreached', ?_, hfollows'⟩
      rw [hprinted, ← h.pending, hpending, List.map_append, List.append_assoc]
      rfl

end Follows

/-- Of the notices that are held no job has more than one. -/
theorem Sound.owner_ne_of_mem_erase {t : Traffic} (h : t.Sound) (hlistening : t.listening = true)
    {m m' : Message} (hm : m ∈ t.held) (hm' : m' ∈ t.held.erase m) : m'.owner ≠ m.owner := by
  have hnodup : ((t.printed ++ t.pending ++ t.held).map Message.owner).Nodup :=
    ((h.kept hlistening).map Message.owner).nodup_iff.mpr h.once
  rw [List.map_append] at hnodup
  have howners : (t.held.map Message.owner).Nodup := (List.nodup_append.mp hnodup).2.1
  rw [((List.perm_cons_erase hm).map Message.owner).nodup_iff, List.map_cons,
    List.nodup_cons] at howners
  intro heq
  exact howners.1 (heq ▸ List.mem_map_of_mem hm')

end Traffic

/-! ## The queue -/

namespace NoticeQueue

theorem post_accepted {q : NoticeQueue} (hlistening : q.listening = true)
    (hroom : q.pending.length < q.capacity) (notice : String) :
    (q.post notice).2 = { q with pending := q.pending ++ [notice] } := by
  simp [post, hlistening, hroom]

theorem post_blocked {q : NoticeQueue} (hlistening : q.listening = true)
    (hroom : ¬ q.pending.length < q.capacity) (notice : String) :
    (q.post notice).2 = { q with blocked := q.blocked ++ [notice] } := by
  simp [post, hlistening, hroom]

theorem drain_eq (q : NoticeQueue) :
    q.drain = (q.pending, { q with
      pending := q.blocked.take q.capacity, blocked := q.blocked.drop q.capacity }) := by
  rw [drain, refill, List.length_nil, Nat.sub_zero, List.nil_append]

end NoticeQueue

/-! ## Being explained -/

/-- Some state of the traffic explains the notices that were printed, the
jobs there are and the queue. -/
def Explained (capacity : Nat) (printed : List String) (jobs : List Execution)
    (q : NoticeQueue) : Prop :=
  ∃ (t : Traffic) (numbered : List (Nat × Execution)), Traffic.Reached capacity t
    ∧ t.printed.map Message.text = printed ∧ (numbered.map Prod.snd).Perm jobs
    ∧ t.Follows numbered q

namespace Explained

open Traffic

variable {capacity : Nat} {printed : List String} {jobs rest : List Execution} {e e' : Execution}
  {event : Event} {effects : List Effect} {q : NoticeQueue}

theorem start (capacity : Nat) :
    Explained (max capacity 1) [] [] (NoticeQueue.ofCapacity capacity) :=
  ⟨{ capacity := max capacity 1 }, [], .start, rfl, .refl _,
    { launched := by simp
      waits := by simp
      distinct := List.nodup_nil
      listens := ⟨rfl, rfl⟩
      capacity := rfl
      pending := rfl
      blocked := .refl _ }⟩

theorem listens (h : Explained capacity printed jobs q) : q.listening = true := by
  obtain ⟨t, numbered, -, -, -, hfollows⟩ := h
  exact hfollows.listens.2

/-- The order of the jobs does not matter, and some may be left out. -/
theorem subperm (h : Explained capacity printed jobs q) {fewer : List Execution}
    (hsub : fewer.Subperm jobs) : Explained capacity printed fewer q := by
  obtain ⟨t, numbered, hreached, hprinted, hperm, hfollows⟩ := h
  obtain ⟨kept, hkept, hsublist⟩ := hsub.trans hperm.symm.subperm
  obtain ⟨left, hleft, rfl⟩ := List.sublist_map_iff.mp hsublist
  exact ⟨t, left, hreached, hprinted, hkept, hfollows.subperm hleft.subperm⟩

theorem tail (h : Explained capacity printed (e :: rest) q) : Explained capacity printed rest q :=
  h.subperm (List.sublist_cons_self ..).subperm

/-- The launch of one of the jobs, and the state without it. -/
theorem exists_launch (h : Explained capacity printed (e :: rest) q) :
    ∃ (t : Traffic) (i : Nat) (l : Launch) (others : List (Nat × Execution)),
      Reached capacity t ∧ t.printed.map Message.text = printed
        ∧ (others.map Prod.snd).Perm rest ∧ t.Follows others q
        ∧ t.launches[i]? = some l ∧ l.execution = e ∧ i ∉ others.map Prod.fst
        ∧ (e.phase = .posting → ∃ m ∈ t.held, m.owner = i) := by
  obtain ⟨t, numbered, hreached, hprinted, hperm, hfollows⟩ := h
  obtain ⟨x, hx, rfl⟩ := List.mem_map.mp (hperm.mem_iff.mpr (List.mem_cons_self ..))
  obtain ⟨front, back, rfl⟩ := List.append_of_mem hx
  have hmiddle : (front ++ x :: back).Perm (x :: (front ++ back)) := List.perm_middle
  have hfollows' := hfollows.subperm hmiddle.symm.subperm
  obtain ⟨l, hl, heq⟩ := hfollows.launched x hx
  exact ⟨t, x.1, l, front ++ back, hreached, hprinted,
    ((hmiddle.map Prod.snd).symm.trans hperm).cons_inv,
    hfollows'.subperm (List.sublist_cons_self ..).subperm, hl, heq,
    (List.nodup_cons.mp hfollows'.distinct).1, hfollows.waits x hx⟩

/-- A job is launched. -/
theorem launch (h : Explained capacity printed jobs q) {p : Pipeline} {job : Job}
    (hjob : job.BuiltFrom p) (callerGroup : Pid) :
    Explained capacity printed (.ofJob job callerGroup :: jobs) q := by
  obtain ⟨t, numbered, hreached, hprinted, hperm, hfollows⟩ := h
  have hlaunch := hfollows.launch ⟨p, .ofJob job callerGroup, []⟩
  exact ⟨_, (t.launches.length, .ofJob job callerGroup) :: numbered,
    hreached.step (.launched callerGroup hjob), hprinted, hperm.cons _,
    hlaunch.cons hfollows.length_notMem List.getElem?_concat_length nofun⟩

/-- Something happens to a job that posts nothing. -/
theorem act (h : Explained capacity printed (e :: rest) q)
    (hstep : e.step event = some (e', effects)) (hposts : e.postsWith event = [])
    (htaken : event ≠ .noticeTaken) : Explained capacity printed (e' :: rest) q := by
  obtain ⟨t, i, l, others, hreached, hprinted, hperm, hfollows, hl, rfl, hother, hwaits⟩ :=
    h.exists_launch
  have hrecord := hfollows.record hother l event e' effects
  rw [Execution.posts_of_step hstep, hposts, List.append_nil] at hrecord
  refine ⟨_, (i, e') :: others, hreached.step (.acted hl hstep fun h => absurd h htaken),
    hprinted, hperm.cons e',
    hrecord.cons hother (getElem?_record_self hl) fun hphase => ?_⟩
  rcases (Execution.move_of_step hstep).of_posting hphase with hposting | hne
  · obtain ⟨m, hm, howner⟩ := hwaits hposting
    exact ⟨m, mem_held_record hm .., howner⟩
  · exact (hne hposts).elim

/-- A job leaves its notice, and has to wait until there is room. -/
theorem leave (h : Explained capacity printed (e :: rest) q)
    (hphase : e.phase = .runningBackground)
    (hstep : e.step .passedBarrier = some (e', effects)) :
    Explained capacity printed (e' :: rest) { q with blocked := q.blocked ++ [e.notice] } := by
  obtain ⟨t, i, l, others, hreached, hprinted, hperm, hfollows, hl, rfl, hother, -⟩ :=
    h.exists_launch
  have hposts : posts effects = [l.execution.notice] := by
    rw [Execution.posts_of_step hstep, Execution.postsWith, if_pos hphase]
  have hrecord := hfollows.record hother l .passedBarrier e' effects
  have hheld : ⟨i, l.execution.notice⟩ ∈ (t.record i l .passedBarrier e' effects).held := by
    rw [record, hposts]
    dsimp only
    rw [if_pos hfollows.listens.1]
    exact List.mem_append_right _ (List.mem_singleton_self _)
  rw [hposts] at hrecord
  have htaken : Event.passedBarrier ≠ .noticeTaken := by simp
  exact ⟨_, (i, e') :: others, hreached.step (.acted hl hstep fun h => absurd h htaken), hprinted,
    hperm.cons e',
    hrecord.cons hother (getElem?_record_self hl) fun _ => ⟨_, hheld, rfl⟩⟩

/-- There is room for a notice, and the job that left it goes on. -/
theorem accept (h : Explained capacity printed (e :: rest) q) (hphase : e.phase = .posting)
    {waiting : List String} (hblocked : q.blocked.Perm (e.notice :: waiting))
    (hroom : q.pending.length < q.capacity) :
    Explained capacity printed ({ e with phase := .doneBackground } :: rest)
      { q with pending := q.pending ++ [e.notice], blocked := waiting } := by
  obtain ⟨t, i, l, others, hreached, hprinted, hperm, hfollows, hl, rfl, hother, hwaits⟩ :=
    h.exists_launch
  obtain ⟨m, hm, rfl⟩ := hwaits hphase
  have hsound := hreached.sound
  have htext : m.text = l.execution.notice := hsound.text m (hsound.held m hm).1 l hl
  have haccepted := hfollows.accept hm hother (htext ▸ hblocked)
  have hstep := Execution.step_noticeTaken hphase
  have hfree : ∀ m' ∈ t.held.erase m, m'.owner ≠ m.owner := fun m' hm' =>
    hsound.owner_ne_of_mem_erase hfollows.listens.1 hm hm'
  have hreached' := (hreached.step (.accepted hm (hfollows.lt_capacity hroom))).step
    (.acted hl hstep fun _ => hfree)
  have hrecord := haccepted.record hother l .noticeTaken
    { l.execution with phase := .doneBackground }
    [l.execution.transition .runningBackground .doneBackground]
  rw [htext, show posts [l.execution.transition _ _] = [] from rfl, List.append_nil] at hrecord
  exact ⟨_, (m.owner, _) :: others, hreached', hprinted, hperm.cons _,
    hrecord.cons hother (getElem?_record_self hl) nofun⟩

/-- A job leaves its notice, and there is room for it. -/
theorem leave_accepted (h : Explained capacity printed (e :: rest) q)
    (hphase : e.phase = .runningBackground)
    (hstep : e.step .passedBarrier = some (e', effects))
    (hroom : q.pending.length < q.capacity) :
    Explained capacity printed ({ e' with phase := .doneBackground } :: rest)
      { q with pending := q.pending ++ [e.notice] } := by
  have hnotice := (Execution.move_of_step hstep).notice
  have hblocked : (q.blocked ++ [e.notice]).Perm (e'.notice :: q.blocked) := by
    rw [hnotice]
    exact List.perm_append_singleton ..
  have haccept := (h.leave hphase hstep).accept (Execution.posting_of_leave hphase hstep) hblocked
    hroom
  rwa [hnotice] at haccept

/-- There is room for a notice that none of the jobs has left. -/
theorem accept_other (h : Explained capacity printed jobs q) {notice : String}
    (hother : ∀ e ∈ jobs, e.phase = .posting → e.notice ≠ notice) {waiting : List String}
    (hblocked : q.blocked.Perm (notice :: waiting)) (hroom : q.pending.length < q.capacity) :
    Explained capacity printed jobs
      { q with pending := q.pending ++ [notice], blocked := waiting } := by
  obtain ⟨t, numbered, hreached, hprinted, hperm, hfollows⟩ := h
  have hmem : notice ∈ t.held.map Message.text :=
    (hfollows.blocked.trans hblocked).mem_iff.mpr (List.mem_cons_self ..)
  obtain ⟨m, hm, rfl⟩ := List.mem_map.mp hmem
  have hsound := hreached.sound
  obtain ⟨hposted, l, hl, hphase⟩ := hsound.held m hm
  have howner : m.owner ∉ numbered.map Prod.fst := by
    intro hmem
    obtain ⟨x, hx, heq⟩ := List.mem_map.mp hmem
    obtain ⟨k, hk, hexecution⟩ := hfollows.launched x hx
    rw [heq, hl] at hk
    obtain rfl := Option.some.inj hk
    rw [hexecution] at hphase
    refine hother x.2 (hperm.mem_iff.mp (List.mem_map_of_mem hx)) hphase ?_
    rw [← hexecution]
    exact (hsound.text m hposted l hl).symm
  exact ⟨_, numbered, hreached.step (.accepted hm (hfollows.lt_capacity hroom)), hprinted, hperm,
    hfollows.accept hm howner hblocked⟩

/-- The session takes everything that is pending. -/
theorem takeAll (h : Explained capacity printed jobs q) :
    Explained capacity (printed ++ q.pending) jobs { q with pending := [] } := by
  obtain ⟨t, numbered, hreached, rfl, hperm, hfollows⟩ := h
  obtain ⟨t', hreached', hprinted, hfollows'⟩ := hfollows.takeAll hreached
  exact ⟨t', numbered, hreached', hprinted, hperm, hfollows'⟩

end Explained

end JobShell
