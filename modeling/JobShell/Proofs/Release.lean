import JobShell.Barrier
import JobShell.Numbers
import Mathlib.Data.List.Perm.Basic

/-!
# Who is released at a barrier

Threads count down and wait at a barrier in any order. After every such run
the room is `Settled`: the count is what the arrivals and forfeits have left
of it, whatever their order was. Waits were released only when that was
nothing, and from then on nobody is parked who was not notified.

`Sound` carries this from step to step. The one step that can bring the count
to zero is the one that empties the list of parked threads, and at zero nobody
joins it.
-/

namespace JobShell.Barrier

/-! ## Actions -/

/-- By how much an action counts down. -/
def Action.amount : Action → Nat
  | arrive => 1
  | forfeit count => count
  | wait _ | wake _ | expire _ => 0

def Action.countsDown : Action → Bool
  | arrive | forfeit _ => true
  | wait _ | wake _ | expire _ => false

/-- The wait that an action begins. -/
def Action.begins? : Action → Option Waiter
  | wait w => some w
  | arrive | forfeit _ | wake _ | expire _ => none

/-- By how much some actions count down together. -/
def total (actions : List Action) : Nat := (actions.map Action.amount).sum

theorem total_cons (a : Action) (actions : List Action) :
    total (a :: actions) = a.amount + total actions := List.sum_cons

theorem total_append (actions more : List Action) :
    total (actions ++ more) = total actions + total more := by
  simp [total]

/-- Only the actions that count down matter. -/
theorem total_filter (actions : List Action) :
    total (actions.filter Action.countsDown) = total actions := by
  induction actions with
  | nil => rfl
  | cons a actions ih =>
      cases a with
      | arrive | forfeit _ =>
          rw [List.filter_cons_of_pos rfl, total_cons, total_cons, ih]
      | wait _ | wake _ | expire _ =>
          rw [List.filter_cons_of_neg Bool.false_ne_true, total_cons, ih, Action.amount,
            Nat.zero_add]

theorem total_eq_of_perm {actions other : List Action}
    (h : (actions.filter Action.countsDown).Perm (other.filter Action.countsDown)) :
    total actions = total other := by
  rw [← total_filter actions, ← total_filter other]
  exact (h.map Action.amount).sum_nat

namespace Room

/-- Nobody waits yet for `count` stages. -/
def ofCount (count : Nat) : Room where
  barrier := ⟨count⟩

variable {r r' m : Room} {w : Waiter} {count counted : Nat} {began : List Waiter}

theorem isOpen_iff : r.barrier.isOpen = true ↔ r.barrier.remaining = 0 := decide_eq_true_iff

/-! ## What every step keeps -/

/-- What holds after `counted` of `count` stages were counted down and the
waits `began`. -/
structure Sound (count counted : Nat) (began : List Waiter) (r : Room) : Prop where
  remaining : r.barrier.remaining = count - counted
  awake : r.barrier.remaining = 0 → r.parked = []
  released : ∀ w, (w, true) ∈ r.ended → count ≤ counted
  gaveUp : ∀ w, (w, false) ∈ r.ended → w.timed = true
  waits : (r.parked ++ r.notified ++ r.ended.map Prod.fst).Perm began

theorem sound_ofCount (count : Nat) : (ofCount count).Sound count 0 [] where
  remaining := rfl
  awake _ := rfl
  released := nofun
  gaveUp := nofun
  waits := .refl []

theorem Sound.isOpen_iff (h : r.Sound count counted began) :
    r.barrier.isOpen = true ↔ count ≤ counted := by
  rw [Room.isOpen_iff, h.remaining]
  omega

theorem Sound.countDown (h : r.Sound count counted began) (amount : Nat) :
    (r.countDown amount).Sound count (counted + amount) began := by
  have hremaining : (r.barrier.forfeit amount).remaining = count - (counted + amount) := by
    simp only [forfeit, h.remaining]
    omega
  have hreleased : ∀ w, (w, true) ∈ r.ended → count ≤ counted + amount := by
    intro w hw
    have := h.released w hw
    omega
  unfold Room.countDown
  dsimp only
  split
  · refine ⟨hremaining, fun _ => rfl, hreleased, h.gaveUp, ?_⟩
    have hmoved : (r.notified ++ r.parked).Perm (r.parked ++ r.notified) := List.perm_append_comm
    exact (hmoved.append_right _).trans h.waits
  · rename_i hclosed
    refine ⟨hremaining, fun hzero => ?_, hreleased, h.gaveUp, h.waits⟩
    exact (hclosed (decide_eq_true hzero)).elim

/-- A thread that begins to wait, or goes on. -/
theorem Sound.look (h : r.Sound count counted began) (w : Waiter) :
    (r.look w).Sound count counted (w :: began) := by
  unfold Room.look
  split
  · rename_i hopen
    refine ⟨h.remaining, h.awake, fun _ _ => h.isOpen_iff.mp hopen, ?_, ?_⟩
    · intro v hv
      rcases List.mem_cons.mp hv with heq | hv
      · cases heq
      · exact h.gaveUp v hv
    · rw [List.map_cons]
      exact List.perm_middle.trans (h.waits.cons w)
  · rename_i hclosed
    refine ⟨h.remaining, fun hzero => ?_, h.released, h.gaveUp, h.waits.cons w⟩
    exact (hclosed (Room.isOpen_iff.mpr hzero)).elim

theorem Sound.giveUp (h : r.Sound count counted began) (hw : w.timed = true) :
    (r.giveUp w).Sound count counted (w :: began) where
  remaining := h.remaining
  awake := h.awake
  released v hv := by
    rcases List.mem_cons.mp hv with heq | hv
    · exact h.isOpen_iff.mp (Prod.mk.inj heq).2.symm
    · exact h.released v hv
  gaveUp v hv := by
    rcases List.mem_cons.mp hv with heq | hv
    · rwa [(Prod.mk.inj heq).1]
    · exact h.gaveUp v hv
  waits := by
    rw [Room.giveUp, List.map_cons]
    exact List.perm_middle.trans (h.waits.cons w)

/-- A thread that wakes up was waiting. -/
theorem Sound.rouse (h : r.Sound count counted began) (hrouse : r.rouse w = some m) :
    ∃ others, began.Perm (w :: others) ∧ m.Sound count counted others := by
  unfold Room.rouse at hrouse
  split at hrouse
  · rename_i hmem
    obtain rfl := Option.some.inj hrouse
    have hout : (r.parked ++ r.notified ++ r.ended.map Prod.fst).Perm
        (w :: (r.parked ++ r.notified.erase w ++ r.ended.map Prod.fst)) :=
      ((List.perm_cons_erase hmem).append_left r.parked |>.trans List.perm_middle).append_right _
    exact ⟨_, h.waits.symm.trans hout, h.remaining, h.awake, h.released, h.gaveUp, .refl _⟩
  split at hrouse
  · rename_i hmem
    obtain rfl := Option.some.inj hrouse
    have hout : (r.parked ++ r.notified ++ r.ended.map Prod.fst).Perm
        (w :: (r.parked.erase w ++ r.notified ++ r.ended.map Prod.fst)) :=
      ((List.perm_cons_erase hmem).append_right r.notified).append_right _
    refine ⟨_, h.waits.symm.trans hout, h.remaining, fun hzero => ?_, h.released, h.gaveUp, .refl _⟩
    rw [h.awake hzero]
    rfl
  · cases hrouse

theorem Sound.perm {began' : List Waiter} (h : r.Sound count counted began)
    (hperm : began.Perm began') : r.Sound count counted began' :=
  { h with waits := h.waits.trans hperm }

theorem Sound.step {a : Action} (h : r.Sound count counted began) (hstep : r.step a = some r') :
    r'.Sound count (counted + a.amount) (began ++ a.begins?.toList) := by
  have hnone : began.Perm (began ++ []) := by rw [List.append_nil]
  cases a with
  | arrive =>
      obtain rfl := Option.some.inj hstep
      exact (h.countDown 1).perm hnone
  | forfeit amount =>
      obtain rfl := Option.some.inj hstep
      exact (h.countDown amount).perm hnone
  | wait w =>
      simp only [Room.step] at hstep
      split at hstep
      · cases hstep
      · obtain rfl := Option.some.inj hstep
        exact (h.look w).perm (List.perm_append_singleton w began).symm
  | wake w =>
      obtain ⟨m, hrouse, rfl⟩ := Option.map_eq_some_iff.mp hstep
      obtain ⟨others, hperm, hm⟩ := h.rouse hrouse
      exact (hm.look w).perm (hperm.symm.trans hnone)
  | expire w =>
      simp only [Room.step] at hstep
      split at hstep
      · rename_i htimed
        obtain ⟨m, hrouse, rfl⟩ := Option.map_eq_some_iff.mp hstep
        obtain ⟨others, hperm, hm⟩ := h.rouse hrouse
        exact (hm.giveUp htimed).perm (hperm.symm.trans hnone)
      · cases hstep

theorem Sound.run {actions : List Action} (h : r.Sound count counted began)
    (hrun : r.run actions = some r') :
    r'.Sound count (counted + total actions) (began ++ actions.filterMap Action.begins?) := by
  induction actions generalizing r counted began with
  | nil =>
      obtain rfl := Option.some.inj hrun
      exact h.perm (by simp)
  | cons a actions ih =>
      obtain ⟨m, hstep, hrest⟩ := Option.bind_eq_some_iff.mp hrun
      have hlast := ih (h.step hstep) hrest
      rw [Nat.add_assoc, ← total_cons, List.append_assoc] at hlast
      refine hlast.perm (.of_eq ?_)
      cases hbegins : a.begins? <;> simp [hbegins]

/-! ## Whole runs -/

/-- Where nothing remains, a thread that was notified gets out as soon as it
wakes up. -/
theorem exists_released (hzero : r.barrier.remaining = 0) (hw : w ∈ r.notified) :
    ∃ r', r.step (.wake w) = some r' ∧ (w, true) ∈ r'.ended := by
  have hopen := isOpen_iff.mpr hzero
  have hrouse : r.rouse w = some { r with notified := r.notified.erase w } := if_pos hw
  refine ⟨_, by rw [step, hrouse, Option.map_some], ?_⟩
  simp [look, hopen]

/-- What holds in the room of a barrier for `count` after some actions. -/
structure Settled (count : Nat) (actions : List Action) (r : Room) : Prop where
  remaining : r.barrier.remaining = count - total actions
  /-- The order of the arrivals and forfeits does not matter, and neither do
  the waits between them. -/
  reordered : ∀ other r', (ofCount count).run other = some r' →
    (other.filter Action.countsDown).Perm (actions.filter Action.countsDown) →
    r'.barrier = r.barrier
  /-- At no moment before did less remain. -/
  decreasing : ∀ front back m, actions = front ++ back → (ofCount count).run front = some m →
    r.barrier.remaining ≤ m.barrier.remaining
  /-- A wait has returned `true` only if everything was counted down. -/
  released : ∀ w, (w, true) ∈ r.ended → count ≤ total actions
  /-- Other waits have not returned unless they were timed. -/
  gaveUp : ∀ w, (w, false) ∈ r.ended → w.timed = true
  /-- No wake-up is lost. -/
  awake : r.barrier.remaining = 0 → r.parked = []
  leaves : r.barrier.remaining = 0 → ∀ w ∈ r.notified,
    ∃ r', r.step (.wake w) = some r' ∧ (w, true) ∈ r'.ended
  /-- Nobody who began to wait is forgotten. -/
  waits : (r.parked ++ r.notified ++ r.ended.map Prod.fst).Perm
    (actions.filterMap Action.begins?)

theorem sound_of_run {actions : List Action} (hrun : (ofCount count).run actions = some r) :
    r.Sound count (total actions) (actions.filterMap Action.begins?) := by
  have hsound := (sound_ofCount count).run hrun
  rwa [Nat.zero_add, List.nil_append] at hsound

/-- **Counting down exactly.** Whatever threads count down and wait at a
barrier, in whatever order, the room is settled. -/
theorem settled_of_run {actions : List Action} (hrun : (ofCount count).run actions = some r) :
    r.Settled count actions := by
  have hsound := sound_of_run hrun
  exact
    { remaining := hsound.remaining
      reordered := by
        intro other r' hother hperm
        have hremaining := (sound_of_run hother).remaining
        rw [total_eq_of_perm hperm, ← hsound.remaining] at hremaining
        exact congrArg Barrier.mk hremaining
      decreasing := by
        rintro front back m rfl hfront
        rw [hsound.remaining, (sound_of_run hfront).remaining, total_append]
        omega
      released := hsound.released
      gaveUp := hsound.gaveUp
      awake := hsound.awake
      leaves := fun hzero w hw => exists_released hzero hw
      waits := hsound.waits }

/-- Of three stages one arrives and two are forfeited twice. A timed wait ends
before that, one thread looks too early, and one comes when all is over. -/
theorem settled_two_parked :
    ∃ r, (ofCount 3).run
        [.wait ⟨0, false⟩, .wait ⟨1, true⟩, .arrive, .wait ⟨2, true⟩, .expire ⟨1, true⟩,
          .wake ⟨0, false⟩, .forfeit 2, .forfeit 2, .wake ⟨0, false⟩, .wait ⟨3, false⟩] = some r
      ∧ r.notified = [⟨2, true⟩]
      ∧ r.ended = [(⟨3, false⟩, true), (⟨0, false⟩, true), (⟨1, true⟩, false)]
      ∧ r.Settled 3
        [.wait ⟨0, false⟩, .wait ⟨1, true⟩, .arrive, .wait ⟨2, true⟩, .expire ⟨1, true⟩,
          .wake ⟨0, false⟩, .forfeit 2, .forfeit 2, .wake ⟨0, false⟩, .wait ⟨3, false⟩] :=
  ⟨_, rfl, rfl, rfl, settled_of_run rfl⟩

end Room

end JobShell.Barrier
