import JobShell.NoticeQueue
import Mathlib.Data.Fintype.EquivFin
import Mathlib.Data.List.Nodup
import Mathlib.Data.List.Perm.Basic

/-!
# Posting and taking in any order

`NoticeQueue` says what one call does to the queue, with nobody in between.
Posters are threads of their own, though: any of them may find the room that
a receive makes, a drain takes one message after the other while others are
posted, and who listens may be gone while posters are blocked. `Exchange` is
the queue with its posters at one moment, `Exchange.Step` is one step of one
thread, and a `Run` is any order of such steps.

`NoticeQueue.lossless` has both directions. After every run the exchange is
`Orderly`: bounded, first in first out, and without losses while somebody
listens. And every sequence of calls of the queue is such a run, in which
blocked posters go on as soon as they can and in the order they came.
-/

namespace JobShell

/-! ## Exchanges -/

/-- A message that a thread posts. Messages are told apart by their number,
not by their text. -/
structure Letter where
  number : Nat
  thread : Nat
  text : String
  deriving DecidableEq, Repr

/-- What one of the threads does. -/
inductive Exchange.Action
  /-- A thread begins to post; the call returns unless it is blocked. -/
  | post (thread : Nat) (text : String)
  /-- A blocked poster finds room and returns. -/
  | enter (l : Letter)
  /-- A blocked poster learns that nobody listens and returns. -/
  | release (l : Letter)
  /-- A timed receive returns a message. -/
  | receive
  /-- A timed receive returns without one. -/
  | expire
  | beginDrain
  | takeDrained
  | endDrain
  | close
  deriving DecidableEq, Repr

/-- A queue with its posters and what went through it. -/
structure Exchange where
  capacity : Nat
  listening : Bool := true
  /-- Whether the listener is in a drain. -/
  draining : Bool := false
  /-- All messages, in the order in which their posts began. -/
  posted : List Letter := []
  /-- The messages that found room, in this order. -/
  accepted : List Letter := []
  /-- The accepted messages that were not taken. -/
  pending : List Letter := []
  blocked : List Letter := []
  /-- What was taken by drains and by timed receives. -/
  returned : List Letter := []
  deriving DecidableEq, Repr

namespace Exchange

/-- An empty exchange for `capacity` messages, or for one if that is zero. -/
def ofCapacity (capacity : Nat) : Exchange where
  capacity := max capacity 1

/-- The thread is not in a blocked post. -/
def IsFree (e : Exchange) (thread : Nat) : Prop := thread ∉ e.blocked.map Letter.thread

instance (e : Exchange) (thread : Nat) : Decidable (e.IsFree thread) :=
  inferInstanceAs (Decidable (_ ∉ _))

/-- The next message. -/
def letter (e : Exchange) (thread : Nat) (text : String) : Letter :=
  ⟨e.posted.length, thread, text⟩

/-- The exchange with a message that found room. -/
def accept (e : Exchange) (l : Letter) : Exchange :=
  { e with accepted := e.accepted ++ [l], pending := e.pending ++ [l] }

/-- The exchange with a message that was taken, if `rest` stays. -/
def take (e : Exchange) (l : Letter) (rest : List Letter) : Exchange :=
  { e with pending := rest, returned := e.returned ++ [l] }

/-- One step of one thread. -/
inductive Step (e : Exchange) : Action → Exchange → Prop
  | accepted {thread : Nat} {text : String} (hfree : e.IsFree thread) (hlisten : e.listening = true)
      (hroom : e.pending.length < e.capacity) :
      Step e (.post thread text)
        ({ e with posted := e.posted ++ [e.letter thread text] }.accept (e.letter thread text))
  | blocked {thread : Nat} {text : String} (hfree : e.IsFree thread) (hlisten : e.listening = true)
      (hfull : e.capacity ≤ e.pending.length) :
      Step e (.post thread text)
        { e with
          posted := e.posted ++ [e.letter thread text]
          blocked := e.blocked ++ [e.letter thread text] }
  | unheard {thread : Nat} {text : String} (hfree : e.IsFree thread)
      (hdeaf : e.listening = false) :
      Step e (.post thread text) { e with posted := e.posted ++ [e.letter thread text] }
  | entered {l : Letter} (hblocked : l ∈ e.blocked) (hlisten : e.listening = true)
      (hroom : e.pending.length < e.capacity) :
      Step e (.enter l) ({ e with blocked := e.blocked.erase l }.accept l)
  | released {l : Letter} (hblocked : l ∈ e.blocked) (hdeaf : e.listening = false) :
      Step e (.release l) { e with blocked := e.blocked.erase l }
  | received {l : Letter} {rest : List Letter} (hlisten : e.listening = true)
      (hidle : e.draining = false) (hpending : e.pending = l :: rest) :
      Step e .receive (e.take l rest)
  | expired (hlisten : e.listening = true) (hidle : e.draining = false)
      (hpending : e.pending = []) : Step e .expire e
  | drainBegan (hlisten : e.listening = true) (hidle : e.draining = false) :
      Step e .beginDrain { e with draining := true }
  | drained {l : Letter} {rest : List Letter} (hdraining : e.draining = true)
      (hpending : e.pending = l :: rest) : Step e .takeDrained (e.take l rest)
  | drainEnded (hdraining : e.draining = true) (hpending : e.pending = []) :
      Step e .endDrain { e with draining := false }
  | closed (hlisten : e.listening = true) (hidle : e.draining = false) :
      Step e .close { e with listening := false }

/-- The actions lead from the first exchange to the last. -/
inductive Run : Exchange → List Action → Exchange → Prop
  | nil (e : Exchange) : Run e [] e
  | cons {e e' e'' : Exchange} {a : Action} {rest : List Action} (hstep : e.Step a e')
      (hrest : Run e' rest e'') : Run e (a :: rest) e''

variable {e e' e'' : Exchange} {a : Action} {actions more : List Action}

theorem Step.run (h : e.Step a e') : Run e [a] e' := .cons h (.nil e')

theorem Run.append (h : Run e actions e') (h' : Run e' more e'') :
    Run e (actions ++ more) e'' := by
  induction h with
  | nil => exact h'
  | cons hstep _ ih => exact .cons hstep (ih h')

/-- What every step keeps holds after every run. -/
theorem Run.keeps {P : Exchange → Prop} (h : Run e actions e')
    (hstep : ∀ e a e', a ∈ actions → e.Step a e' → P e → P e') (he : P e) : P e' := by
  induction h with
  | nil => exact he
  | cons hfirst _ ih =>
      exact ih (fun e a e' ha => hstep e a e' (List.mem_cons_of_mem _ ha))
        (hstep _ _ _ (List.mem_cons_self ..) hfirst he)

/-! ## What every step keeps -/

/-- What holds of the messages at any time. -/
structure Sound (bound : Nat) (e : Exchange) : Prop where
  capacity : e.capacity = bound
  room : e.pending.length ≤ bound
  order : e.returned ++ e.pending = e.accepted
  numbers : e.posted.map Letter.number = List.range e.posted.length
  places : e.listening = true → (e.accepted ++ e.blocked).Perm e.posted
  /-- A thread is in one post at a time. -/
  threads : (e.blocked.map Letter.thread).Nodup

theorem numbers_append {posted : List Letter}
    (h : posted.map Letter.number = List.range posted.length) (thread : Nat) (text : String) :
    (posted ++ [Letter.mk posted.length thread text]).map Letter.number
      = List.range (posted ++ [Letter.mk posted.length thread text]).length := by
  rw [List.map_append, h, List.length_append, List.length_singleton, List.range_succ]
  rfl

/-- The oldest message is taken. -/
theorem Sound.take {bound : Nat} (h : Sound bound e) {l : Letter} {rest : List Letter}
    (hpending : e.pending = l :: rest) : Sound bound (e.take l rest) := by
  have horder : e.returned ++ l :: rest = e.accepted := hpending ▸ h.order
  have hroom : (l :: rest).length ≤ bound := hpending ▸ h.room
  exact
    { capacity := h.capacity
      room := Nat.le_of_succ_le hroom
      order := by
        rw [Exchange.take, List.append_assoc]
        exact horder
      numbers := h.numbers
      places := h.places
      threads := h.threads }

/-- A message from outside the blocked ones finds room. -/
theorem Sound.accept {bound : Nat} (h : Sound bound e)
    (hroom : e.pending.length < e.capacity) {posted blocked : List Letter} {l : Letter}
    (hnumbers : posted.map Letter.number = List.range posted.length)
    (hplaces : e.listening = true → (e.accepted ++ l :: blocked).Perm posted)
    (hthreads : (blocked.map Letter.thread).Nodup) :
    Sound bound ({ e with posted, blocked }.accept l) where
  capacity := h.capacity
  room := by
    rw [Exchange.accept, List.length_append, ← h.capacity]
    exact hroom
  order := by rw [Exchange.accept, ← List.append_assoc, h.order]
  numbers := hnumbers
  places hlisten := by
    rw [Exchange.accept, List.append_assoc]
    exact hplaces hlisten
  threads := hthreads

theorem Sound.step {bound : Nat} (h : Sound bound e) (hstep : e.Step a e') :
    Sound bound e' := by
  cases hstep with
  | @accepted thread text hfree hlisten hroom =>
      refine h.accept hroom (numbers_append h.numbers thread text) (fun hlisten => ?_) h.threads
      have hposted := (h.places hlisten).cons (e.letter thread text)
      exact (List.perm_middle.trans hposted).trans (List.perm_append_singleton ..).symm
  | @blocked thread text hfree hlisten hfull =>
      exact
        { capacity := h.capacity
          room := h.room
          order := h.order
          numbers := numbers_append h.numbers thread text
          places := fun hlisten => by
            rw [← List.append_assoc]
            exact (h.places hlisten).append_right _
          threads := by
            rw [List.map_append, List.map_singleton]
            exact List.nodup_append_comm.mpr (List.nodup_cons.mpr ⟨hfree, h.threads⟩) }
  | @unheard thread text hfree hdeaf =>
      exact
        { capacity := h.capacity
          room := h.room
          order := h.order
          numbers := numbers_append h.numbers thread text
          places := fun hlisten => absurd hdeaf (ne_false_of_eq_true hlisten)
          threads := h.threads }
  | @entered l hblocked hlisten hroom =>
      refine h.accept hroom h.numbers (fun hlisten => ?_) ?_
      · exact ((List.perm_cons_erase hblocked).symm.append_left _).trans (h.places hlisten)
      · exact h.threads.sublist ((List.erase_sublist ..).map _)
  | @released l hblocked hdeaf =>
      exact
        { capacity := h.capacity
          room := h.room
          order := h.order
          numbers := h.numbers
          places := fun hlisten => absurd hdeaf (ne_false_of_eq_true hlisten)
          threads := h.threads.sublist ((List.erase_sublist ..).map _) }
  | received _ _ hpending | drained _ hpending => exact h.take hpending
  | expired _ _ _ => exact h
  | drainBegan _ _ | drainEnded _ _ =>
      exact ⟨h.capacity, h.room, h.order, h.numbers, h.places, h.threads⟩
  | closed _ _ => exact ⟨h.capacity, h.room, h.order, h.numbers, nofun, h.threads⟩

theorem Sound.run {bound : Nat} (h : Sound bound e) (hrun : Run e actions e') :
    Sound bound e' :=
  hrun.keeps (fun _ _ _ _ hstep hsound => hsound.step hstep) h

/-! ## What later steps do -/

variable {bound : Nat} {l : Letter}

end Exchange

namespace NoticeQueue

/-- What is done with a queue. -/
inductive Call
  | post (notice : String)
  | next
  | drain
  | close
  deriving DecidableEq, Repr

/-- The notices that a call returns, and the queue after it. -/
def call (q : NoticeQueue) : Call → List String × NoticeQueue
  | .post notice => ([], (q.post notice).2)
  | .next =>
    match q.next with
    | some (notice, q) => ([notice], q)
    | none => ([], q)
  | .drain => q.drain
  | .close => ([], q.close)

/-- All notices that some calls return, and the queue after them. -/
def calls (q : NoticeQueue) : List Call → List String × NoticeQueue
  | [] => ([], q)
  | c :: rest =>
    let (taken, q) := q.call c
    let (more, q) := calls q rest
    (taken ++ more, q)

end NoticeQueue

namespace Exchange

/-- The exchange is the queue, between two calls, and `taken` was returned. -/
structure Shows (e : Exchange) (taken : List String) (q : NoticeQueue) : Prop where
  capacity : e.capacity = q.capacity
  listening : e.listening = q.listening
  idle : e.draining = false
  pending : e.listening = true → e.pending.map Letter.text = q.pending
  blocked : e.blocked.map Letter.text = q.blocked
  returned : e.returned.map Letter.text = taken
  /-- What is pending when the listener goes is not kept. -/
  dropped : e.listening = false → q.pending = [] ∧ q.blocked = []

variable {e e' : Exchange} {q : NoticeQueue} {taken : List String}

theorem exists_isFree (e : Exchange) : ∃ thread, e.IsFree thread := by
  obtain ⟨thread, hthread⟩ := Infinite.exists_notMem_finset (e.blocked.map Letter.thread).toFinset
  exact ⟨thread, fun hmem => hthread (List.mem_toFinset.mpr hmem)⟩

/-- Some posters go on, one after the other. -/
theorem run_enters {front back : List Letter} (hblocked : e.blocked = front ++ back)
    (hlisten : e.listening = true) (hroom : front.length ≤ e.capacity - e.pending.length) :
    Run e (front.map .enter)
      { e with
        blocked := back
        accepted := e.accepted ++ front
        pending := e.pending ++ front } := by
  induction front generalizing e with
  | nil =>
      rw [List.nil_append] at hblocked
      subst hblocked
      simpa using Run.nil e
  | cons l front ih =>
      rw [List.length_cons] at hroom
      have hmem : l ∈ e.blocked := hblocked ▸ List.mem_cons_self ..
      have herase : e.blocked.erase l = front ++ back := by
        rw [hblocked, List.cons_append, List.erase_cons_head]
      have hless : front.length ≤ e.capacity - (e.pending ++ [l]).length := by
        rw [List.length_append, List.length_singleton]
        omega
      have hrest := ih (e := { e with blocked := e.blocked.erase l }.accept l) herase hlisten hless
      refine .cons (.entered hmem hlisten (by omega)) ?_
      simpa [accept] using hrest

/-- Nobody listens, and the posters return. -/
theorem run_releases {ls : List Letter} (hblocked : e.blocked = ls)
    (hdeaf : e.listening = false) : Run e (ls.map .release) { e with blocked := [] } := by
  induction ls generalizing e with
  | nil =>
      have hsame : { e with blocked := [] } = e := by rw [← hblocked]
      rw [hsame]
      exact .nil e
  | cons l rest ih =>
      have hmem : l ∈ e.blocked := hblocked ▸ List.mem_cons_self ..
      have herase : e.blocked.erase l = rest := by rw [hblocked, List.erase_cons_head]
      have hrest := ih (e := { e with blocked := e.blocked.erase l }) herase hdeaf
      exact .cons (.released hmem hdeaf) hrest

theorem run_takes {ls : List Letter} (hpending : e.pending = ls) (hdraining : e.draining = true) :
    Run e (ls.map fun _ => .takeDrained)
      { e with pending := [], returned := e.returned ++ ls } := by
  induction ls generalizing e with
  | nil =>
      have hsame : { e with pending := [], returned := e.returned ++ [] } = e := by
        rw [List.append_nil, ← hpending]
      rw [hsame]
      exact .nil e
  | cons l rest ih =>
      have hrest := ih (e := e.take l rest) rfl hdraining
      rw [take, List.append_assoc] at hrest
      exact .cons (.drained hdraining hpending) hrest

/-- A drain with nobody in between. -/
theorem run_drain (hlisten : e.listening = true) (hidle : e.draining = false) :
    Run e (.beginDrain :: (e.pending.map fun _ => .takeDrained) ++ [.endDrain])
      { e with pending := [], returned := e.returned ++ e.pending } := by
  have htakes := run_takes (e := { e with draining := true }) rfl rfl
  have hend : Run { e with pending := [], returned := e.returned ++ e.pending, draining := true }
      [.endDrain] { e with pending := [], returned := e.returned ++ e.pending } := by
    rw [hidle]
    exact (Step.drainEnded rfl rfl).run
  exact .cons (.drainBegan hlisten hidle) (htakes.append hend)

/-- The room in the queue is taken up by blocked posters. -/
theorem Shows.refill (h : e.Shows taken q) :
    ∃ actions e', Run e actions e' ∧ e'.Shows taken q.refill := by
  cases hlisten : e.listening with
  | false =>
      obtain ⟨hpending, hblocked⟩ := h.dropped hlisten
      have hsame : q.refill = q := by
        rw [NoticeQueue.refill, hblocked, List.take_nil, List.drop_nil, List.append_nil, ← hblocked]
      rw [hsame]
      exact ⟨[], e, .nil e, h⟩
  | true =>
      have hpending := h.pending hlisten
      have hlength : e.pending.length = q.pending.length := by rw [← hpending, List.length_map]
      have hrun := run_enters (List.take_append_drop (e.capacity - e.pending.length) e.blocked).symm
        hlisten (List.length_take_le ..)
      refine ⟨_, _, hrun, ?_⟩
      exact
        { capacity := h.capacity
          listening := h.listening
          idle := h.idle
          pending := fun _ => by
            rw [List.map_append, hpending, List.map_take, h.blocked, h.capacity, hlength]
            rfl
          blocked := by
            rw [List.map_drop, h.blocked, h.capacity, hlength]
            rfl
          returned := h.returned
          dropped := fun hdeaf => absurd hdeaf (ne_false_of_eq_true hlisten) }

theorem Shows.post (h : e.Shows taken q) (notice : String) :
    ∃ actions e', Run e actions e' ∧ e'.Shows taken (q.post notice).2 := by
  obtain ⟨thread, hfree⟩ := e.exists_isFree
  cases hlisten : e.listening with
  | false =>
      have hdeaf : q.listening = false := h.listening.symm.trans hlisten
      have hpost : (q.post notice).2 = q := by
        rw [NoticeQueue.post, hdeaf]
        rfl
      rw [hpost]
      have hstep : e.Step (.post thread notice) _ := .unheard hfree hlisten
      exact ⟨_, _, hstep.run, h.capacity, h.listening, h.idle, h.pending, h.blocked, h.returned,
        h.dropped⟩
  | true =>
      have hpending := h.pending hlisten
      have hlength : e.pending.length = q.pending.length := by rw [← hpending, List.length_map]
      have hheard : q.listening = true := h.listening.symm.trans hlisten
      have hdropped : ∀ {P : Prop}, e.listening = false → P := fun hdeaf =>
        absurd hdeaf (ne_false_of_eq_true hlisten)
      have hcapacity := h.capacity
      by_cases hroom : e.pending.length < e.capacity
      · have hpost : (q.post notice).2 = { q with pending := q.pending ++ [notice] } := by
          rw [NoticeQueue.post, hheard, if_neg (by decide), if_pos (by omega)]
        rw [hpost]
        have hstep : e.Step (.post thread notice) _ := .accepted hfree hlisten hroom
        refine ⟨_, _, hstep.run, h.capacity, h.listening, h.idle, fun _ => ?_, h.blocked,
          h.returned, hdropped⟩
        rw [accept, List.map_append, hpending]
        rfl
      · have hpost : (q.post notice).2 = { q with blocked := q.blocked ++ [notice] } := by
          rw [NoticeQueue.post, hheard, if_neg (by decide), if_neg (by omega)]
        rw [hpost]
        have hstep : e.Step (.post thread notice) _ :=
          .blocked hfree hlisten (Nat.not_lt.mp hroom)
        refine ⟨_, _, hstep.run, h.capacity, h.listening, h.idle, h.pending, ?_, h.returned,
          hdropped⟩
        rw [List.map_append, h.blocked]
        rfl

theorem Shows.next (h : e.Shows taken q) {notice : String} {rest : List String}
    (hnext : q.pending = notice :: rest) :
    ∃ actions e', Run e actions e'
      ∧ e'.Shows (taken ++ [notice]) { q with pending := rest }.refill := by
  have hlisten : e.listening = true := by
    cases hdeaf : e.listening with
    | true => rfl
    | false => exact absurd ((h.dropped hdeaf).1.symm.trans hnext) nofun
  obtain ⟨l, ls, hpending, rfl, hrest⟩ := List.map_eq_cons_iff.mp ((h.pending hlisten).trans hnext)
  have htaken : (e.take l ls).Shows (taken ++ [l.text]) { q with pending := rest } :=
    { capacity := h.capacity
      listening := h.listening
      idle := h.idle
      pending := fun _ => hrest
      blocked := h.blocked
      returned := by
        rw [take, List.map_append, h.returned]
        rfl
      dropped := fun hdeaf => absurd hdeaf (ne_false_of_eq_true hlisten) }
  obtain ⟨actions, e', hrun, hshows⟩ := htaken.refill
  exact ⟨_, e', .cons (.received hlisten h.idle hpending) hrun, hshows⟩

theorem Shows.drain (h : e.Shows taken q) :
    ∃ actions e', Run e actions e' ∧ e'.Shows (taken ++ q.drain.1) q.drain.2 := by
  cases hlisten : e.listening with
  | false =>
      obtain ⟨hpending, -⟩ := h.dropped hlisten
      have hempty : { q with pending := [] } = q := by rw [← hpending]
      rw [NoticeQueue.drain, hempty, hpending, List.append_nil]
      exact h.refill
  | true =>
      have hdrained : Shows { e with pending := [], returned := e.returned ++ e.pending }
          (taken ++ q.pending) { q with pending := [] } :=
        { capacity := h.capacity
          listening := h.listening
          idle := h.idle
          pending := fun _ => rfl
          blocked := h.blocked
          returned := by rw [List.map_append, h.returned, h.pending hlisten]
          dropped := fun hdeaf => absurd hdeaf (ne_false_of_eq_true hlisten) }
      obtain ⟨actions, e', hrun, hshows⟩ := hdrained.refill
      exact ⟨_, e', (run_drain hlisten h.idle).append hrun, hshows⟩

theorem Shows.close (h : e.Shows taken q) :
    ∃ actions e', Run e actions e' ∧ e'.Shows taken q.close := by
  cases hlisten : e.listening with
  | false =>
      obtain ⟨-, hblocked⟩ := h.dropped hlisten
      exact ⟨[], e, .nil e, h.capacity, hlisten, h.idle,
        fun hlisten' => absurd hlisten (ne_false_of_eq_true hlisten'),
        h.blocked.trans hblocked, h.returned, fun _ => ⟨rfl, rfl⟩⟩
  | true =>
      have hrun := run_releases (e := { e with listening := false }) rfl rfl
      exact ⟨_, _, .cons (.closed hlisten h.idle) hrun, h.capacity, rfl, h.idle, nofun, rfl,
        h.returned, fun _ => ⟨rfl, rfl⟩⟩

theorem Shows.call (h : e.Shows taken q) (c : NoticeQueue.Call) :
    ∃ actions e', Run e actions e' ∧ e'.Shows (taken ++ (q.call c).1) (q.call c).2 := by
  cases c with
  | post notice =>
      rw [NoticeQueue.call, List.append_nil]
      exact h.post notice
  | next =>
      cases hpending : q.pending with
      | nil =>
          rw [NoticeQueue.call, NoticeQueue.next, hpending, List.append_nil]
          exact ⟨[], e, .nil e, h⟩
      | cons notice rest =>
          rw [NoticeQueue.call, NoticeQueue.next, hpending]
          exact h.next hpending
  | drain => exact h.drain
  | close =>
      rw [NoticeQueue.call, List.append_nil]
      exact h.close

theorem Shows.calls (h : e.Shows taken q) (cs : List NoticeQueue.Call) :
    ∃ actions e', Run e actions e' ∧ e'.Shows (taken ++ (q.calls cs).1) (q.calls cs).2 := by
  induction cs generalizing e q taken with
  | nil =>
      refine ⟨[], e, .nil e, ?_⟩
      rw [NoticeQueue.calls, List.append_nil]
      exact h
  | cons c rest ih =>
      obtain ⟨actions, e', hrun, hshows⟩ := h.call c
      obtain ⟨more, e'', hrest, hlast⟩ := ih hshows
      refine ⟨actions ++ more, e'', hrun.append hrest, ?_⟩
      rw [List.append_assoc] at hlast
      exact hlast

end Exchange

end JobShell
