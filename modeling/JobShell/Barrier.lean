/-!
# Completion barriers

A barrier counts down the stages of a job that are still running. A stage
arrives when it is done; stages that were never started are forfeited
instead. Waiting ends when nothing remains.

Threads that wait are parked. They are notified when nothing remains, but may
also wake up for no reason, and a timed wait ends when its time is over.
`Barrier.Room` is the barrier together with its threads: `Room.step` says
what a thread can do to it, one locked section at a time.
-/

namespace JobShell

/-- The number of stages that have not arrived. -/
structure Barrier where
  remaining : Nat
  deriving DecidableEq, Repr

namespace Barrier

/-- `count` stages will never arrive. The count stops at zero. -/
def forfeit (b : Barrier) (count : Nat) : Barrier := ⟨b.remaining - count⟩

/-- One stage is done. -/
def arrive (b : Barrier) : Barrier := b.forfeit 1

/-- Whether waiting is over. -/
def isOpen (b : Barrier) : Bool := b.remaining = 0

/-- A thread that waits. -/
structure Waiter where
  thread : Nat
  /-- Whether it gives up when its time is over. -/
  timed : Bool := false
  deriving DecidableEq, Repr

/-- The threads at a barrier. -/
structure Room where
  barrier : Barrier
  /-- Threads that wait for a notification. -/
  parked : List Waiter := []
  /-- Threads that were notified and have yet to look at the count. -/
  notified : List Waiter := []
  /-- The waits that have returned, the last one first, and whether the
  barrier was open then. -/
  ended : List (Waiter × Bool) := []
  deriving DecidableEq, Repr

/-- What a thread does at a barrier while it holds the lock. -/
inductive Action
  | arrive
  | forfeit (count : Nat)
  /-- A thread begins to wait: it leaves at once or is parked. -/
  | wait (w : Waiter)
  /-- A thread wakes up, notified or not, and looks again: it leaves or is
  parked again. -/
  | wake (w : Waiter)
  /-- A thread whose time is over looks for the last time. -/
  | expire (w : Waiter)
  deriving DecidableEq, Repr

namespace Room

/-- Counts down, and notifies all parked threads when nothing remains. -/
def countDown (r : Room) (count : Nat) : Room :=
  let barrier := r.barrier.forfeit count
  if barrier.isOpen then
    { r with barrier, parked := [], notified := r.notified ++ r.parked }
  else { r with barrier }

/-- Whether a thread waits, which keeps it from beginning another wait. -/
def isWaiting (r : Room) (thread : Nat) : Bool :=
  (r.parked ++ r.notified).any (·.thread = thread)

/-- A thread looks at the count. -/
def look (r : Room) (w : Waiter) : Room :=
  if r.barrier.isOpen then { r with ended := (w, true) :: r.ended }
  else { r with parked := w :: r.parked }

/-- A thread leaves with what it sees. -/
def giveUp (r : Room) (w : Waiter) : Room :=
  { r with ended := (w, r.barrier.isOpen) :: r.ended }

/-- The room without a thread that waits in it. -/
def rouse (r : Room) (w : Waiter) : Option Room :=
  if w ∈ r.notified then some { r with notified := r.notified.erase w }
  else if w ∈ r.parked then some { r with parked := r.parked.erase w }
  else none

/-- The room after an action; `none` if the action is not possible. -/
def step (r : Room) : Action → Option Room
  | .arrive => some (r.countDown 1)
  | .forfeit count => some (r.countDown count)
  | .wait w => if r.isWaiting w.thread then none else some (r.look w)
  | .wake w => (r.rouse w).map (·.look w)
  | .expire w => if w.timed then (r.rouse w).map (·.giveUp w) else none

/-- The room after a sequence of actions. -/
def run (r : Room) : List Action → Option Room
  | [] => some r
  | a :: rest => (r.step a).bind (·.run rest)

end Room

end Barrier

end JobShell
