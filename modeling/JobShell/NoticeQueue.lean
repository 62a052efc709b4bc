import JobShell.Numbers

/-!
# The queue of notices

Jobs that end in the background leave a notice for the session. The queue
holds a bounded number of them: a job that posts to a full queue is blocked
until notices are taken. Notices leave in the order in which they were
accepted, and none is lost while somebody listens.
-/

namespace JobShell

/-- Notices on their way from the jobs to the session. -/
structure NoticeQueue where
  /-- How many notices may be pending; at least one. -/
  capacity : Nat
  capacity_pos : 0 < capacity := by omega
  /-- Accepted notices, oldest first. -/
  pending : List String := []
  /-- Notices whose posters are blocked, in the order they came. -/
  blocked : List String := []
  /-- Whether somebody can still take notices. -/
  listening : Bool := true

namespace NoticeQueue

/-- How many notices may be pending where no number is configured. -/
def defaultCapacity : Nat := 10

/-- How many bytes of memory the place of a notice takes. -/
def placeSize : Nat := 32

/-- How many bytes of memory there can be for all places. -/
def memoryLimit : Nat := 2 ^ 36

/-- The memory that a queue for `capacity` notices takes. -/
def room (capacity : Nat) : Nat := placeSize * max capacity 1

/-- An empty queue for `capacity` notices, or for one if that is zero. -/
def ofCapacity (capacity : Nat) : NoticeQueue where
  capacity := max capacity 1

/-- How a post ended. -/
inductive Posted
  | accepted
  | blocked
  /-- Nobody listens any more, the notice is gone. -/
  | dropped
  deriving DecidableEq, Repr

/-- Moves notices of blocked posters in while there is room. -/
def refill (q : NoticeQueue) : NoticeQueue :=
  let room := q.capacity - q.pending.length
  { q with pending := q.pending ++ q.blocked.take room, blocked := q.blocked.drop room }

/-- Leaves a notice. -/
def post (q : NoticeQueue) (notice : String) : Posted × NoticeQueue :=
  if !q.listening then (.dropped, q)
  else if q.pending.length < q.capacity then
    (.accepted, { q with pending := q.pending ++ [notice] })
  else (.blocked, { q with blocked := q.blocked ++ [notice] })

/-- Takes the oldest notice. A blocked poster takes up the room. -/
def next (q : NoticeQueue) : Option (String × NoticeQueue) :=
  match q.pending with
  | [] => none
  | notice :: rest => some (notice, { q with pending := rest }.refill)

/-- Takes every notice that is pending. Blocked posters take up the room. -/
def drain (q : NoticeQueue) : List String × NoticeQueue :=
  (q.pending, { q with pending := [] }.refill)

/-- Nobody listens from now on: pending notices are gone and blocked posters
return. -/
def close (q : NoticeQueue) : NoticeQueue :=
  { q with pending := [], blocked := [], listening := false }

end NoticeQueue

end JobShell
