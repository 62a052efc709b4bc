/-!
# Rounds that are repeated

What goes on in rounds until one of them has a result does not have to come
to an end, and neither does a round. `untilDone` has no result then.
-/

namespace JobShell

/-- What a round comes to. -/
inductive Round (α β : Type)
  | done (result : β)
  | again (state : α)

section

variable {α β : Type} (round : α → Option (Round α β))

/-- Repeats rounds from a state on until one of them has a result. -/
def untilDone (state : α) : Option β :=
  match round state with
  | none => none
  | some (.done result) => some result
  -- A call that is applied, not written out, is the same term in every file.
  | some (.again next) => by apply untilDone; exact next
partial_fixpoint

end

end JobShell
