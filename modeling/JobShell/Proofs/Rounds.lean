import JobShell.Rounds
import Mathlib.Logic.Relation

/-!
# What repeated rounds come to

`untilDone` has a result exactly if some rounds lead to one that has it
(`untilDone_eq_some_iff`), so what every round keeps is known of the last one
(`untilDone_invariant`).
-/

namespace JobShell

section

variable {α β : Type} {round : α → Option (Round α β)}

/-- The round in the first state leads to the second one. -/
def GoesOn (round : α → Option (Round α β)) (before after : α) : Prop :=
  round before = some (.again after)

theorem untilDone_of_goesOn {before after : α} (h : GoesOn round before after) :
    untilDone round before = untilDone round after := by
  rw [untilDone, h]

theorem untilDone_of_done {state : α} {result : β} (h : round state = some (.done result)) :
    untilDone round state = some result := by
  rw [untilDone, h]

theorem untilDone_eq_some_iff {state : α} {result : β} :
    untilDone round state = some result
      ↔ ∃ last, Relation.ReflTransGen (GoesOn round) state last
        ∧ round last = some (.done result) := by
  constructor
  · intro h
    refine untilDone.partial_correctness round (fun state result => ∃ last,
      Relation.ReflTransGen (GoesOn round) state last ∧ round last = some (.done result))
      (fun untilDone ih state result h => ?_) state result h
    split at h
    · cases h
    · rename_i hdone
      obtain rfl := Option.some.inj h
      exact ⟨state, .refl, hdone⟩
    · rename_i next hnext
      obtain ⟨last, hrounds, hlast⟩ := ih next result h
      exact ⟨last, hrounds.head hnext, hlast⟩
  · rintro ⟨last, hrounds, hlast⟩
    induction hrounds using Relation.ReflTransGen.head_induction_on with
    | refl => exact untilDone_of_done hlast
    | head hnext _ ih => exact (untilDone_of_goesOn hnext).trans ih

/-- What every round keeps still holds where the last one begins. -/
theorem untilDone_invariant {P : α → Prop} (hround : ∀ before after, GoesOn round before after →
    P before → P after) {state : α} {result : β} (h : untilDone round state = some result)
    (hstate : P state) : ∃ last, P last ∧ round last = some (.done result) := by
  obtain ⟨last, hrounds, hlast⟩ := untilDone_eq_some_iff.mp h
  refine ⟨last, ?_, hlast⟩
  clear hlast
  induction hrounds with
  | refl => exact hstate
  | tail _ hnext ih => exact hround _ _ hnext ih

end

end JobShell
