import JobShell.Proofs.Names
import JobShell.Proofs.Publication

/-!
# What is asked of the environment

The environment of the process is changed in two ways, and neither is always
possible: a name may not be empty or hold an equals sign, and the byte zero
may be in no part of an entry. A session does not survive a call that is not
possible, so it matters which calls a change of the variables makes.

`Update.call?` says it, and `refused_foldl` sums it up for changes that are
made one after the other. All changes that a line asks for are changes of
valid names, so what is left to look at is the value of a call
(`EnvironmentCall.isPossible_iff_of_isVariableName`).
-/

namespace JobShell

/-- A change of the environment of the process. -/
inductive EnvironmentCall
  | set (name value : String)
  | remove (name : String)
  deriving DecidableEq, Repr

namespace EnvironmentCall

def name : EnvironmentCall → String
  | set name _ | remove name => name

def value? : EnvironmentCall → Option String
  | set _ value => some value
  | remove _ => none

/-- Whether the environment can be changed in this way. -/
def isPossible : EnvironmentCall → Bool
  | set name value => Environment.admits (.ofString name) (.ofString value)
  | remove name => Environment.admitsName (.ofString name)

/-- The name is one that an entry can have. -/
def IsNamed (c : EnvironmentCall) : Prop :=
  c.name ≠ "" ∧ '=' ∉ c.name.toList ∧ '\x00' ∉ c.name.toList

end EnvironmentCall

theorem Environment.admitsName_iff {name : String} :
    admitsName (.ofString name) = true
      ↔ name ≠ "" ∧ '=' ∉ name.toList ∧ '\x00' ∉ name.toList := by
  have hsign : '='.toUInt8 ∈ Bytes.ofString name ↔ '=' ∈ name.toList :=
    Bytes.toUInt8_mem_ofString (by decide)
  have hnil : Bytes.ofString "" = [] := rfl
  have hempty : Bytes.ofString name = [] ↔ name = "" := by rw [← hnil, Bytes.ofString_inj]
  simp [admitsName, hsign, hempty, ← Bytes.hasNul_ofString, and_assoc]

namespace EnvironmentCall

variable {c : EnvironmentCall}

theorem isPossible_iff :
    c.isPossible = true ↔ c.IsNamed ∧ ∀ value ∈ c.value?, '\x00' ∉ value.toList := by
  cases c with
  | set name value =>
      simp [isPossible, Environment.admits, Environment.admitsName_iff, IsNamed, value?,
        EnvironmentCall.name, ← Bytes.hasNul_ofString]
  | remove name => simp [isPossible, Environment.admitsName_iff, IsNamed, value?, EnvironmentCall.name]

/-- A valid name is one that an entry can have. -/
theorem isNamed_of_isVariableName (h : isVariableName c.name = true) : c.IsNamed := by
  refine ⟨fun hempty => ?_, not_mem_of_isName (by decide) (by decide) h,
    not_mem_of_isName (by decide) (by decide) h⟩
  rw [hempty] at h
  cases h

theorem isPossible_iff_of_isVariableName (h : isVariableName c.name = true) :
    c.isPossible = true ↔ ∀ value ∈ c.value?, '\x00' ∉ value.toList :=
  isPossible_iff.trans (and_iff_right (isNamed_of_isVariableName h))

end EnvironmentCall

/-! ## Calls of changes -/

namespace Update

/-- The call that a change of the variables makes. -/
def call? (vs : Variables) : Update → Option EnvironmentCall
  | assign name value => if vs.isExported name then some (.set name value) else none
  | export_ name value => (value.or (vs.get? name)).map (.set name ·)
  | unset name => if vs.isExported name then some (.remove name) else none

/-- The calls of some changes that are made one after the other. -/
def calls (vs : Variables) : List Update → List EnvironmentCall
  | [] => []
  | u :: rest => (u.call? vs).toList ++ calls (u.apply vs) rest

theorem name_call? {vs : Variables} {u : Update} {c : EnvironmentCall}
    (h : u.call? vs = some c) : c.name = u.name := by
  cases u with
  | assign name value | unset name =>
      rw [call?] at h
      split at h
      · obtain rfl := Option.some.inj h
        rfl
      · cases h
  | export_ name value =>
      obtain ⟨_, -, rfl⟩ := Option.map_eq_some_iff.mp h
      rfl

/-- A change is refused exactly if it makes a call that is not possible. -/
theorem refused_apply (vs : Variables) (u : Update) :
    (u.apply vs).refused = (vs.refused || (u.call? vs).any (!·.isPossible)) := by
  cases u with
  | assign name value =>
      rw [apply, Variables.assign, call?]
      cases vs.isExported name with
      | true => rfl
      | false => exact (Bool.or_false _).symm
  | export_ name value =>
      rw [apply, Variables.exportName_eq, call?]
      cases value.or (vs.get? name) with
      | some given => rfl
      | none => exact (Bool.or_false _).symm
  | unset name =>
      rw [apply, Variables.unset_eq, call?]
      cases vs.isExported name with
      | true => rfl
      | false => rfl

theorem refused_foldl (updates : List Update) (vs : Variables) :
    (updates.foldl apply vs).refused = (vs.refused || (calls vs updates).any (!·.isPossible)) := by
  induction updates generalizing vs with
  | nil => exact (Bool.or_false _).symm
  | cons u rest ih =>
      have hfirst : (u.call? vs).toList.any (!·.isPossible) = (u.call? vs).any (!·.isPossible) := by
        cases u.call? vs <;> simp
      rw [List.foldl_cons, ih, refused_apply, calls, List.any_append, hfirst, Bool.or_assoc]

/-- The calls of changes of valid names are calls for valid names. -/
theorem isVariableName_of_mem_calls {updates : List Update} {vs : Variables}
    (h : ∀ u ∈ updates, isVariableName u.name = true) :
    ∀ c ∈ calls vs updates, isVariableName c.name = true := by
  induction updates generalizing vs with
  | nil => simp [calls]
  | cons u rest ih =>
      rw [List.forall_mem_cons] at h
      intro c hc
      rcases List.mem_append.mp hc with hc | hc
      · rw [name_call? (Option.mem_toList.mp hc)]
        exact h.1
      · exact ih h.2 c hc

end Update

end JobShell
