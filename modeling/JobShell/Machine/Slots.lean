import JobShell.OsError
import Std.Data.TreeMap.Basic

/-!
# Descriptor slots

A process refers to open files by small numbers. `Slots` says which file is
behind each number and whether the number survives the execution of another
program. A new number is always the lowest one that is free.

`Slots.remap` moves several files to given numbers at once. All of them are
first duplicated out of the way, so that no target overwrites a file that is
still needed.
-/

namespace JobShell

/-- The number of a descriptor. -/
abbrev Fd := Int

namespace Machine

/-- The number of an open file; several descriptors can share one. -/
abbrev FileId := Nat

/-- What is behind a descriptor. -/
structure Slot where
  file : FileId
  closeOnExec : Bool
  deriving DecidableEq, Repr

/-- The descriptors of a process. -/
abbrev Slots := Std.TreeMap Fd Slot

namespace Slots

/-- How many descriptors a process can have unless it is limited further. -/
def usualLimit : Nat := 1024

/-- The lowest number from `least` on that is free. -/
def firstFree (s : Slots) (least : Fd) : Fd :=
  (((List.range (s.size + 1)).map fun (i : Nat) => least + (i : Int)).find? (!s.contains ·)).getD
    (least + s.size)

/-- Opens `slot` at the lowest free number from `least` on. -/
def allocate (s : Slots) (limit : Nat) (least : Fd) (slot : Slot) :
    Except OsError (Fd × Slots) :=
  let fd := s.firstFree least
  if fd < limit then .ok (fd, s.insert fd slot) else .error .tooManyOpenFiles

/-- A second number, `least` or higher, for the file behind `source`. -/
def duplicate (s : Slots) (limit : Nat) (source least : Fd) (closeOnExec : Bool) :
    Except OsError (Fd × Slots) :=
  match s[source]? with
  | none => .error .badDescriptor
  | some slot => s.allocate limit least ⟨slot.file, closeOnExec⟩

/-- Makes `target` refer to the file behind `source`, for the next program
as well. Nothing happens where both are the same number. -/
def duplicateOnto (s : Slots) (limit : Nat) (source target : Fd) : Except OsError Slots :=
  match s[source]? with
  | none => .error .badDescriptor
  | some slot =>
    if target < 0 ∨ (limit : Int) ≤ target then .error .badDescriptor
    else if source = target then .ok s
    else .ok (s.insert target ⟨slot.file, false⟩)

/-- What is left when another program is executed. -/
def afterExec (s : Slots) : Slots := s.filter fun _ slot => !slot.closeOnExec

/-! ## Moving descriptors to given numbers -/

/-- Scratch duplicates begin here, above every descriptor that can be
redirected. -/
def firstScratch : Fd := 10

/-- How many descriptors can be moved at once. -/
def maxMoves : Nat := 10

/-- Duplicates the sources out of the way. Returns the duplicates made, also
when one of them fails. -/
def stash (s : Slots) (limit : Nat) : List Fd → Option OsError × List Fd × Slots
  | [] => (none, [], s)
  | source :: rest =>
    match s.duplicate limit source firstScratch true with
    | .error e => (some e, [], s)
    | .ok (scratch, s) =>
      let (failed, scratches, s) := stash s limit rest
      (failed, scratch :: scratches, s)

/-- Puts the file of each source at its target, from left to right. -/
def place (s : Slots) (limit : Nat) : List (Fd × Fd) → Option OsError × Slots
  | [] => (none, s)
  | (source, target) :: rest =>
    match s.duplicateOnto limit source target with
    | .error e => (some e, s)
    | .ok s => place s limit rest

/-- Makes every target refer to the file that its source refers to now.
Pairs beyond the first ten are left out. A failure leaves what was done
before it. -/
def remap (s : Slots) (limit : Nat) (pairs : List (Fd × Fd)) : Option OsError × Slots :=
  let pairs := pairs.take maxMoves
  match s.stash limit (pairs.map (·.1)) with
  | (some e, _, s) => (some e, s)
  | (none, scratches, s) => s.place limit (scratches.zip (pairs.map (·.2)))

end Slots

end Machine

end JobShell
