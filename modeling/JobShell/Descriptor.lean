import JobShell.Machine.Slots
import JobShell.Pipeline

/-!
# Descriptor tables

What a stage of a pipeline will see behind its descriptors. A table begins
with the three standard streams and is changed by one redirection after the
other; the last redirection of a descriptor counts. Nothing that was ever in
the table is forgotten: what a redirection displaces is kept in `shadowed`,
because it stays open until the stage is done.
-/

namespace JobShell

/-- What is behind a descriptor of a stage. -/
inductive Descriptor
  /-- The shell's own stream with the same number. -/
  | inherit
  /-- An end of a pipe, open in the shell as `fd`. -/
  | pipe (fd : Fd)
  /-- The file of a redirection, open in the shell as `fd`. -/
  | file (path : Bytes) (fd : Fd)
  deriving DecidableEq, Repr

/-- The shell's own descriptor that has to be closed in the end. -/
def Descriptor.fd? : Descriptor → Option Fd
  | inherit => none
  | pipe fd | file _ fd => some fd

/-- The descriptors of one stage. -/
structure DescriptorTable where
  slots : Std.TreeMap Fd Descriptor
  /-- What was displaced, in the order in which it was. -/
  shadowed : List Descriptor := []

namespace DescriptorTable

/-- The table of a stage without redirections. -/
def standard (stdin stdout : Descriptor) : DescriptorTable where
  slots := ((∅ : Std.TreeMap Fd Descriptor).insert 0 stdin).insert 1 stdout |>.insert 2 .inherit

/-- Whether a descriptor can be redirected. -/
def isRedirectable (fd : Fd) : Bool := 0 ≤ fd && fd ≤ Redirection.maxFd

/-- The table with `d` behind the descriptor `fd`. -/
def redirect (t : DescriptorTable) (fd : Fd) (d : Descriptor) : DescriptorTable where
  slots := t.slots.insert fd d
  shadowed := match t.slots[fd]? with
    | some displaced => t.shadowed ++ [displaced]
    | none => t.shadowed

/-- Everything in the table, displaced or not. -/
def held (t : DescriptorTable) : List Descriptor := t.slots.values ++ t.shadowed

/-- The shell's descriptors the table keeps open. -/
def fds (t : DescriptorTable) : List Fd := t.held.filterMap Descriptor.fd?

/-- The standard streams that are not the shell's own, with their numbers. -/
def streams (t : DescriptorTable) : List (Fd × Fd) :=
  t.slots.toList.filterMap fun (target, d) =>
    if target ≤ 2 then d.fd?.map fun fd => (fd, target) else none

/-- The descriptors above the standard streams: where they are open in the
shell, and the number that each of them gets. -/
def moves (t : DescriptorTable) : List (Fd × Fd) :=
  t.slots.toList.filterMap fun (target, d) =>
    if target ≤ 2 then none else d.fd?.map fun fd => (fd, target)

end DescriptorTable

end JobShell
