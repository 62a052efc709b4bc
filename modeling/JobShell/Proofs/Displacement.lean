import JobShell.Proofs.Installation

/-!
# What redirections leave in a table

A descriptor can be redirected several times. The last file is the one behind
it (`Laid.last`), and everything it took the place of stays in the table until
the stage is done: an end of a pipe that is lost would keep a neighbour from
seeing the end of its input, or show it too early. So a table and what is
displaced in it hold the three streams and all files, each of them once
(`Laid.all`), and what is displaced has the order of the redirections that did
it (`Laid.order`, `Laid.displaced`).
-/

namespace JobShell

open Machine (NodeId Tree)

namespace DescriptorTable

variable {stdin stdout : Descriptor} {opened : List OpenedFile} {fd : Fd}

/-- What is behind a number without any redirection. -/
def default? (stdin stdout : Descriptor) (fd : Fd) : Option Descriptor :=
  if fd = 0 then some stdin
  else if fd = 1 then some stdout
  else if fd = 2 then some .inherit
  else none

theorem getElem?_standard (stdin stdout : Descriptor) (fd : Fd) :
    (standard stdin stdout).slots[fd]? = default? stdin stdout fd := by
  unfold standard default?
  rw [getElem?_insert_key, getElem?_insert_key, getElem?_insert_key, Std.TreeMap.getElem?_emptyc]
  by_cases hin : fd = 0
  · simp [hin]
  · by_cases hout : fd = 1 <;> simp [hin, hout]

theorem isSome_default?_iff : (default? stdin stdout fd).isSome ↔ fd = 0 ∨ fd = 1 ∨ fd = 2 := by
  unfold default?
  repeat' split
  all_goals simp_all

/-- A table with the streams and the files that were opened for it. -/
structure Laid (t : DescriptorTable) (stdin stdout : Descriptor) (opened : List OpenedFile) :
    Prop where
  numbers : ∀ fd, fd ∈ t.slots ↔ (fd = 0 ∨ fd = 1 ∨ fd = 2) ∨ ∃ o ∈ opened, o.redirection.fd = fd
  range : ∀ fd ∈ t.slots, 0 ≤ fd ∧ fd ≤ 9
  /-- The last redirection of a number counts. -/
  last : ∀ fd, t.slots[fd]? = (filesFor opened fd).getLast?.or (default? stdin stdout fd)
  /-- Nothing is lost, and nothing is there twice. -/
  all : (t.slots.values ++ t.shadowed).Perm
    ([stdin, stdout, .inherit] ++ opened.map OpenedFile.descriptor)
  order : t.shadowed = ((standard stdin stdout).displacements opened).map Prod.snd
  displaced : ∀ fd, (∃ o ∈ opened, o.redirection.fd = fd) →
    (((standard stdin stdout).displacements opened).filter (·.1 = fd)).map Prod.snd
      = (default? stdin stdout fd).toList ++ (filesFor opened fd).dropLast
  /-- There are only files above the streams. -/
  high : ∀ (fd : Fd) (d : Descriptor), 3 ≤ fd → t.slots[fd]? = some d →
    ∃ o ∈ opened, d = o.descriptor

theorem filesFor_ne_nil_iff : filesFor opened fd ≠ [] ↔ ∃ o ∈ opened, o.redirection.fd = fd := by
  constructor
  · intro hne
    obtain ⟨d, hd⟩ := List.exists_mem_of_ne_nil _ hne
    obtain ⟨o, ho, hfd, -⟩ := mem_filesFor_iff.mp hd
    exact ⟨o, ho, hfd⟩
  · rintro ⟨o, ho, hfd⟩
    exact List.ne_nil_of_mem (mem_filesFor_iff.mpr ⟨o, ho, hfd, rfl⟩)

theorem mem_slots_redirectEach_iff :
    fd ∈ ((standard stdin stdout).redirectEach opened).slots
      ↔ (fd = 0 ∨ fd = 1 ∨ fd = 2) ∨ ∃ o ∈ opened, o.redirection.fd = fd := by
  rw [Std.TreeMap.mem_iff_isSome_getElem?, getElem?_redirectEach, behind?, getElem?_standard,
    Option.isSome_or, Bool.or_eq_true, isSome_default?_iff, ← filesFor_ne_nil_iff,
    List.getLast?_isSome, or_comm]

/-- A table with the streams is laid by redirections of numbers that a file
can be put behind. -/
theorem laid_redirectEach
    (hrange : ∀ o ∈ opened, isRedirectable o.redirection.fd = true) :
    ((standard stdin stdout).redirectEach opened).Laid stdin stdout opened where
  numbers _ := mem_slots_redirectEach_iff
  range fd hfd := by
    rcases mem_slots_redirectEach_iff.mp hfd with (rfl | rfl | rfl) | ⟨o, ho, rfl⟩
    case inr => exact isRedirectable_iff.mp (hrange o ho)
    all_goals decide
  last fd := by rw [getElem?_redirectEach, behind?, getElem?_standard]
  all := by
    have hheld := held_redirectEach (standard stdin stdout) opened
    rw [held_standard] at hheld
    exact hheld.trans List.perm_append_comm
  order := shadowed_redirectEach ..
  displaced fd hfd := by
    rw [displacements_of, getElem?_standard,
      List.dropLast_append_of_ne_nil (filesFor_ne_nil_iff.mpr hfd)]
  high fd d hfd hslot := by
    rcases of_getElem?_redirectEach hslot with hstandard | ⟨o, ho, -, hd⟩
    · exact absurd (Int.le_trans hfd (range_of_standard hstandard).2) (by decide)
    · exact ⟨o, ho, hd⟩

end DescriptorTable

namespace Host

variable {h h' : Host} {directory : NodeId} {stdin stdout : Descriptor}
  {redirections : List Redirection} {t : DescriptorTable}

/-- **The last redirection wins, and nothing is lost.** A table that is built
is laid with one file for each redirection, in the same order, and each of
them is open at a number of its own that was free before. -/
theorem laid_of_buildTable
    (hok : h.buildTable directory stdin stdout redirections = (.ok t, h')) :
    ∃ opened, opened.map OpenedFile.redirection = redirections
      ∧ h.Opened directory opened h'
      ∧ (∀ o ∈ opened, o.fd ∉ h.shell.slots) ∧ (opened.map OpenedFile.fd).Nodup
      ∧ t.Laid stdin stdout opened := by
  obtain ⟨opened, hopened, hall, rfl⟩ := opened_of_buildTable hok
  obtain ⟨hfresh, hnodup⟩ := hopened.fresh
  exact ⟨opened, hall, hopened, fun o ho => (hfresh o ho).1, hnodup,
    DescriptorTable.laid_redirectEach hopened.redirectable⟩

/-- Two numbers, each of them redirected twice. -/
def crossRedirections : List Redirection :=
  [⟨1, .output, [98]⟩, ⟨4, .input, [97]⟩, ⟨1, .output, [99]⟩, ⟨4, .output, [98]⟩]

theorem laid_crossRedirections : ∃ t h' opened,
    small.buildTable Tree.root (.pipe 7) .inherit crossRedirections = (.ok t, h')
      ∧ t.shadowed.length = 3 ∧ t.Laid (.pipe 7) .inherit opened := by
  have hlength : (small.buildTable Tree.root (.pipe 7) .inherit crossRedirections).1.toOption.map
      (fun t => t.shadowed.length) = some 3 := by cbv
  obtain ⟨t, ht, hlength⟩ := Option.map_eq_some_iff.mp hlength
  have hok : small.buildTable Tree.root (.pipe 7) .inherit crossRedirections
      = (.ok t, (small.buildTable Tree.root (.pipe 7) .inherit crossRedirections).2) :=
    Prod.ext (Except.eq_ok_of_toOption ht) rfl
  obtain ⟨opened, -, -, -, -, hlaid⟩ := laid_of_buildTable hok
  exact ⟨t, _, opened, hok, hlength, hlaid⟩

end Host

end JobShell
