import JobShell.Host.Start
import JobShell.Proofs.Openings

/-!
# Who has the terminal when a process is started

The machine changes the owner of the terminal in one place only, where a
process is split off that takes it. The process does so before it executes
its command, so the owner has changed also if the command can not be executed
(`foreground_of_start`).
-/

namespace JobShell.Host

open Machine (NodeId Pid Outside Process)

variable {h h' : Host} {directory : NodeId}

theorem duplicate_eq_ok {fd copy : Fd} (hok : h.duplicate fd = .ok (copy, h')) :
    ∃ slots, h.shell.slots.duplicate h.slotLimit fd 3 true = .ok (copy, slots)
      ∧ h' = { h with shell := { h.shell with slots } } := by
  obtain ⟨⟨copy', slots⟩, hslots, hok⟩ := Except.bind_eq_ok_iff.mp hok
  obtain ⟨rfl, rfl⟩ := Prod.mk.inj (Except.ok.inj hok)
  exact ⟨slots, hslots, rfl⟩

theorem foreground_of_duplicateStreams {streams copies : List (Fd × Fd)}
    (hok : h.duplicateStreams streams = .ok (copies, h')) :
    h'.shell.foreground = h.shell.foreground := by
  induction streams generalizing h copies with
  | nil =>
      obtain ⟨-, rfl⟩ := Prod.mk.inj (Except.ok.inj hok)
      rfl
  | cons stream rest ih =>
      obtain ⟨⟨copy, h₁⟩, hduplicate, hok⟩ := Except.bind_eq_ok_iff.mp hok
      obtain ⟨⟨others, h₂⟩, hothers, hok⟩ := Except.bind_eq_ok_iff.mp hok
      obtain ⟨-, rfl⟩ := Prod.mk.inj (Except.ok.inj hok)
      obtain ⟨slots, -, rfl⟩ := duplicate_eq_ok hduplicate
      have hrest := ih hothers
      exact hrest

theorem foreground_of_openReport {fds : Fd × Fd} (hok : h.openReport = .ok (fds, h')) :
    h'.shell.foreground = h.shell.foreground := by
  unfold openReport at hok
  dsimp only at hok
  obtain ⟨⟨own, slots⟩, -, hok⟩ := Except.bind_eq_ok_iff.mp hok
  obtain ⟨⟨other, slots'⟩, -, hok⟩ := Except.bind_eq_ok_iff.mp hok
  obtain ⟨-, rfl⟩ := Prod.mk.inj (Except.ok.inj hok)
  rfl

/-- A process that was started has the next number, also if it failed and the
shell does not know. -/
theorem shell_of_reportFailure {p : Process} {reportFd : Fd} {cause : OsError}
    {result : Except OsError Pid} (hok : h.reportFailure p reportFd cause = (result, h')) :
    h'.shell = h.shell ∧ ∀ pid, result = .ok pid → pid = h.world.nextPid := by
  unfold reportFailure at hok
  dsimp only at hok
  split at hok
  · obtain ⟨rfl, rfl⟩ := Prod.mk.inj hok
    exact ⟨rfl, nofun⟩
  · split at hok <;>
    · obtain ⟨rfl, rfl⟩ := Prod.mk.inj hok
      exact ⟨rfl, fun pid hpid => (Except.ok.inj hpid).symm⟩

theorem foreground_of_split {r : StartRequest} {copies : List (Fd × Fd)} {reportFds : Fd × Fd}
    {result : Except OsError Pid} (hok : h.split directory r copies reportFds = (result, h')) :
    h'.shell.foreground
        = (if r.takesTerminal then some (r.group.getD h.world.nextPid) else h.shell.foreground)
      ∧ ∀ pid, result = .ok pid → pid = h.world.nextPid := by
  unfold split at hok
  dsimp only at hok
  generalize hterminal : (if r.takesTerminal = true then
    { h with shell := { h.shell with foreground := some (r.group.getD h.world.nextPid) } }
    else h) = g at hok
  have hforeground : g.shell.foreground
      = if r.takesTerminal then some (r.group.getD h.world.nextPid) else h.shell.foreground := by
    rw [← hterminal]
    split <;> rfl
  have hnext : g.world.nextPid = h.world.nextPid := by
    rw [← hterminal]
    split <;> rfl
  rw [← hforeground, ← hnext]
  have hreport : ∀ {q : Process} {cause : OsError},
      g.reportFailure q reportFds.2 cause = (result, h') →
      h'.shell.foreground = g.shell.foreground ∧ ∀ pid, result = .ok pid → pid = g.world.nextPid :=
    fun heq => ⟨congrArg Outside.foreground (shell_of_reportFailure heq).1,
      (shell_of_reportFailure heq).2⟩
  split at hok
  · exact hreport hok
  · split at hok
    · exact hreport hok
    · obtain ⟨rfl, rfl⟩ := Prod.mk.inj hok
      exact ⟨rfl, fun pid hpid => (Except.ok.inj hpid).symm⟩

/-- Only a process that takes the terminal changes who has it. It does so
before it can fail to execute its command. -/
theorem foreground_of_start {r : StartRequest} {result : Except OsError Pid}
    (hok : h.start directory r = (result, h')) :
    (h'.shell.foreground = h.shell.foreground ∧ (r.takesTerminal = true → ∀ pid, result ≠ .ok pid))
      ∨ r.takesTerminal = true ∧ ∃ pid, h'.shell.foreground = some (r.group.getD pid)
        ∧ ∀ started, result = .ok started → started = pid := by
  unfold start at hok
  split at hok
  · obtain ⟨rfl, rfl⟩ := Prod.mk.inj hok
    exact Or.inl ⟨rfl, nofun⟩
  rename_i copies opened hcopies
  split at hok
  · obtain ⟨rfl, rfl⟩ := Prod.mk.inj hok
    exact Or.inl ⟨rfl, nofun⟩
  split at hok
  · obtain ⟨rfl, rfl⟩ := Prod.mk.inj hok
    exact Or.inl ⟨rfl, nofun⟩
  rename_i reportFds connected hreport
  cases hsplit : connected.split directory r copies reportFds with
  | mk answer after =>
  rw [hsplit] at hok
  obtain ⟨rfl, rfl⟩ := Prod.mk.inj hok
  obtain ⟨hforeground, hpid⟩ := foreground_of_split hsplit
  rw [foreground_closeAll, hforeground, foreground_of_openReport hreport,
    foreground_of_duplicateStreams hcopies]
  cases r.takesTerminal with
  | true => exact Or.inr ⟨rfl, _, rfl, hpid⟩
  | false => exact Or.inl ⟨rfl, nofun⟩

end JobShell.Host
