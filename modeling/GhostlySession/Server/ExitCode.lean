import GhostlySession.Server.Shutdown

/-!
# The exit code at shutdown

`server_sigchld` decodes a wait status by the usual convention: `WEXITSTATUS` when the child
exited, `128 + WTERMSIG` when a signal killed it (`exitCodeOf`). The shutdown sequence has its own
capture, after its `waitpid` calls: `if (srv.child_exit_code == 0 && WIFEXITED(wstatus))`. It
reads only exit statuses, and it reads its local `wstatus` whether or not a `waitpid` wrote it.
`run_server` returns `srv.child_exit_code`, and `EXIT` carries its low byte (`exitByte`).

When the handler does not run during the sequence, the capture always reads a status its own
`waitpid` wrote, the child's, and the exit code is `WEXITSTATUS` of an exit but `0` for a signal
(`shutdown_exit_of_no_sigchld`, from the invariant `NoHandlerInv` kept by every move,
`noHandlerInv_step`, whose `kill` and `waitpid` moves rest on `killChild_keeps` and
`waitChild_keeps`). Two schedules of the sequence show the convention broken
(`shutdown_exit_code`):

* `hupDeathRun`: the child dies of the `SIGHUP` the sequence sends, and the sequence's first
  `waitpid(WNOHANG)` reaps it. `wstatus` says signaled, the capture skips it, and the exit code
  stays `0` instead of `128 + SIGHUP`.
* `unwrittenStatusRun`: the child exits with status `0` right after the `child_pid > 0` test,
  `server_sigchld` reaps it, and the first `waitpid(WNOHANG)` finds no child. No call wrote
  `wstatus`, and the capture takes the exit status from whatever it holds: the result depends on
  the uninitialised value.
-/

namespace GhostlySession

/-! ### Without the handler -/

/-- A status the child can have terminated with in a run of `labels`: one it chose (`die`), or
the sequence's `SIGKILL`. -/
def Died (labels : List ShutdownLabel) (st : WaitStatus) : Prop :=
  ShutdownLabel.die st ∈ labels ∨ st = .signaled SIGKILL

/-- What the capture makes of a status it reads when no exit code is recorded: `WEXITSTATUS` of an
exit, and nothing of a signal. -/
def captureCode : WaitStatus → Int
  | .exited code => code % 256
  | .signaled _ => 0

/-- What holds along a run of the sequence that `server_sigchld` does not interrupt, started with
the child `P` alive and no exit code recorded. -/
structure NoHandlerInv (P : Int) (labels : List ShutdownLabel) (s : Shutdown) : Prop where
  pid : s.childPid = P
  zombie : ∀ st, s.child = .zombie st → Died labels st
  reaped : s.child = .reaped ↔ s.wstatus.isSome
  status : ∀ st, s.wstatus = some st → Died labels st
  capture : s.pc = .capture → s.child = .reaped
  code : s.pc ≠ .done → s.exitCode = 0
  done : s.pc = .done → ∃ st, s.wstatus = some st ∧ s.exitCode = captureCode st

theorem noHandlerInv_start {P : Int} {child : ChildState} (labels : List ShutdownLabel)
    (hc : child.alive) : NoHandlerInv P labels (Shutdown.start P 0 child) := by
  refine ⟨rfl, fun st h => ?_, ?_, nofun, nofun, fun _ => rfl, nofun⟩
  · subst h; simp [ChildState.alive] at hc
  · cases child <;> simp_all [Shutdown.start, ChildState.alive]

theorem killChild_keeps (P pid : Int) {labels : List ShutdownLabel} {c : ChildState}
    {w : Option WaitStatus} (hz : ∀ st, c = .zombie st → Died labels st)
    (hr : c = .reaped ↔ w.isSome) :
    (∀ sig st, killChild P pid sig c = .zombie st → Died labels st) ∧
      ∀ sig, killChild P pid sig c = .reaped ↔ w.isSome := by
  refine ⟨fun sig st e => ?_, fun sig => ?_⟩ <;> unfold killChild at * <;> split_ifs at * with hk
  · cases e; exact .inr rfl
  · exact hz st e
  · exact ⟨nofun, fun h => by simp [hr.2 h, ChildState.alive] at hk⟩
  · exact hr

theorem waitChild_keeps {P pid : Int} {labels : List ShutdownLabel} {c : ChildState}
    {w : Option WaitStatus} (hR : Reaches P pid) (hz : ∀ st, c = .zombie st → Died labels st)
    (hr : c = .reaped ↔ w.isSome) (hst : ∀ st, w = some st → Died labels st) :
    (∀ st, (waitChild P pid c).2.2 = .zombie st → Died labels st) ∧
      ((waitChild P pid c).2.2 = .reaped ↔ ((waitChild P pid c).2.1.or w).isSome) ∧
      (∀ st, (waitChild P pid c).2.1.or w = some st → Died labels st) ∧
      ((waitChild P pid c).2.2 = .reaped ∨ (waitChild P pid c).1 = 0 ∧ c.alive) := by
  cases c with
  | zombie st =>
    simp only [waitChild, if_pos hR, Option.or_some]
    exact ⟨nofun, iff_of_true trivial rfl, fun _ e => by cases e; exact hz st rfl, .inl trivial⟩
  | reaped =>
    simp only [waitChild, if_pos hR, Option.none_or]
    exact ⟨nofun, iff_of_true trivial (hr.1 rfl), hst, .inl trivial⟩
  | running | stopped =>
    simp only [waitChild, if_pos hR, Option.none_or]
    exact ⟨nofun, hr, hst, .inr ⟨trivial, rfl⟩⟩

theorem noHandlerInv_step {P : Int} {junk : WaitStatus} {labels : List ShutdownLabel}
    {s s' : Shutdown} {l : ShutdownLabel} (hP : 0 < P) (hl : l ∈ labels)
    (hs : l ≠ .sigchld) (hi : NoHandlerInv P labels s)
    (h : shutdownStep P junk s l = some s') : NoHandlerInv P labels s' := by
  obtain ⟨hpid, hz, hr, hst, hcap, hcode, hdone⟩ := hi
  cases l with
  | sigchld => exact absurd rfl hs
  | die st =>
    simp only [shutdownStep] at h
    split_ifs at h with ha
    cases h
    have hnr : s.child ≠ .reaped := fun e => by simp [e, ChildState.alive] at ha
    have hw : s.wstatus = none := by simpa [hr] using hnr
    have hnd : s.pc ≠ .done := fun e => by obtain ⟨st', h', -⟩ := hdone e; simp [hw] at h'
    refine ⟨hpid, fun st' e => ?_, by simp [hw], fun st' e => by simp [hw] at e,
      fun e => absurd (hcap e) hnr, hcode, fun e => absurd e hnd⟩
    cases e; exact .inl hl
  | prog =>
    simp only [shutdownStep, Shutdown.progStep] at h
    cases hpc : s.pc <;> simp only [hpc] at h
    case test =>
      cases h
      rw [if_pos (hpid ▸ hP)]
      exact ⟨hpid, hz, hr, hst, nofun, fun _ => hcode (by simp [hpc]), nofun⟩
    case hup | term | kill =>
      cases h
      obtain ⟨h1, h2⟩ := killChild_keeps P s.childPid hz hr
      exact ⟨hpid, h1 _, h2 _, hst, nofun, fun _ => hcode (by simp [hpc]), nofun⟩
    case wait1 | wait2 =>
      cases h
      obtain ⟨h1, h2, h3, h4⟩ := waitChild_keeps (.inl hpid : Reaches P s.childPid) hz hr hst
      refine ⟨hpid, h1, h2, h3, fun e => h4.resolve_right fun h0 => ?_,
        fun _ => hcode (by simp [hpc]), fun e => ?_⟩ <;>
        dsimp only [Shutdown.waitNohang] at e <;> split at e <;>
        first | exact absurd h0.1 ‹_› | cases e
    case waitBlock =>
      split_ifs at h with hb
      cases h
      obtain ⟨h1, h2, h3, h4⟩ := waitChild_keeps (.inl hpid : Reaches P s.childPid) hz hr hst
      exact ⟨hpid, h1, h2, h3, fun _ => h4.resolve_right fun h0 => hb ⟨.inl hpid, h0.2⟩,
        fun _ => hcode (by simp [hpc]), nofun⟩
    case capture =>
      cases h
      obtain ⟨st, hw⟩ := Option.isSome_iff_exists.1 (hr.1 (hcap hpc))
      refine ⟨hpid, hz, hr, hst, nofun, nofun, fun _ => ⟨st, hw, ?_⟩⟩
      cases st <;> simp [hw, hcode (by simp [hpc]), captureCode]
    case done => cases h

/-- **Without the handler, the capture reads the child's status, and drops a signal.** In a run
that `server_sigchld` does not interrupt, from the child `P` alive and no exit code recorded, the
sequence ends with `wstatus` written by its own `waitpid`, holding a status the child terminated
with; the exit code is `WEXITSTATUS` of an exit, but `0`, not `128 + WTERMSIG`, for a signal. -/
theorem shutdown_exit_of_no_sigchld {P : Int} {junk : WaitStatus} {labels : List ShutdownLabel}
    {child : ChildState} {s' : Shutdown} (hP : 0 < P) (hc : child.alive)
    (hl : ShutdownLabel.sigchld ∉ labels)
    (h : shutdownRun P junk labels (Shutdown.start P 0 child) = some s') (hd : s'.pc = .done) :
    ∃ st, Died labels st ∧ s'.wstatus = some st ∧ s'.exitCode = captureCode st := by
  have hi := shutdownRun_induction (I := NoHandlerInv P labels)
    (fun _ _ l hmem hs hst => noHandlerInv_step hP hmem (fun e => hl (e ▸ hmem)) hs hst)
    (noHandlerInv_start labels hc) h
  obtain ⟨st, hw, hx⟩ := hi.done hd
  exact ⟨st, hi.status st hw, hw, hx⟩


/-- The child dies of `SIGHUP` after the sequence's `kill(child_pid, SIGHUP)`, and the first
`waitpid(WNOHANG)` reaps it. -/
def hupDeathRun : List ShutdownLabel := [.prog, .prog, .die (.signaled SIGHUP), .prog, .prog]

/-- The child exits with status `0` right after the `child_pid > 0` test, `server_sigchld` reaps
it, and the first `waitpid(WNOHANG)` finds no child left. -/
def unwrittenStatusRun : List ShutdownLabel :=
  [.prog, .die (.exited 0), .sigchld, .prog, .prog, .prog]

/-- **The shutdown sequence breaks the exit-code convention.** The exit byte of `EXIT` and the
value `run_server` returns are not always the child's status decoded by the convention: a child
killed by a signal that the sequence reaps leaves `0` (`hupDeathRun`), and when the handler reaps
the child first, the capture reads `wstatus` unwritten, so two values of it give two exit codes
(`unwrittenStatusRun`). -/
theorem shutdown_exit_code :
    (¬ ∀ (P : Int) (junk : WaitStatus) (labels : List ShutdownLabel) (s' : Shutdown)
        (st : WaitStatus), 0 < P →
        shutdownRun P junk labels (Shutdown.start P 0 .running) = some s' → s'.pc = .done →
        ShutdownLabel.die st ∈ labels →
        exitByte s'.exitCode = exitByte (exitCodeOf st) ∧ s'.exitCode = exitCodeOf st) ∧
      ¬ ∀ (P : Int) (junk junk' : WaitStatus) (labels : List ShutdownLabel) (s s' : Shutdown),
        shutdownRun P junk labels (Shutdown.start P 0 .running) = some s →
        shutdownRun P junk' labels (Shutdown.start P 0 .running) = some s' →
        s.exitCode = s'.exitCode := by
  have hhup : shutdownRun 100 (.exited 0) hupDeathRun (Shutdown.start 100 0 .running) =
      some ⟨.done, 100, 0, some (.signaled SIGHUP), .reaped,
        [.kill 100 SIGHUP, .waitpid 100 true]⟩ := by decide
  have hjunk : ∀ c ∈ [0, 7], shutdownRun 100 (.exited c) unwrittenStatusRun
      (Shutdown.start 100 0 .running) =
        some ⟨.done, -1, c, none, .reaped, [.kill (-1) SIGHUP, .waitpid (-1) true]⟩ := by decide
  refine ⟨fun h => ?_, fun h => ?_⟩
  · exact absurd (h 100 _ _ _ (.signaled SIGHUP) (by decide) hhup rfl (by decide)).2 (by decide)
  · exact absurd (h 100 _ _ _ _ _ (hjunk 0 (by simp)) (hjunk 7 (by simp))) (by decide)

end GhostlySession
