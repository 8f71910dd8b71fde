import GhostlySession.Server.Loop

/-!
# Signals, and the runs of the daemon

Besides iterations of its loop, the daemon is driven by two signals. `SIGCHLD` arrives whenever
the PTY child stops, continues or terminates (`ChildEvent`), and `server_sigchld` reaps it with
`waitpid(child_pid, WNOHANG)` and clears the running flag; `SIGTERM` runs `server_sigterm`. The
handlers touch only the running flag, `child_pid` and `child_exit_code`, none of which the rest
of an iteration reads, so a handler that runs in the middle of an iteration has the effect it
would have at its end: the model runs handlers between iterations.

A `Run` takes steps one after the other, each where it is `Allowed`: an iteration only while the
running flag is set, and with `accept` returning a descriptor that is not open. `Reachable`
states are those of runs from `serverInit`; the loop itself, `eventLoop`, only takes such steps
(`eventLoop_reachable`).
-/

namespace GhostlySession

/-- A change of the PTY child; each raises `SIGCHLD` in the daemon. -/
inductive ChildEvent
  /-- stopped by `SIGSTOP`, `SIGTSTP`, ... -/
  | stop
  /-- continued by `SIGCONT` -/
  | cont
  | exit (code : Nat)
  | kill (sig : Nat)
  deriving DecidableEq, Repr

/-- The child's state after an event, when the event can happen in the state it is in. -/
def ChildState.after : ChildState → ChildEvent → Option ChildState
  | .running, .stop => some .stopped
  | .stopped, .cont => some .running
  | .running, .exit code => some (.zombie (.exited code))
  | .running, .kill sig | .stopped, .kill sig => some (.zombie (.signaled sig))
  | _, _ => none

/-- `waitpid(pid, &wstatus, WNOHANG)` on the child: its status, and the child reaped, once it has
terminated; nothing (`0` while it runs or is stopped, `-1` once reaped) otherwise. -/
def waitNohang : ChildState → Option WaitStatus × ChildState
  | .zombie st => (some st, .reaped)
  | st => (none, st)

/-- The exit code the handler records: `WEXITSTATUS` or `128 + WTERMSIG`. -/
def exitCodeOf : WaitStatus → Int
  | .exited code => code % 256
  | .signaled sig => 128 + sig

/-- `server_sigchld`: when `child_pid > 0`, reap the child if it has terminated (recording its
exit code and setting `child_pid` to `-1`), then clear the running flag. -/
def serverSigchld (d : Daemon) : Daemon :=
  if 0 < d.srv.childPid then
    match waitNohang d.child with
    | (some st, c) =>
      { d with child := c, srv := { d.srv with childExitCode := exitCodeOf st, childPid := -1 } }.stop
    | (none, _) => d.stop
  else d

/-- `server_sigterm`. -/
def serverSigterm (d : Daemon) : Daemon := d.stop

/-- What drives the daemon. -/
inductive Step
  | iter (env : IterEnv)
  /-- the child changes, and `SIGCHLD` runs `server_sigchld` -/
  | child (ev : ChildEvent)
  | sigterm

/-- The daemon after a step. -/
def Daemon.step (d : Daemon) : Step → Daemon
  | .iter env => iteration env d
  | .child ev =>
    match d.child.after ev with
    | some c => serverSigchld { d with child := c }
    | none => d
  | .sigterm => serverSigterm d

/-- `accept` returns a descriptor that is not open. -/
def FreshAccept (env : IterEnv) (d : Daemon) : Prop := ∀ c, env.accept = some c → c.fd ∉ d.openFds

/-- Where a step can be taken: an iteration only while the running flag is set, with `accept`
returning a descriptor that is not open; signals at any time. -/
def Step.Allowed (d : Daemon) : Step → Prop
  | .iter env => d.srv.running = true ∧ FreshAccept env d
  | _ => True

/-- Steps taken one after the other, each where it is allowed. -/
inductive Run : Daemon → List Step → Daemon → Prop
  | nil (d : Daemon) : Run d [] d
  | cons {d d' : Daemon} {s : Step} {ss : List Step} :
      s.Allowed d → Run (d.step s) ss d' → Run d (s :: ss) d'

theorem Run.snoc {d d' : Daemon} {ss : List Step} {s : Step} (h : Run d ss d') (ha : s.Allowed d') :
    Run d (ss ++ [s]) (d'.step s) := by
  induction h with
  | nil => exact .cons ha (.nil _)
  | cons ha' _ ih => exact .cons ha' (ih ha)

/-- The states of runs from the state `run_server` enters its loop in, with the listening socket
and the PTY master on different descriptors. -/
def Reachable (d : Daemon) : Prop :=
  ∃ (name cmd : String) (ptyMaster child listenFd created pid : Int) (ss : List Step),
    listenFd ≠ ptyMaster ∧ Run (serverInit name cmd ptyMaster child listenFd created pid) ss d

theorem serverInit_reachable (name cmd : String) {ptyMaster listenFd : Int} (child created pid : Int)
    (hne : listenFd ≠ ptyMaster) : Reachable (serverInit name cmd ptyMaster child listenFd created pid) :=
  ⟨name, cmd, ptyMaster, child, listenFd, created, pid, [], hne, .nil _⟩

theorem Reachable.step {d : Daemon} {s : Step} (h : Reachable d) (ha : s.Allowed d) :
    Reachable (d.step s) :=
  let ⟨name, cmd, pty, child, listen, created, pid, ss, hne, hrun⟩ := h
  ⟨name, cmd, pty, child, listen, created, pid, ss ++ [s], hne, hrun.snoc ha⟩

theorem Reachable.induction {P : Daemon → Prop}
    (init : ∀ name cmd ptyMaster child listenFd created pid, listenFd ≠ ptyMaster →
      P (serverInit name cmd ptyMaster child listenFd created pid))
    (step : ∀ d s, P d → s.Allowed d → P (d.step s)) {d : Daemon} (h : Reachable d) : P d := by
  obtain ⟨name, cmd, pty, child, listen, created, pid, ss, hne, hrun⟩ := h
  have key : ∀ {d₀ ss d}, Run d₀ ss d → P d₀ → P d := by
    intro d₀ ss d hrun
    induction hrun with
    | nil => exact id
    | cons ha _ ih => exact fun hp => ih (step _ _ hp ha)
  exact key hrun (init name cmd pty child listen created pid hne)

/-! ### The loop of `run_server` -/

/-- At every iteration `eventLoop` runs, `accept` returns a descriptor that is not open. -/
def FreshLoop : List IterEnv → Daemon → Prop
  | [], _ => True
  | env :: envs, d => FreshAccept env d ∧ FreshLoop envs (iteration env d)

/-- **The loop of `run_server` is a run.** From a reachable state, the state `eventLoop` stops in
is reachable, when every `accept` it makes returns a descriptor that is not open: every invariant
that holds in all reachable states holds of it. -/
theorem eventLoop_reachable :
    ∀ (envs : List IterEnv) (d : Daemon), Reachable d → FreshLoop envs d → Reachable (eventLoop envs d)
  | [], _, h, _ => h
  | env :: envs, d, h, ⟨hf, hfs⟩ => by
    simp only [eventLoop]
    split
    · exact h
    · split_ifs with hr
      · exact eventLoop_reachable envs _ (h.step (s := .iter env) ⟨hr, hf⟩) hfs
      · exact h

end GhostlySession
