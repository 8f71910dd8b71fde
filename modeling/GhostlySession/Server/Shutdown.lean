import GhostlySession.Server.Table

/-!
# The shutdown sequence

After the loop, `run_server` escalates against the child: when `child_pid > 0` it sends `SIGHUP`,
polls with `waitpid(WNOHANG)`, sends `SIGTERM`, polls again, sends `SIGKILL` and waits; each call
reads `srv.child_pid` afresh. `SIGCHLD` stays handled throughout, so `server_sigchld` may run
between any two of these calls once the child has terminated, and it sets `child_pid` to `-1`.

The sequence is a machine with a program counter (`ShutdownPc`); a run interleaves its steps with
the handler's and with the child's termination (`ShutdownLabel`). Every call the sequence makes
takes the child's pid or `-1` (`shutdown_calls_pid`), and the child's pid as long as the handler
does not run (`shutdown_calls_child_of_no_sigchld`); but the handler can run between the
`child_pid > 0` test and the first `kill`, and the sequence then calls `kill(-1, SIGHUP)`
(`shutdown_kills_all`).

Then the sequence broadcasts `EXIT` with the exit code's low byte (`exitBroadcast`); every
removal in that broadcast rewrites the info file, so it holds the current count there as after
every iteration (`infoFile_current`).
-/

namespace GhostlySession

/-- `SIGHUP`. -/
def SIGHUP : Nat := 1
/-- `SIGKILL`. -/
def SIGKILL : Nat := 9
/-- `SIGTERM`. -/
def SIGTERM : Nat := 15

/-- A call the shutdown sequence makes on the child. -/
inductive Syscall
  | kill (pid : Int) (sig : Nat)
  | waitpid (pid : Int) (nohang : Bool)
  deriving DecidableEq, Repr

/-- The pid argument of a call. -/
def Syscall.pid : Syscall → Int
  | .kill pid _ | .waitpid pid _ => pid

/-! ### The child, as `kill` and `waitpid` see it -/

/-- The child can still run or be stopped: it has not terminated. -/
def ChildState.alive : ChildState → Bool
  | .running | .stopped => true
  | _ => false

/-- A call with this pid reaches the child `P`: its own pid, or `-1` (every process, any child). -/
def Reaches (P pid : Int) : Prop := pid = P ∨ pid = -1

instance (P pid : Int) : Decidable (Reaches P pid) := inferInstanceAs (Decidable (_ ∨ _))

/-- `waitpid(pid, &wstatus, ...)` on the daemon's only child, whose pid is `P`: once it has
terminated, reap it, returning `P` and filling in its status; while it lives, `0` (with
`WNOHANG`); once it is reaped, or for a pid that does not reach it, `-1`. -/
def waitChild (P pid : Int) (c : ChildState) : Int × Option WaitStatus × ChildState :=
  if Reaches P pid then
    match c with
    | .zombie st => (P, some st, .reaped)
    | .reaped => (-1, none, .reaped)
    | c => (0, none, c)
  else (-1, none, c)

/-- `kill(pid, sig)` as it acts on the child: `SIGKILL` terminates it at once; whether `SIGHUP`
and `SIGTERM` terminate it is the child's choice (`ShutdownLabel.die`). -/
def killChild (P pid : Int) (sig : Nat) (c : ChildState) : ChildState :=
  if Reaches P pid ∧ sig = SIGKILL ∧ c.alive then .zombie (.signaled SIGKILL) else c

/-! ### The sequence -/

/-- The points of the shutdown sequence, each before the call it names. -/
inductive ShutdownPc
  /-- `if (srv.child_pid > 0)` -/
  | test
  | hup
  | wait1
  | term
  | wait2
  | kill
  /-- the blocking `waitpid(srv.child_pid, &wstatus, 0)` -/
  | waitBlock
  /-- `if (srv.child_exit_code == 0 && WIFEXITED(wstatus))` -/
  | capture
  | done
  deriving DecidableEq, Repr

/-- What the sequence reads and writes: `srv.child_pid`, `srv.child_exit_code`, its local
`wstatus` (`none` until a `waitpid` fills it in), the child, and the calls made so far. -/
structure Shutdown where
  pc : ShutdownPc
  childPid : Int
  exitCode : Int
  wstatus : Option WaitStatus
  child : ChildState
  calls : List Syscall
  deriving DecidableEq, Repr

namespace Shutdown

/-- `kill(srv.child_pid, sig)`, then on to `next`. -/
def kill (P : Int) (sig : Nat) (next : ShutdownPc) (s : Shutdown) : Shutdown :=
  { s with pc := next, child := killChild P s.childPid sig s.child,
           calls := s.calls ++ [.kill s.childPid sig] }

/-- `if (waitpid(srv.child_pid, &wstatus, WNOHANG) == 0)`: on to `next` when it returns `0`, to
`out` otherwise. -/
def waitNohang (P : Int) (next out : ShutdownPc) (s : Shutdown) : Shutdown :=
  let r := waitChild P s.childPid s.child
  { s with pc := if r.1 = 0 then next else out, wstatus := r.2.1.or s.wstatus, child := r.2.2,
           calls := s.calls ++ [.waitpid s.childPid true] }

/-- The blocking `waitpid(srv.child_pid, &wstatus, 0)`. -/
def waitBlock (P : Int) (s : Shutdown) : Shutdown :=
  let r := waitChild P s.childPid s.child
  { s with pc := .capture, wstatus := r.2.1.or s.wstatus, child := r.2.2,
           calls := s.calls ++ [.waitpid s.childPid false] }

@[simp] theorem kill_calls (P : Int) (sig : Nat) (next : ShutdownPc) (s : Shutdown) :
    (s.kill P sig next).calls = s.calls ++ [.kill s.childPid sig] := rfl
@[simp] theorem kill_childPid (P : Int) (sig : Nat) (next : ShutdownPc) (s : Shutdown) :
    (s.kill P sig next).childPid = s.childPid := rfl
@[simp] theorem waitNohang_calls (P : Int) (next out : ShutdownPc) (s : Shutdown) :
    (s.waitNohang P next out).calls = s.calls ++ [.waitpid s.childPid true] := rfl
@[simp] theorem waitNohang_childPid (P : Int) (next out : ShutdownPc) (s : Shutdown) :
    (s.waitNohang P next out).childPid = s.childPid := rfl
@[simp] theorem waitBlock_calls (P : Int) (s : Shutdown) :
    (s.waitBlock P).calls = s.calls ++ [.waitpid s.childPid false] := rfl
@[simp] theorem waitBlock_childPid (P : Int) (s : Shutdown) : (s.waitBlock P).childPid = s.childPid :=
  rfl

/-- The next step of the sequence, with `junk` what an unwritten `wstatus` reads as; `none` while
the blocking `waitpid` waits for a child that lives, and at the end. -/
def progStep (P : Int) (junk : WaitStatus) (s : Shutdown) : Option Shutdown :=
  match s.pc with
  | .test => some { s with pc := if 0 < s.childPid then .hup else .done }
  | .hup => some (s.kill P SIGHUP .wait1)
  | .wait1 => some (s.waitNohang P .term .capture)
  | .term => some (s.kill P SIGTERM .wait2)
  | .wait2 => some (s.waitNohang P .kill .capture)
  | .kill => some (s.kill P SIGKILL .waitBlock)
  | .waitBlock => if Reaches P s.childPid ∧ s.child.alive then none else some (s.waitBlock P)
  | .capture =>
    some { s with pc := .done,
                  exitCode := match s.wstatus.getD junk with
                    | .exited code => if s.exitCode = 0 then code % 256 else s.exitCode
                    | .signaled _ => s.exitCode }
  | .done => none

/-- `server_sigchld` during the sequence: when `child_pid > 0`, reap the child if it has
terminated, recording its exit code and setting `child_pid` to `-1`. -/
def sigchld (P : Int) (s : Shutdown) : Shutdown :=
  if 0 < s.childPid then
    match waitChild P s.childPid s.child with
    | (_, some st, c) => { s with child := c, exitCode := exitCodeOf st, childPid := -1 }
    | (_, none, c) => { s with child := c }
  else s

end Shutdown

/-- Who moves: the sequence, the handler, or the child, which terminates. -/
inductive ShutdownLabel
  | prog
  /-- `SIGCHLD` is delivered, between the child's termination and its reaping -/
  | sigchld
  | die (status : WaitStatus)
  deriving DecidableEq, Repr

/-- One move, where it can be made. -/
def shutdownStep (P : Int) (junk : WaitStatus) (s : Shutdown) : ShutdownLabel → Option Shutdown
  | .prog => s.progStep P junk
  | .sigchld => match s.child with
    | .zombie _ => some (s.sigchld P)
    | _ => none
  | .die st => if s.child.alive then some { s with child := .zombie st } else none

/-- Moves one after the other; `none` when one of them cannot be made. -/
def shutdownRun (P : Int) (junk : WaitStatus) : List ShutdownLabel → Shutdown → Option Shutdown
  | [], s => some s
  | l :: ls, s => (shutdownStep P junk s l).bind (shutdownRun P junk ls)

/-- The sequence as the loop leaves it: `child_pid` is the child's pid `P`. -/
def Shutdown.start (P exitCode : Int) (child : ChildState) : Shutdown :=
  ⟨.test, P, exitCode, none, child, []⟩

/-! ### The pids the sequence passes -/

theorem shutdownRun_induction {P : Int} {junk : WaitStatus} {I : Shutdown → Prop}
    {labels : List ShutdownLabel}
    (hstep : ∀ s s' l, l ∈ labels → I s → shutdownStep P junk s l = some s' → I s') :
    ∀ {s s' : Shutdown}, I s → shutdownRun P junk labels s = some s' → I s' := by
  induction labels with
  | nil => intro s s' hs h; cases h; exact hs
  | cons l ls ih =>
    intro s s' hs h
    obtain ⟨t, ht, hrun⟩ := Option.bind_eq_some.1 h
    exact ih (fun a b l' hl => hstep a b l' (List.mem_cons_of_mem _ hl)) (hstep s t l (.head _) hs ht)
      hrun

/-- **What one move does to the pid and the calls**: the sequence's calls take the current
`child_pid`, and only the handler changes it, to `-1`. -/
theorem shutdownStep_spec {P : Int} {junk : WaitStatus} {s s' : Shutdown} {l : ShutdownLabel}
    (h : shutdownStep P junk s l = some s') :
    (∃ new, s'.calls = s.calls ++ new ∧ ∀ c ∈ new, c.pid = s.childPid) ∧
      (s'.childPid = s.childPid ∨ l = .sigchld ∧ s'.childPid = -1) := by
  cases l with
  | prog =>
    simp only [shutdownStep, Shutdown.progStep] at h
    split at h <;> (try split_ifs at h) <;> cases h <;> simp [Syscall.pid]
  | sigchld =>
    simp only [shutdownStep] at h
    split at h
    · cases h
      simp only [Shutdown.sigchld]
      split_ifs
      · split <;> simp
      · simp
    · cases h
  | die st =>
    simp only [shutdownStep] at h
    split_ifs at h
    cases h
    simp

/-- **Every call of the sequence reaches the child**: its pid is the child's or `-1`. -/
theorem shutdown_calls_pid {P : Int} {junk : WaitStatus} {labels : List ShutdownLabel}
    {exitCode : Int} {child : ChildState} {s' : Shutdown}
    (h : shutdownRun P junk labels (Shutdown.start P exitCode child) = some s') :
    ∀ c ∈ s'.calls, Reaches P c.pid := by
  have key := shutdownRun_induction
    (I := fun s => Reaches P s.childPid ∧ ∀ c ∈ s.calls, Reaches P c.pid)
    (fun s s' l _ hs hst => by
      obtain ⟨⟨new, hc, hnew⟩, hp⟩ := shutdownStep_spec hst
      refine ⟨?_, ?_⟩
      · rcases hp with hp | ⟨-, hp⟩
        · exact hp ▸ hs.1
        · exact .inr hp
      · intro c hmem
        rw [hc] at hmem
        rcases List.mem_append.1 hmem with hmem | hmem
        · exact hs.2 c hmem
        · exact hnew c hmem ▸ hs.1) ⟨.inl rfl, fun _ h => absurd h (List.not_mem_nil _)⟩ h
  exact key.2

/-- **Without the handler, every call takes the child's pid.** -/
theorem shutdown_calls_child_of_no_sigchld {P : Int} {junk : WaitStatus}
    {labels : List ShutdownLabel} {exitCode : Int} {child : ChildState} {s' : Shutdown}
    (hl : ShutdownLabel.sigchld ∉ labels)
    (h : shutdownRun P junk labels (Shutdown.start P exitCode child) = some s') :
    ∀ c ∈ s'.calls, c.pid = P := by
  have key := shutdownRun_induction
    (I := fun s => s.childPid = P ∧ ∀ c ∈ s.calls, c.pid = P)
    (fun s s' l hmem hs hst => by
      obtain ⟨⟨new, hc, hnew⟩, hp⟩ := shutdownStep_spec hst
      have hp : s'.childPid = s.childPid := hp.resolve_right fun ⟨e, _⟩ => hl (e ▸ hmem)
      refine ⟨hp.trans hs.1, fun c hc' => ?_⟩
      rw [hc] at hc'
      rcases List.mem_append.1 hc' with hc' | hc'
      · exact hs.2 c hc'
      · exact (hnew c hc').trans hs.1) ⟨rfl, fun _ h => absurd h (List.not_mem_nil _)⟩ h
  exact key.2

/-- **The handler between the test and the first `kill` makes the sequence signal every
process**: the child exits right after `child_pid > 0` is tested, `server_sigchld` reaps it and
sets `child_pid` to `-1`, and the sequence calls `kill(-1, SIGHUP)`. -/
theorem shutdown_kills_all :
    ¬ ∀ (P : Int) (junk : WaitStatus) (exitCode : Int) (child : ChildState)
        (labels : List ShutdownLabel) (s' : Shutdown),
        0 < P → child ≠ .reaped →
        shutdownRun P junk labels (Shutdown.start P exitCode child) = some s' →
        ∀ c ∈ s'.calls, c.pid = P := by
  intro h
  have hrun : shutdownRun 100 (.exited 0) [.prog, .die (.exited 0), .sigchld, .prog]
      (Shutdown.start 100 0 .running) = some ⟨.wait1, -1, 0, none, .reaped, [.kill (-1) SIGHUP]⟩ := by
    decide
  exact absurd (h 100 (.exited 0) 0 .running _ _ (by decide) (by decide) hrun _ (.head _))
    (by decide)

/-! ### The `EXIT` broadcast and the info file -/

/-- `(uint8_t)srv.child_exit_code`. -/
def exitByte (code : Int) : UInt8 := UInt8.ofNat (code % 256).toNat

/-- The daemon once the sequence has run: `child_pid`, `child_exit_code` and the child as the run
`s` left them. -/
def Daemon.afterKill (d : Daemon) (s : Shutdown) : Daemon :=
  { d with srv := { d.srv with childPid := s.childPid, childExitCode := s.exitCode }, child := s.child }

/-- `server_broadcast(srv, MSG_EXIT, &ec, 1)` with `ec` the exit code's low byte. -/
def exitBroadcast (ok : Nat → Bool) (d : Daemon) : Daemon :=
  serverBroadcast ⟨MSG_EXIT, [exitByte d.srv.childExitCode]⟩ ok
    (d.emit (.exitBroadcast (exitByte d.srv.childExitCode)))

theorem exitBroadcast_infoInv {d : Daemon} (h : InfoInv d) (s : Shutdown) (ok : Nat → Bool) :
    InfoInv (exitBroadcast ok (d.afterKill s)) :=
  have h' : InfoInv (d.afterKill s) := h
  serverBroadcast_infoInv _ _ (h'.emit _)

/-- **The info file holds the current count after every iteration, after every removal, and at
the end of the `EXIT` broadcast.** -/
theorem infoFile_current {d : Daemon} (h : Reachable d) :
    InfoInv d ∧ (∀ (s : Shutdown) (ok : Nat → Bool), InfoInv (exitBroadcast ok (d.afterKill s))) ∧
      ∀ (d' : Daemon) (i : Nat), InfoInv (serverRemoveClient d' i) :=
  ⟨infoInv_reachable h, exitBroadcast_infoInv (infoInv_reachable h), serverRemoveClient_infoInv⟩

theorem infoFile_current_firstHungUp :
    Reachable firstHungUp ∧ firstHungUp.srv.clientFds = [6] ∧ InfoInv firstHungUp ∧
      (∀ (s : Shutdown) (ok : Nat → Bool), InfoInv (exitBroadcast ok (firstHungUp.afterKill s))) ∧
      ∀ (d' : Daemon) (i : Nat), InfoInv (serverRemoveClient d' i) :=
  ⟨firstHungUp_reachable, by decide, infoFile_current firstHungUp_reachable⟩

end GhostlySession
