import Mathlib.Data.List.Basic

/-!
# The session registry under concurrent commands

A session `N` is registered by three files in the socket directory: `N.sock`, bound to the
daemon's listening socket, `N.pid` and `N.info`. `cmd_create` checks for `N.sock`; when it is
there it reads `N.pid` and probes the process with `kill(pid, 0)`: a live one means the session
exists, otherwise it removes the three files (`cleanup_session_files`). Then it forks the daemon
and polls for `N.sock` up to twenty times, and `run_server` unlinks `N.sock`, binds its listening socket there, writes `N.pid`, then
`N.info`, serves, and removes the three files at the end of its shutdown. `cmd_open` makes the
same check before it calls `cmd_create`; `enumerate_sessions` removes the files of a session whose
pid is not alive; `cmd_kill` signals the pid it reads and removes the files once the process is
gone.

Each of these steps is one system call, and the processes run concurrently. A `World` holds the
files of one name, the daemons started for it and the commands in progress; a `Label` says who
takes the next step, and `World.run` takes the steps of a schedule. The check works when nothing
runs between its steps (`check_leaves_live`), but it is a separate step from the fork:
`registry_race` runs two `cmd_create` that both pass it before either daemon has bound, and ends
with both daemons serving, `N.sock` and `N.pid` the second's.
-/

namespace GhostlySession

/-- The files of one session name: `N.sock` with the pid of the daemon whose listening socket it
is bound to, `N.pid` with the pid written in it, `N.info` with the pid it records. -/
structure SessionFiles where
  sock : Option Nat
  pid : Option Nat
  info : Option Nat
  deriving DecidableEq, Repr

/-- The `k`-th `unlink` of `cleanup_session_files`: `N.sock`, `N.pid`, then `N.info`. -/
def SessionFiles.unlink (fs : SessionFiles) : Nat → SessionFiles
  | 0 => { fs with sock := none }
  | 1 => { fs with pid := none }
  | _ => { fs with info := none }

/-- Where a daemon started for the name stands, as the registry sees it. -/
inductive DaemonPc
  /-- forked; `create_listen_socket` is about to `unlink` the socket path -/
  | start
  /-- `bind` next -/
  | unlinked
  /-- bound; `write_pid_file` next -/
  | bound
  /-- `write_info_file` next, the signal handlers not installed yet -/
  | pidWritten
  /-- the event loop -/
  | serving
  /-- in its shutdown sequence, at the `k`-th `unlink` of `cleanup_session_files` -/
  | cleanup (k : Nat)
  | dead
  deriving DecidableEq, Repr

/-- Started and not in its shutdown sequence. -/
def DaemonPc.running : DaemonPc → Bool
  | .start | .unlinked | .bound | .pidWritten | .serving => true
  | _ => false

/-- Has written `N.pid` and not begun its shutdown sequence. -/
def DaemonPc.registered : DaemonPc → Bool
  | .pidWritten | .serving => true
  | _ => false

/-- The commands that touch the registry. -/
inductive Command
  | cmdCreate
  | cmdOpen
  | cmdKill
  | enumerateSessions
  deriving DecidableEq, Repr

/-- Where a command stands. -/
inductive Inv
  /-- `file_exists(socket_path(name))`; for `enumerate_sessions`, `readdir` listing `N.sock` -/
  | check (c : Command)
  /-- `read_pid_file(pid_path(name))`, which reads `0` when there is no file -/
  | readPid (c : Command)
  /-- `pid > 0 && process_alive(pid)` on the pid read -/
  | probe (c : Command) (p : Nat)
  /-- the `k`-th `unlink` of `cleanup_session_files` -/
  | clean (c : Command) (k : Nat)
  /-- `cmd_create`'s `fork` of the daemon -/
  | fork
  /-- the parent after the fork: `usleep(50000)` then `file_exists(socket_path(name))`, `n` times
  so far; it returns once the socket is there, or after the twentieth -/
  | poll (n : Nat)
  /-- `cmd_kill`'s `kill(pid, SIGTERM)` -/
  | term (p : Nat)
  /-- `cmd_kill` polling `process_alive(pid)`, `n` times so far -/
  | wait (p : Nat) (n : Nat)
  /-- `cmd_kill`'s `kill(pid, SIGKILL)` -/
  | nine (p : Nat)
  | done
  deriving DecidableEq, Repr

/-- Where a command starts. -/
def Command.start : Command → Inv
  | .cmdKill => .readPid .cmdKill
  | c => .check c

/-- The files of one name, the daemons started for it (the `k`-th with pid `k + 1`), and the
commands in progress. -/
structure World where
  files : SessionFiles
  daemons : List DaemonPc
  invs : List Inv
  deriving DecidableEq, Repr

/-- No file, no daemon, no command. -/
def World.empty : World := ⟨⟨none, none, none⟩, [], []⟩

namespace World

/-- `kill(p, 0) == 0`: `p` is a daemon that has not exited. -/
def alive (w : World) (p : Nat) : Bool := 0 < p && (w.daemons[p - 1]?).any (· != .dead)

/-- The daemon with pid `p` after a signal: `signal` maps its state to the new one. -/
def signal (w : World) (p : Nat) (f : DaemonPc → DaemonPc) : World :=
  { w with daemons := w.daemons.modify f (p - 1) }

/-- `kill(pid, SIGTERM)`: before the handlers are installed the default action ends the process;
`server_sigterm` clears the running flag, and the loop ends into the shutdown sequence. -/
def sigterm : DaemonPc → DaemonPc
  | .start | .unlinked | .bound | .pidWritten => .dead
  | .serving => .cleanup 0
  | pc => pc

/-- Where a command goes when the pid it probed is alive. -/
def onLive (p : Nat) : Command → Inv
  | .cmdKill => .term p
  | _ => .done

/-- Where a command goes after `cleanup_session_files`. -/
def afterClean : Command → Inv
  | .cmdCreate => .fork
  | .cmdOpen => .check .cmdCreate
  | _ => .done

/-- Where a command goes when `N.sock` is not there. -/
def onMissing : Command → Inv
  | .cmdCreate => .fork
  | .cmdOpen => .check .cmdCreate
  | _ => .done

/-- The `i`-th command in progress at `pc`. -/
def setInv (w : World) (i : Nat) (pc : Inv) : World := { w with invs := w.invs.set i pc }

/-- One step of the `i`-th command in progress. -/
def invStep (w : World) (i : Nat) : Option World :=
  match w.invs[i]? with
  | none | some .done => none
  | some (.check c) => some (w.setInv i (if w.files.sock.isSome then .readPid c else onMissing c))
  | some (.readPid c) => some (w.setInv i (.probe c (w.files.pid.getD 0)))
  | some (.probe c p) => some (w.setInv i (if w.alive p then onLive p c else .clean c 0))
  | some (.clean c k) =>
    some ({ w.setInv i (if k + 1 < 3 then .clean c (k + 1) else afterClean c) with
      files := w.files.unlink k })
  | some .fork => some { w.setInv i (.poll 0) with daemons := w.daemons ++ [.start] }
  | some (.poll n) =>
    some (w.setInv i (if w.files.sock.isSome then .done else if n + 1 < 20 then .poll (n + 1)
      else .done))
  | some (.term p) => some ((w.signal p sigterm).setInv i (.wait p 0))
  | some (.wait p n) =>
    some (w.setInv i (if !w.alive p then .clean .cmdKill 0 else if n + 1 < 10 then .wait p (n + 1)
      else .nine p))
  | some (.nine p) => some ((w.signal p fun _ => .dead).setInv i (.clean .cmdKill 0))

/-- The `k`-th daemon at `pc`. -/
def setDaemon (w : World) (k : Nat) (pc : DaemonPc) : World :=
  { w with daemons := w.daemons.set k pc }

/-- One step of the `k`-th daemon: `run_server`'s `unlink` and `bind` of the socket path (a bind
that finds the path taken fails, and the daemon exits), its two writes, the end of its loop (the
child exited, the PTY closed, `poll` failed), and the `unlink`s of its shutdown. -/
def daemonStep (w : World) (k : Nat) : Option World :=
  match w.daemons[k]? with
  | none | some .dead => none
  | some .start => some { w.setDaemon k .unlinked with files := { w.files with sock := none } }
  | some .unlinked =>
    if w.files.sock.isNone then
      some { w.setDaemon k .bound with files := { w.files with sock := some (k + 1) } }
    else some (w.setDaemon k .dead)
  | some .bound => some { w.setDaemon k .pidWritten with files := { w.files with pid := some (k + 1) } }
  | some .pidWritten => some { w.setDaemon k .serving with files := { w.files with info := some (k + 1) } }
  | some .serving => some (w.setDaemon k (.cleanup 0))
  | some (.cleanup j) =>
    some { w.setDaemon k (if j + 1 < 3 then .cleanup (j + 1) else .dead) with files := w.files.unlink j }

end World

/-- Who takes the next step. -/
inductive Label
  /-- a user runs a command -/
  | spawn (c : Command)
  /-- the `i`-th command in progress -/
  | inv (i : Nat)
  /-- the `k`-th daemon -/
  | daemon (k : Nat)
  deriving DecidableEq, Repr

namespace World

/-- One step of a schedule, `none` where the one named cannot move. -/
def step (w : World) : Label → Option World
  | .spawn c => some { w with invs := w.invs ++ [c.start] }
  | .inv i => w.invStep i
  | .daemon k => w.daemonStep k

/-- The steps of a schedule, one after the other. -/
def run : World → List Label → Option World
  | w, [] => some w
  | w, l :: ls => (w.step l).bind (run · ls)

end World

/-- The worlds some schedule reaches from the empty one. -/
def RegReachable (w : World) : Prop := ∃ ls, World.empty.run ls = some w

/-- Each daemon that has written `N.pid` and not begun its shutdown is the only running daemon
for the name, `N.sock` is bound to it, `N.pid` holds its pid, and `N.info` exists. -/
def RegistryOk (w : World) : Prop :=
  ∀ k < w.daemons.length, (w.daemons.getD k .dead).registered = true →
    (∀ j < w.daemons.length, j ≠ k → (w.daemons.getD j .dead).running = false) ∧
      w.files.sock = some (k + 1) ∧ w.files.pid = some (k + 1) ∧ w.files.info.isSome = true

instance (w : World) : Decidable (RegistryOk w) :=
  inferInstanceAs (Decidable (∀ k < w.daemons.length, (w.daemons.getD k .dead).registered = true →
    (∀ j < w.daemons.length, j ≠ k → (w.daemons.getD j .dead).running = false) ∧
      w.files.sock = some (k + 1) ∧ w.files.pid = some (k + 1) ∧ w.files.info.isSome = true))

/-! ### The check, when nothing races it -/

/-- **Against a live session, a check that nothing interrupts changes nothing.** When daemon `k`
serves and `N.sock` and `N.pid` are its, `cmd_create`, `cmd_open` and `enumerate_sessions` run
alone find the socket, read its pid, find it alive, and finish: no file is removed and no daemon
is forked. -/
theorem check_leaves_live {w : World} {k : Nat} (hk : w.daemons[k]? = some .serving)
    (hs : w.files.sock = some (k + 1)) (hp : w.files.pid = some (k + 1)) {c : Command}
    (hc : c ≠ .cmdKill) :
    w.run [.spawn c, .inv w.invs.length, .inv w.invs.length, .inv w.invs.length] =
      some { w with invs := w.invs ++ [.done] } := by
  have hstart : c.start = .check c := by cases c <;> first | rfl | exact absurd rfl hc
  have hlive : ∀ l, ({ files := w.files, daemons := w.daemons, invs := l } : World).alive (k + 1) :=
    fun _ => by simp [World.alive, hk]
  have hdone : World.onLive (k + 1) c = .done := by cases c <;> first | rfl | exact absurd rfl hc
  simp only [World.run, World.step, Option.some_bind, World.invStep, World.setInv, hstart,
    List.getElem?_concat_length, List.set_append_right (s := w.invs) _ _ (le_refl _), Nat.sub_self,
    List.set_cons_zero, hs, hp, Option.isSome_some, if_true, Option.getD_some, hlive, hdone]

/-! ### Two racing `cmd_create` -/

/-- Two `cmd_create` both find no `N.sock` and fork; the first daemon binds, writes `N.pid` and
`N.info` and serves; then the second unlinks `N.sock`, binds, and writes both files; both parents'
polls find the socket. -/
def raceSchedule : List Label :=
  [.spawn .cmdCreate, .spawn .cmdCreate, .inv 0, .inv 1, .inv 0, .inv 1,
    .daemon 0, .daemon 0, .daemon 0, .daemon 0, .daemon 1, .daemon 1, .daemon 1, .daemon 1,
    .inv 0, .inv 1]

/-- **Two daemons serve one name.** After `raceSchedule` both daemons have written `N.pid` and
serve, and `N.sock` and `N.pid` are the second's: the first is unreachable. -/
theorem registry_race : ¬ ∀ w, RegReachable w → RegistryOk w := by
  intro h
  have hrun : World.empty.run raceSchedule =
      some ⟨⟨some 2, some 2, some 2⟩, [.serving, .serving], [.done, .done]⟩ := by decide
  exact absurd (h _ ⟨_, hrun⟩) (by decide)

end GhostlySession
