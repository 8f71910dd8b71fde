import GhostlySession.Protocol.Frame
import Mathlib.Data.List.Perm.Basic
import Mathlib.Data.List.GetD

/-!
# The daemon's state and its client table

`ServerState` is the source's record, with the array `client_fds` and its count `num_clients`
kept as one list, the first `num_clients` entries (`clientFds`). The event loop runs against a
kernel, which holds what the daemon cannot see in its own memory: its pid, its open descriptors,
the frames each client connection has sent and the daemon has not read yet (`inbox`), and the
contents of the info file. A `Daemon` is the two together, with the log of the calls the daemon
made (`Event`), which is what the properties of the loop are stated about.

`server_remove_client` is `serverRemoveClient` and `server_broadcast` is `serverBroadcast`, a
back-to-front loop over the table in which a failed send swaps the last entry into the failed
slot. Both write the info file from the state they leave, so after every removal the info file
holds the current count (`serverRemoveClient_info`).
-/

namespace GhostlySession

/-- `MAX_CLIENTS`. -/
def MAX_CLIENTS : Nat := 16

/-- `ServerState`: `client_fds[0..num_clients)` is `clientFds`. -/
structure ServerState where
  name : String
  command : String
  ptyMaster : Int
  childPid : Int
  listenFd : Int
  clientFds : List Int
  created : Int
  childExitCode : Int
  running : Bool
  deriving DecidableEq, Repr

/-- A wait status, as `WIFEXITED`/`WEXITSTATUS` and `WIFSIGNALED`/`WTERMSIG` read it. -/
inductive WaitStatus
  | exited (code : Nat)
  | signaled (sig : Nat)
  deriving DecidableEq, Repr

/-- The PTY child as the kernel holds it. -/
inductive ChildState
  | running
  | stopped
  /-- terminated with this status and not reaped yet -/
  | zombie (status : WaitStatus)
  | reaped
  deriving DecidableEq, Repr

/-- What `write_info_file` writes: `pid=`, `clients=`, `created=` and `cmd=`. -/
structure InfoFile where
  pid : Int
  clients : Nat
  created : Int
  cmd : String
  deriving DecidableEq, Repr

/-- The calls the daemon makes, as the event loop and the shutdown broadcast make them. -/
inductive Event
  /-- `accept` returned `fd`, on a connection whose peer sends `frames`. -/
  | accepted (fd : Int) (frames : List Frame)
  /-- `fd` joined the client table after sending `hello`, with `count` clients attached before. -/
  | admitted (fd : Int) (hello : Frame) (count : Nat)
  /-- `close(cfd)` on an accepted connection that was not admitted. -/
  | rejected (fd : Int)
  /-- `ioctl(pty_master, TIOCSWINSZ, ...)`. -/
  | winsize (cols rows : UInt16)
  /-- `read(pty_master, ...)` returned these bytes. -/
  | ptyRead (chunk : List UInt8)
  /-- `server_broadcast(srv, MSG_EXIT, &ec, 1)` at shutdown. -/
  | exitBroadcast (code : UInt8)
  /-- `send_msg` to a client, and whether it returned `true`. -/
  | send (fd : Int) (frame : Frame) (ok : Bool)
  /-- `recv_msg` on a client, and the frame it returned. -/
  | recv (fd : Int) (frame : Option Frame)
  /-- `write_all(pty_master, data, len)` with a `DATA` payload received from `src`. -/
  | ptyWrite (src : Int) (bytes : List UInt8)
  /-- The client-input loop at index `i` reads `fds[slot].revents` with `slot = 2 + i`, in a vector
  of `size` entries whose entry `slot` has descriptor `entry` (none past the end), while
  `client_fds[i]` is `client`. -/
  | consult (slot size : Nat) (entry : Option Int) (client : Int)
  /-- `server_remove_client(srv, idx)`, which closes `fd`, with `count` clients attached. -/
  | remove (idx : Nat) (fd : Int) (count : Nat)
  deriving DecidableEq, Repr

/-- The daemon and what the kernel holds for it. -/
structure Daemon where
  srv : ServerState
  /-- `getpid()` -/
  pid : Int
  /-- the daemon's open descriptors -/
  openFds : List Int
  /-- the frames each connection's peer has sent and the daemon has not read -/
  inbox : Int → List Frame
  /-- the contents of `<name>.info` -/
  info : Option InfoFile
  /-- the PTY child, whose pid was `child_pid` when `forkpty` returned -/
  child : ChildState
  /-- the calls made so far -/
  log : List Event

namespace Daemon

/-- Record a call. -/
def emit (d : Daemon) (e : Event) : Daemon := { d with log := d.log ++ [e] }

/-- `close(fd)`. -/
def close (d : Daemon) (fd : Int) : Daemon := { d with openFds := d.openFds.erase fd }

/-- Replace the client table. -/
def setClients (d : Daemon) (l : List Int) : Daemon := { d with srv := { d.srv with clientFds := l } }

/-- `srv.running = false`. -/
def stop (d : Daemon) : Daemon := { d with srv := { d.srv with running := false } }

/-- The record `write_info_file` writes from the current state. -/
def infoOf (d : Daemon) : InfoFile := ⟨d.pid, d.srv.clientFds.length, d.srv.created, d.srv.command⟩

/-- `write_info_file(info_path(name), getpid(), srv.num_clients, srv.created, srv.command)`. -/
def writeInfo (d : Daemon) : Daemon := { d with info := some d.infoOf }

@[simp] theorem emit_srv (d : Daemon) (e : Event) : (d.emit e).srv = d.srv := rfl
@[simp] theorem emit_pid (d : Daemon) (e : Event) : (d.emit e).pid = d.pid := rfl
@[simp] theorem emit_openFds (d : Daemon) (e : Event) : (d.emit e).openFds = d.openFds := rfl
@[simp] theorem emit_inbox (d : Daemon) (e : Event) : (d.emit e).inbox = d.inbox := rfl
@[simp] theorem emit_info (d : Daemon) (e : Event) : (d.emit e).info = d.info := rfl
@[simp] theorem emit_log (d : Daemon) (e : Event) : (d.emit e).log = d.log ++ [e] := rfl
@[simp] theorem close_srv (d : Daemon) (fd : Int) : (d.close fd).srv = d.srv := rfl
@[simp] theorem close_pid (d : Daemon) (fd : Int) : (d.close fd).pid = d.pid := rfl
@[simp] theorem close_openFds (d : Daemon) (fd : Int) :
    (d.close fd).openFds = d.openFds.erase fd := rfl
@[simp] theorem close_inbox (d : Daemon) (fd : Int) : (d.close fd).inbox = d.inbox := rfl
@[simp] theorem close_info (d : Daemon) (fd : Int) : (d.close fd).info = d.info := rfl
@[simp] theorem close_log (d : Daemon) (fd : Int) : (d.close fd).log = d.log := rfl
@[simp] theorem setClients_clientFds (d : Daemon) (l : List Int) :
    (d.setClients l).srv.clientFds = l := rfl
@[simp] theorem setClients_pid (d : Daemon) (l : List Int) : (d.setClients l).pid = d.pid := rfl
@[simp] theorem setClients_openFds (d : Daemon) (l : List Int) :
    (d.setClients l).openFds = d.openFds := rfl
@[simp] theorem setClients_inbox (d : Daemon) (l : List Int) :
    (d.setClients l).inbox = d.inbox := rfl
@[simp] theorem setClients_info (d : Daemon) (l : List Int) : (d.setClients l).info = d.info := rfl
@[simp] theorem setClients_log (d : Daemon) (l : List Int) : (d.setClients l).log = d.log := rfl
@[simp] theorem writeInfo_srv (d : Daemon) : d.writeInfo.srv = d.srv := rfl
@[simp] theorem writeInfo_pid (d : Daemon) : d.writeInfo.pid = d.pid := rfl
@[simp] theorem writeInfo_openFds (d : Daemon) : d.writeInfo.openFds = d.openFds := rfl
@[simp] theorem writeInfo_inbox (d : Daemon) : d.writeInfo.inbox = d.inbox := rfl
@[simp] theorem writeInfo_info (d : Daemon) : d.writeInfo.info = some d.infoOf := rfl
@[simp] theorem writeInfo_log (d : Daemon) : d.writeInfo.log = d.log := rfl
@[simp] theorem stop_clientFds (d : Daemon) : d.stop.srv.clientFds = d.srv.clientFds := rfl
@[simp] theorem stop_running (d : Daemon) : d.stop.srv.running = false := rfl
@[simp] theorem stop_pid (d : Daemon) : d.stop.pid = d.pid := rfl
@[simp] theorem stop_openFds (d : Daemon) : d.stop.openFds = d.openFds := rfl
@[simp] theorem stop_inbox (d : Daemon) : d.stop.inbox = d.inbox := rfl
@[simp] theorem stop_info (d : Daemon) : d.stop.info = d.info := rfl
@[simp] theorem stop_log (d : Daemon) : d.stop.log = d.log := rfl
@[simp] theorem infoOf_stop (d : Daemon) : d.stop.infoOf = d.infoOf := rfl

end Daemon

/-! ### `server_remove_client` -/

/-- `client_fds[idx] = client_fds[num_clients - 1]; num_clients--`, on the table's prefix. -/
def swapRemove (l : List Int) (idx : Nat) : List Int := (l.set idx (l.getLastD 0)).dropLast

@[simp] theorem swapRemove_length (l : List Int) (idx : Nat) :
    (swapRemove l idx).length = l.length - 1 := by
  simp [swapRemove]

theorem swapRemove_perm {l : List Int} {idx : Nat} (h : idx < l.length) :
    (swapRemove l idx).Perm (l.eraseIdx idx) := by
  obtain ⟨a, x, b, rfl, rfl⟩ : ∃ a x b, l = a ++ x :: b ∧ a.length = idx :=
    ⟨l.take idx, l[idx], l.drop (idx + 1), by simp, by simp; omega⟩
  rw [List.eraseIdx_eq_take_drop_succ]
  rcases List.eq_nil_or_concat b with rfl | ⟨b', y, rfl⟩
  · simp [swapRemove, List.set_append_right]
  · have hl : (a ++ x :: (b' ++ [y])).getLastD 0 = y := by
      rw [← List.cons_append, ← List.append_assoc, List.getLastD_concat]
    have hd : (y :: (b' ++ [y])).dropLast = y :: b' := by
      rw [← List.cons_append, List.dropLast_concat]
    rw [List.concat_eq_append, swapRemove, hl, List.set_append_right _ _ (le_refl _), Nat.sub_self,
      List.set_cons_zero, List.dropLast_append_of_ne_nil _ (by simp), hd, List.take_left' rfl,
      show (a ++ x :: (b' ++ [y])).drop (a.length + 1) = b' ++ [y] by simp]
    exact (List.perm_append_singleton y b').symm.append_left a

theorem perm_cons_eraseIdx {l : List Int} {i : Nat} (h : i < l.length) :
    l.Perm (l[i] :: l.eraseIdx i) := by
  conv_lhs => rw [← List.take_append_drop i l, List.drop_eq_getElem_cons h]
  rw [List.eraseIdx_eq_take_drop_succ]
  exact List.perm_middle

theorem perm_swapRemove {l : List Int} {i : Nat} (h : i < l.length) :
    l.Perm (l.getD i 0 :: swapRemove l i) := by
  rw [List.getD_eq_getElem _ 0 h]
  exact (perm_cons_eraseIdx h).trans ((swapRemove_perm h).symm.cons _)

/-- `server_remove_client(srv, idx)`: close the client's descriptor, move the last entry into
its slot, shrink the table, and rewrite the info file. -/
def serverRemoveClient (d : Daemon) (idx : Nat) : Daemon :=
  let fd := d.srv.clientFds.getD idx 0
  (((d.emit (.remove idx fd d.srv.clientFds.length)).close fd).setClients
    (swapRemove d.srv.clientFds idx)).writeInfo

@[simp] theorem serverRemoveClient_srv (d : Daemon) (idx : Nat) :
    (serverRemoveClient d idx).srv = { d.srv with clientFds := swapRemove d.srv.clientFds idx } :=
  rfl

@[simp] theorem serverRemoveClient_openFds (d : Daemon) (idx : Nat) :
    (serverRemoveClient d idx).openFds = d.openFds.erase (d.srv.clientFds.getD idx 0) := rfl

@[simp] theorem serverRemoveClient_inbox (d : Daemon) (idx : Nat) :
    (serverRemoveClient d idx).inbox = d.inbox := rfl

@[simp] theorem serverRemoveClient_log (d : Daemon) (idx : Nat) :
    (serverRemoveClient d idx).log =
      d.log ++ [.remove idx (d.srv.clientFds.getD idx 0) d.srv.clientFds.length] := rfl

/-- **After every removal the info file holds the state it leaves.** -/
theorem serverRemoveClient_info (d : Daemon) (idx : Nat) :
    (serverRemoveClient d idx).info = some (serverRemoveClient d idx).infoOf := rfl

/-! ### `server_broadcast` -/

/-- The loop of `server_broadcast` from index `i - 1` down to `0`; `ok j` is whether `send_msg`
at index `j` returns `true`. -/
def broadcastLoop (f : Frame) (ok : Nat → Bool) : Nat → Daemon → Daemon
  | 0, d => d
  | i + 1, d =>
    let d' := d.emit (.send (d.srv.clientFds.getD i 0) f (ok i))
    broadcastLoop f ok i (if ok i then d' else serverRemoveClient d' i)

/-- `server_broadcast(srv, type, data, len)`. -/
def serverBroadcast (f : Frame) (ok : Nat → Bool) (d : Daemon) : Daemon :=
  broadcastLoop f ok d.srv.clientFds.length d

end GhostlySession
