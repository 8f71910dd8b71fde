import GhostlySession.Server.State

/-!
# One iteration of `run_server`'s event loop

The loop body of `run_server` (`while (srv.running)`) in the order of the source: build the
`pollfd` vector from `client_fds`, `poll`, then the admission step (`acceptPhase`), the PTY read
and its broadcast (`ptyPhase`), and the back-to-front client-input loop (`inputLoop`), which reads
`fds[2 + i].revents` from the vector built at the top of the iteration.

Everything outside the daemon is an argument of the iteration (`IterEnv`): the `revents` poll
reports, what `accept` returns and what its peer will send, whether each `send_msg` and
`recv_msg` completes, what the PTY read returns, and what a read past the end of the `pollfd`
vector finds. A `recv_msg` that completes takes the next frame its peer sent (`Daemon.recvFrame`);
one that does not (timeout, end of stream, a bad header) returns `false`.

`serverInit` is the state `run_server` enters the loop in, and `eventLoop` runs iterations until
the running flag is clear or `poll` fails.
-/

namespace GhostlySession

/-- The bits of `revents` the loop reads. -/
structure Revents where
  pollin : Bool
  pollhup : Bool
  pollerr : Bool
  deriving DecidableEq, Repr

/-- No bit set. -/
def Revents.none : Revents := ⟨false, false, false⟩

/-- An entry of the `pollfd` vector after `poll`. -/
structure PollFd where
  fd : Int
  revents : Revents
  deriving DecidableEq, Repr

/-- The vector built at the top of an iteration, `[listen_fd, pty_master, client_fds[0], ...]`,
with the `revents` that `poll` sets on entry `k` being `rev k`. -/
def pollFds (srv : ServerState) (rev : Nat → Revents) : List PollFd :=
  (srv.listenFd :: srv.ptyMaster :: srv.clientFds).enum.map fun p => ⟨p.2, rev p.1⟩

@[simp] theorem pollFds_length (srv : ServerState) (rev : Nat → Revents) :
    (pollFds srv rev).length = srv.clientFds.length + 2 := by simp [pollFds]

theorem pollFds_getElem? (srv : ServerState) (rev : Nat → Revents) (k : Nat) :
    (pollFds srv rev)[k]? =
      (srv.listenFd :: srv.ptyMaster :: srv.clientFds)[k]?.map fun fd => ⟨fd, rev k⟩ := by
  simp only [pollFds, List.getElem?_map, List.getElem?_enum]
  cases (srv.listenFd :: srv.ptyMaster :: srv.clientFds)[k]? <;> rfl

/-- What `poll` returns. -/
inductive PollRet
  | ready (rev : Nat → Revents)
  | eintr
  | failed

/-- A connection `accept` hands out: its descriptor and the frames its peer sends on it. -/
structure Incoming where
  fd : Int
  frames : List Frame

/-- What `read(pty_master, buf, sizeof(buf))` returns: the bytes waiting (it takes at most
`BUF_SIZE` of them, and none means end of file), or an error. -/
inductive PtyRet
  | bytes (avail : List UInt8)
  | eagain
  | eintr
  | error

/-- Everything outside the daemon that one iteration depends on. -/
structure IterEnv where
  poll : PollRet
  /-- `accept` when the listening socket is readable (`none`: it failed) -/
  accept : Option Incoming
  /-- the handshake's `recv_msg` completes within its 2 s timeout -/
  helloOk : Bool
  pty : PtyRet
  /-- `send_msg` at index `j` of the broadcast loop returns `true` -/
  sendOk : Nat → Bool
  /-- `recv_msg` at index `j` of the client-input loop completes within its 30 s timeout -/
  recvOk : Nat → Bool
  /-- what reading `revents` past the end of the `pollfd` vector finds -/
  stale : Revents

namespace Daemon

/-- `recv_msg` on a client connection: the next frame its peer sent when the call completes
(`ok`) and there is one, `none` otherwise. -/
def recvFrame (d : Daemon) (fd : Int) (ok : Bool) : Option Frame × Daemon :=
  match ok, d.inbox fd with
  | true, f :: rest =>
    (some f, { d.emit (.recv fd (some f)) with inbox := Function.update d.inbox fd rest })
  | _, _ => (none, d.emit (.recv fd none))

/-- `accept` returned the connection `c`: the kernel opens its descriptor. -/
def accept (d : Daemon) (c : Incoming) : Daemon :=
  { d.emit (.accepted c.fd c.frames) with
    openFds := c.fd :: d.openFds, inbox := Function.update d.inbox c.fd c.frames }

/-- `close(cfd)` on a connection that is not admitted. -/
def reject (d : Daemon) (fd : Int) : Daemon := (d.emit (.rejected fd)).close fd

theorem recvFrame_eq (d : Daemon) (fd : Int) (ok : Bool) :
    ∃ inbox, (d.recvFrame fd ok).2 = { d.emit (.recv fd (d.recvFrame fd ok).1) with inbox } := by
  unfold recvFrame
  split
  · exact ⟨_, rfl⟩
  · exact ⟨d.inbox, rfl⟩

@[simp] theorem recvFrame_srv (d : Daemon) (fd : Int) (ok : Bool) :
    (d.recvFrame fd ok).2.srv = d.srv := by
  obtain ⟨_, h⟩ := recvFrame_eq d fd ok; rw [h]; rfl
@[simp] theorem recvFrame_pid (d : Daemon) (fd : Int) (ok : Bool) :
    (d.recvFrame fd ok).2.pid = d.pid := by
  obtain ⟨_, h⟩ := recvFrame_eq d fd ok; rw [h]; rfl
@[simp] theorem recvFrame_openFds (d : Daemon) (fd : Int) (ok : Bool) :
    (d.recvFrame fd ok).2.openFds = d.openFds := by
  obtain ⟨_, h⟩ := recvFrame_eq d fd ok; rw [h]; rfl
@[simp] theorem recvFrame_info (d : Daemon) (fd : Int) (ok : Bool) :
    (d.recvFrame fd ok).2.info = d.info := by
  obtain ⟨_, h⟩ := recvFrame_eq d fd ok; rw [h]; rfl
@[simp] theorem recvFrame_log (d : Daemon) (fd : Int) (ok : Bool) :
    (d.recvFrame fd ok).2.log = d.log ++ [.recv fd (d.recvFrame fd ok).1] := by
  obtain ⟨_, h⟩ := recvFrame_eq d fd ok; rw [h]; rfl
theorem recvFrame_inbox_self (d : Daemon) (fd : Int) (ok : Bool) :
    d.inbox fd = (d.recvFrame fd ok).1.toList ++ (d.recvFrame fd ok).2.inbox fd := by
  unfold recvFrame
  split
  · simp_all
  · rfl
theorem recvFrame_inbox_of_ne (d : Daemon) {fd x : Int} (ok : Bool) (h : x ≠ fd) :
    (d.recvFrame fd ok).2.inbox x = d.inbox x := by
  unfold recvFrame
  split
  · exact Function.update_noteq h _ _
  · rfl
theorem recvFrame_fst_eq_some {d : Daemon} {fd : Int} {ok : Bool} {f : Frame} :
    (d.recvFrame fd ok).1 = some f ↔ ok = true ∧ ∃ rest, d.inbox fd = f :: rest := by
  unfold recvFrame
  split <;> simp_all

@[simp] theorem accept_inbox_self (d : Daemon) (c : Incoming) : (d.accept c).inbox c.fd = c.frames :=
  Function.update_same _ _ _

theorem accept_inbox (d : Daemon) (c : Incoming) :
    (d.accept c).inbox = Function.update d.inbox c.fd c.frames := rfl
@[simp] theorem accept_srv (d : Daemon) (c : Incoming) : (d.accept c).srv = d.srv := rfl
@[simp] theorem accept_pid (d : Daemon) (c : Incoming) : (d.accept c).pid = d.pid := rfl
@[simp] theorem accept_openFds (d : Daemon) (c : Incoming) :
    (d.accept c).openFds = c.fd :: d.openFds := rfl
@[simp] theorem accept_info (d : Daemon) (c : Incoming) : (d.accept c).info = d.info := rfl
@[simp] theorem accept_log (d : Daemon) (c : Incoming) :
    (d.accept c).log = d.log ++ [.accepted c.fd c.frames] := rfl
@[simp] theorem reject_srv (d : Daemon) (fd : Int) : (d.reject fd).srv = d.srv := rfl
@[simp] theorem reject_pid (d : Daemon) (fd : Int) : (d.reject fd).pid = d.pid := rfl
@[simp] theorem reject_openFds (d : Daemon) (fd : Int) :
    (d.reject fd).openFds = d.openFds.erase fd := rfl
@[simp] theorem reject_inbox (d : Daemon) (fd : Int) : (d.reject fd).inbox = d.inbox := rfl
@[simp] theorem reject_info (d : Daemon) (fd : Int) : (d.reject fd).info = d.info := rfl
@[simp] theorem reject_log (d : Daemon) (fd : Int) : (d.reject fd).log = d.log ++ [.rejected fd] :=
  rfl

end Daemon

/-- `srv.client_fds[srv.num_clients++] = cfd` after a well-formed `HELLO`: apply its window size,
append the descriptor, and rewrite the info file. -/
def admitClient (d : Daemon) (fd : Int) (h : Frame) : Daemon :=
  (((d.emit (.winsize (unpackWinsize h.payload).1 (unpackWinsize h.payload).2)).emit
    (.admitted fd h d.srv.clientFds.length)).setClients (d.srv.clientFds ++ [fd])).writeInfo

/-- What the admission step does with the handshake's `recv_msg` result on `fd`: admit on a
well-formed `HELLO`, close the connection otherwise. -/
def onHello (fd : Int) : Option Frame × Daemon → Daemon
  | (some h, d) => if h.type = MSG_HELLO ∧ h.payload.length = 4 then admitClient d fd h else d.reject fd
  | (none, d) => d.reject fd

theorem onHello_of_none {fd : Int} {p : Option Frame × Daemon} (h : p.1 = none) :
    onHello fd p = p.2.reject fd := by
  obtain ⟨_ | _, _⟩ := p <;> cases h
  rfl

theorem onHello_of_some {fd : Int} {p : Option Frame × Daemon} {h : Frame} (hp : p.1 = some h) :
    onHello fd p =
      if h.type = MSG_HELLO ∧ h.payload.length = 4 then admitClient p.2 fd h else p.2.reject fd := by
  obtain ⟨_ | _, _⟩ := p <;> cases hp
  rfl

/-- The admission step, `if (fds[0].revents & POLLIN)`: accept, refuse when the table is full,
otherwise read the `HELLO` and admit on a well-formed one. -/
def acceptPhase (env : IterEnv) (rev : Nat → Revents) (d : Daemon) : Daemon :=
  if (rev 0).pollin then
    match env.accept with
    | none => d
    | some c =>
      let d := d.accept c
      if MAX_CLIENTS ≤ d.srv.clientFds.length then d.reject c.fd
      else onHello c.fd (d.recvFrame c.fd env.helloOk)
  else d

/-- The PTY read, `if (fds[1].revents & POLLIN)`: up to `BUF_SIZE` bytes are broadcast as one
`DATA` frame; end of file or an error other than `EAGAIN`/`EINTR` clears the running flag. -/
def ptyOutput (env : IterEnv) (r : Revents) (d : Daemon) : Daemon :=
  if r.pollin then
    match env.pty with
    | .bytes avail =>
      if avail.take BUF_SIZE = [] then d.stop
      else serverBroadcast ⟨MSG_DATA, avail.take BUF_SIZE⟩ env.sendOk
        (d.emit (.ptyRead (avail.take BUF_SIZE)))
    | .eagain | .eintr => d
    | .error => d.stop
  else d

/-- The PTY step: the read, then `POLLHUP` or `POLLERR` on the master clears the running flag. -/
def ptyPhase (env : IterEnv) (rev : Nat → Revents) (d : Daemon) : Daemon :=
  let d := ptyOutput env (rev 1) d
  if (rev 1).pollhup || (rev 1).pollerr then d.stop else d

/-- The `switch (type)` on a frame received from the client at index `i`. -/
def dispatch (i : Nat) (fd : Int) (f : Frame) (d : Daemon) : Daemon :=
  if f.type = MSG_DATA then
    if f.payload ≠ [] then d.emit (.ptyWrite fd f.payload) else d
  else if f.type = MSG_WINCH then
    if f.payload.length = 4 then
      d.emit (.winsize (unpackWinsize f.payload).1 (unpackWinsize f.payload).2)
    else d
  else if f.type = MSG_DETACH then serverRemoveClient d i
  else d

/-- What the client-input loop does with `recv_msg`'s result at index `i`: dispatch the frame, or
remove the client when the call failed. -/
def onRecv (i : Nat) (fd : Int) : Option Frame × Daemon → Daemon
  | (some f, d) => dispatch i fd f d
  | (none, d) => serverRemoveClient d i

theorem onRecv_of_none {i : Nat} {fd : Int} {p : Option Frame × Daemon} (h : p.1 = none) :
    onRecv i fd p = serverRemoveClient p.2 i := by
  obtain ⟨_ | _, _⟩ := p <;> cases h
  rfl

theorem onRecv_of_some {i : Nat} {fd : Int} {p : Option Frame × Daemon} {f : Frame}
    (h : p.1 = some f) : onRecv i fd p = dispatch i fd f p.2 := by
  obtain ⟨_ | _, _⟩ := p <;> cases h
  rfl

/-- The body of the client-input loop at index `i`, reading `revents` from the vector `fds` built
at the top of the iteration. -/
def inputStep (env : IterEnv) (fds : List PollFd) (i : Nat) (d : Daemon) : Daemon :=
  let fd := d.srv.clientFds.getD i 0
  let d := d.emit (.consult (2 + i) fds.length (fds[2 + i]?.map PollFd.fd) fd)
  let r := (fds[2 + i]?.map PollFd.revents).getD env.stale
  if r.pollin then onRecv i fd (d.recvFrame fd (env.recvOk i))
  else if r.pollhup || r.pollerr then serverRemoveClient d i
  else d

/-- The client-input loop from index `i - 1` down to `0`. -/
def inputLoop (env : IterEnv) (fds : List PollFd) : Nat → Daemon → Daemon
  | 0, d => d
  | i + 1, d => inputLoop env fds i (inputStep env fds i d)

/-- One iteration of the loop body; `EINTR` from `poll` is `continue`. -/
def iteration (env : IterEnv) (d : Daemon) : Daemon :=
  match env.poll with
  | .ready rev =>
    let d' := ptyPhase env rev (acceptPhase env rev d)
    inputLoop env (pollFds d.srv rev) d'.srv.clientFds.length d'
  | _ => d

/-- `while (srv.running)`, one environment per iteration: the loop ends when the flag is clear or
`poll` fails (`break`), or when the environments run out. -/
def eventLoop : List IterEnv → Daemon → Daemon
  | [], d => d
  | env :: envs, d =>
    match env.poll with
    | .failed => d
    | _ => if d.srv.running then eventLoop envs (iteration env d) else d

/-- The state `run_server` enters the loop in: the child forked on `ptyMaster`, the socket bound
on `listenFd`, the pid and info files written, no client. -/
def serverInit (name cmd : String) (ptyMaster child listenFd created pid : Int) : Daemon where
  srv :=
    { name, command := if cmd.isEmpty then "bash" else cmd, ptyMaster, childPid := child, listenFd,
      clientFds := [], created, childExitCode := 0, running := true }
  pid := pid
  openFds := [listenFd, ptyMaster]
  inbox := fun _ => []
  info := some ⟨pid, 0, created, if cmd.isEmpty then "bash" else cmd⟩
  child := .running
  log := []

end GhostlySession
