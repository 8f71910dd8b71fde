import GhostlySession.Server.Loop

/-!
# The attach client

`cmd_attach` after it has connected: it sends `HELLO` with the terminal's size, then polls
standard input and the socket. A `SIGWINCH` sets `got_winch`, which the loop turns into a `WINCH`
frame at its next check; a chunk read from standard input goes out as one `DATA` frame, or, when
it holds `DETACH_KEY`, as an empty `DETACH` frame that ends the loop; `DATA` frames from the
daemon go to standard output and `EXIT` ends the loop with its byte as the exit code.

Each iteration depends on its environment (`AttachEnv`): whether `SIGWINCH` arrived, what `poll`,
`ioctl`, `read` and `recv_msg` return, and whether the `DATA` send returns `true`. Every frame the
client sends is built by `Msg.toFrame` from a message whose `DATA` bytes are one read of at most
`BUF_SIZE` bytes (`cmdAttach_sent`).
-/

namespace GhostlySession

/-- `DETACH_KEY`, Ctrl+backslash. -/
def DETACH_KEY : UInt8 := 0x1C

/-- What `poll` on `[stdin, sock_fd]` returns. -/
inductive AttachPoll
  | ready (stdin sock : Revents)
  | eintr
  | failed

/-- What `read(STDIN_FILENO, buf, sizeof(buf))` returns: the bytes waiting (it takes at most
`BUF_SIZE` of them, and none is end of file), or an error. -/
inductive StdinRet
  | bytes (avail : List UInt8)
  | error

/-- Everything outside the client that one iteration of its loop depends on. -/
structure AttachEnv where
  /-- `SIGWINCH` arrived since `got_winch` was last checked -/
  winch : Bool
  poll : AttachPoll
  /-- the size `ioctl(STDIN_FILENO, TIOCGWINSZ)` reports, when it succeeds -/
  winsize : Option (UInt16 × UInt16)
  stdin : StdinRet
  /-- the `send_msg` of a `DATA` frame returns `true` -/
  dataOk : Bool
  /-- the frame `recv_msg` returns, `none` when it fails -/
  recv : Option Frame

/-- The client: its loop's flags and exit code, the frames it has sent on the socket, and the
bytes it has written to standard output. -/
structure Attach where
  running : Bool
  gotWinch : Bool
  exitCode : UInt8
  sent : List Frame
  out : List UInt8

/-- `send_msg(sock_fd, ...)`. -/
def Attach.send (a : Attach) (m : Msg) : Attach := { a with sent := a.sent ++ [m.toFrame] }

/-- `send_window_size(sock_fd)`: a `WINCH` frame with the terminal's size, nothing when `ioctl`
fails. -/
def sendWindowSize (ws : Option (UInt16 × UInt16)) (a : Attach) : Attach :=
  match ws with
  | some (cols, rows) => a.send (.winch cols rows)
  | none => a

/-- The standard-input branch: end of file ends the loop; a chunk that holds `DETACH_KEY` sends
`DETACH` and ends it; any other chunk goes out as one `DATA` frame, and a failed send ends the
loop. -/
def stdinInput (env : AttachEnv) (a : Attach) : Attach :=
  match env.stdin with
  | .bytes avail =>
    if avail.take BUF_SIZE = [] then { a with running := false }
    else if DETACH_KEY ∈ avail.take BUF_SIZE then { a.send .detach with running := false }
    else if a.running then
      if env.dataOk then a.send (.data (avail.take BUF_SIZE))
      else { a.send (.data (avail.take BUF_SIZE)) with running := false }
    else a
  | .error => a

/-- The socket branch: a failed `recv_msg` ends the loop; `DATA` goes to standard output and
`EXIT` ends the loop with `data[0]` as the exit code. -/
def socketInput (env : AttachEnv) (a : Attach) : Attach :=
  match env.recv with
  | none => { a with running := false }
  | some f =>
    if f.type = MSG_DATA then
      if f.payload ≠ [] then { a with out := a.out ++ f.payload } else a
    else if f.type = MSG_EXIT then
      { a with exitCode := if 1 ≤ f.payload.length then f.payload.getD 0 0 else a.exitCode,
               running := false }
    else a

/-- `got_winch`: send the window size and clear the flag. -/
def checkWinch (ws : Option (UInt16 × UInt16)) (a : Attach) : Attach :=
  if a.gotWinch then sendWindowSize ws { a with gotWinch := false } else a

/-- One iteration of the client loop; a failed `poll` is `break`, which ends the loop as
clearing `running` does. -/
def attachIteration (env : AttachEnv) (a : Attach) : Attach :=
  let a := { a with gotWinch := a.gotWinch || env.winch }
  match env.poll with
  | .eintr => checkWinch env.winsize a
  | .failed => { a with running := false }
  | .ready si so =>
    let a := checkWinch env.winsize a
    let a := if si.pollin then stdinInput env a else a
    let a := if a.running && so.pollin then socketInput env a else a
    if so.pollhup || so.pollerr then { a with running := false } else a

/-- `while (running)`, one environment per iteration. -/
def attachLoop : List AttachEnv → Attach → Attach
  | [], a => a
  | env :: envs, a => if a.running then attachLoop envs (attachIteration env a) else a

/-- The size `cmd_attach` puts in `HELLO`: the terminal's, or 80 × 24 when `ioctl` fails. -/
def helloSize (ws : Option (UInt16 × UInt16)) : UInt16 × UInt16 := ws.getD (80, 24)

/-- The client once `HELLO` is sent. -/
def attachStart (ws : Option (UInt16 × UInt16)) : Attach :=
  ⟨true, false, 0, [Msg.toFrame (.hello (helloSize ws).1 (helloSize ws).2)], []⟩

/-- `cmd_attach` once connected: the client's final state and what it returns, `1` when the
`HELLO` send fails. -/
def cmdAttach (ws : Option (UInt16 × UInt16)) (helloOk : Bool) (envs : List AttachEnv) :
    Attach × Nat :=
  if helloOk then
    let a := attachLoop envs (attachStart ws)
    (a, a.exitCode.toNat)
  else (attachStart ws, 1)

/-! ### The frames the client sends -/

/-- The messages the client sends: `HELLO`, `WINCH`, `DETACH`, and `DATA` of at most `BUF_SIZE`
bytes. -/
def Msg.FromClient : Msg → Prop
  | .data b => b.length ≤ BUF_SIZE
  | .exit _ => False
  | _ => True

/-- Every frame of the list is `Msg.toFrame` of a message the client sends. -/
def ClientFrames (l : List Frame) : Prop := ∀ f ∈ l, ∃ m : Msg, m.FromClient ∧ f = m.toFrame

theorem ClientFrames.send {a : Attach} (h : ClientFrames a.sent) {m : Msg} (hm : m.FromClient) :
    ClientFrames (a.send m).sent := by
  intro f hf
  rcases List.mem_append.1 hf with hf | hf
  · exact h f hf
  · exact ⟨m, hm, List.mem_singleton.1 hf⟩

theorem socketInput_sent (env : AttachEnv) (a : Attach) : (socketInput env a).sent = a.sent := by
  unfold socketInput
  split
  · rfl
  · split_ifs <;> rfl

theorem checkWinch_clientFrames {a : Attach} (h : ClientFrames a.sent)
    (ws : Option (UInt16 × UInt16)) : ClientFrames (checkWinch ws a).sent := by
  unfold checkWinch sendWindowSize
  split_ifs
  · split
    · exact ClientFrames.send (a := { a with gotWinch := false }) h trivial
    · exact h
  · exact h

theorem stdinInput_clientFrames {a : Attach} (h : ClientFrames a.sent) (env : AttachEnv) :
    ClientFrames (stdinInput env a).sent := by
  unfold stdinInput
  split
  · split_ifs
    · exact h
    · exact ClientFrames.send h trivial
    · exact ClientFrames.send h (List.length_take_le _ _)
    · exact ClientFrames.send h (List.length_take_le _ _)
    · exact h
  · exact h

theorem attachIteration_clientFrames {a : Attach} (h : ClientFrames a.sent) (env : AttachEnv) :
    ClientFrames (attachIteration env a).sent := by
  have h1 := checkWinch_clientFrames (a := { a with gotWinch := a.gotWinch || env.winch }) h
    env.winsize
  simp only [attachIteration]
  split
  · exact h1
  · exact h
  · split_ifs <;> (try simp only [socketInput_sent]) <;>
      first | exact stdinInput_clientFrames h1 env | exact h1

theorem attachLoop_clientFrames : ∀ (envs : List AttachEnv) {a : Attach}, ClientFrames a.sent →
    ClientFrames (attachLoop envs a).sent
  | [], _, h => h
  | env :: envs, a, h => by
    unfold attachLoop
    split_ifs
    · exact attachLoop_clientFrames envs (attachIteration_clientFrames h env)
    · exact h

/-- **Every frame `cmd_attach` sends is a client message's frame.** -/
theorem cmdAttach_sent (ws : Option (UInt16 × UInt16)) (helloOk : Bool) (envs : List AttachEnv) :
    ClientFrames (cmdAttach ws helloOk envs).1.sent := by
  have h0 : ClientFrames (attachStart ws).sent := fun f hf =>
    ⟨.hello (helloSize ws).1 (helloSize ws).2, trivial, List.mem_singleton.1 hf⟩
  unfold cmdAttach
  split_ifs
  · exact attachLoop_clientFrames envs h0
  · exact h0

end GhostlySession
