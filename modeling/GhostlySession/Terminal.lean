import GhostlySession.Server.Fanin
import GhostlySession.Client.Detach
import GhostlySession.Client.Output

/-!
# The user's terminal and the shell, end to end

The daemon and the client are modelled apart: `run_server` over the frames each connection's peer
sends, `cmd_attach` over what its standard input and its socket give it. This module joins them
at the socket, in both directions.

`typed_reaches_pty`: `cmd_attach` sends `HELLO`, then one `DATA` frame for each chunk it reads
from standard input that is not end of file and holds no detach key, an empty `DETACH` for a chunk
that holds it, and a `WINCH` whenever the terminal is resized; `run_server` reads a connection's
frames in order and writes the payload of every non-empty `DATA` frame after the first to the PTY
master. When the connection the daemon accepted carries what the client sends, the payloads the
daemon has written to the PTY for it, in any reachable state, are the first of the chunks the
user typed, whole, in order and each once, and nothing else; once the daemon has read every frame
the client sent, they are all of them. `WINCH`, `HELLO` and `DETACH` frames carry no payload for
the PTY (`dataPayloads_dropWinch`, `dataPayloads_chunkFrames`).

`pty_output_reaches_terminal`: the daemon sends the client it admitted the `DATA` frames of the
chunks the PTY produced while it was listed, then `EXIT` frames of the exit code
(`fanout_frames`); the client writes the `DATA` payloads of the frames it reads to standard output
and returns the byte of the `EXIT` it reads (`attachLoop_out`). When the client reads a prefix of
what the daemon sent it, what the user sees is a prefix of what the shell printed, all of it once
the client has read everything, and `cmd_attach` returns the exit code the daemon recorded.
-/

namespace GhostlySession

/-! ### The payloads of the client's frames -/

theorem dataPayloads_append (l l' : List Frame) :
    dataPayloads (l ++ l') = dataPayloads l ++ dataPayloads l' := by
  induction l with
  | nil => rfl
  | cons f l ih => rw [List.cons_append, dataPayloads, dataPayloads, ih]; split_ifs <;> rfl

theorem dataPayloads_cons_of_type {f : Frame} (h : f.type ≠ MSG_DATA) (l : List Frame) :
    dataPayloads (f :: l) = dataPayloads l := by
  simp [dataPayloads, h]

theorem dataPayloads_tail_mono {l l' : List Frame} (h : l <+: l') :
    dataPayloads l.tail <+: dataPayloads l'.tail := by
  obtain ⟨t, rfl⟩ := h
  cases l with
  | nil => exact List.nil_prefix
  | cons f l => rw [List.cons_append, List.tail_cons, List.tail_cons, dataPayloads_append]; exact List.prefix_append _ _

theorem dataPayloads_dropWinch (l : List Frame) : dataPayloads (dropWinch l) = dataPayloads l := by
  induction l with
  | nil => rfl
  | cons f l ih =>
    by_cases hw : f.type = MSG_WINCH
    · rw [dropWinch, List.filter_cons_of_neg (by simp [hw]), ← dropWinch, ih,
        dataPayloads_cons_of_type (by rw [hw]; decide)]
    · rw [dropWinch, List.filter_cons_of_pos (by simpa using hw), ← dropWinch, dataPayloads,
        dataPayloads, ih]

theorem dataPayloads_tail_of_dropWinch {fs rest : List Frame} {f : Frame}
    (h : dropWinch fs = f :: rest) (hf : f.type ≠ MSG_DATA) : dataPayloads fs.tail = dataPayloads rest := by
  cases fs with
  | nil => cases h
  | cons g fs =>
    rw [List.tail_cons, ← dataPayloads_dropWinch fs]
    by_cases hw : g.type = MSG_WINCH
    · rw [dropWinch, List.filter_cons_of_neg (by simp [hw]), ← dropWinch] at h
      rw [h, dataPayloads_cons_of_type hf]
    · rw [dropWinch, List.filter_cons_of_pos (by simpa using hw), ← dropWinch] at h
      rw [(List.cons.inj h).2]

theorem dataPayloads_chunkFrames (cs : List (List UInt8)) :
    dataPayloads (cs.flatMap chunkFrames) = cs.filter fun c => c ≠ [] ∧ DETACH_KEY ∉ c := by
  induction cs with
  | nil => rfl
  | cons c cs ih =>
    rw [List.flatMap_cons, dataPayloads_append, ih]
    by_cases h0 : c = []
    · simp [chunkFrames, h0, dataPayloads]
    · by_cases hk : DETACH_KEY ∈ c
      · simp [chunkFrames, h0, hk, dataPayloads, Msg.toFrame, MSG_DETACH, MSG_DATA]
      · simp [chunkFrames, h0, hk, dataPayloads, Msg.toFrame]

/-! ### From the keyboard to the PTY -/

/-- The chunks the user types into `cmd_attach`: read from standard input, not end of file, and
without the detach key. -/
def typedChunks (ws : Option (UInt16 × UInt16)) (envs : List AttachEnv) : List (List UInt8) :=
  (attachReads envs (attachStart ws)).filter fun c => c ≠ [] ∧ DETACH_KEY ∉ c

theorem cmdAttach_payloads (ws : Option (UInt16 × UInt16)) (envs : List AttachEnv) :
    dataPayloads (cmdAttach ws true envs).1.sent.tail = typedChunks ws envs := by
  have h := (attachLoop_reads envs (attachStart ws)).1
  rw [show dropWinch (attachStart ws).sent = [Msg.toFrame (.hello (helloSize ws).1 (helloSize ws).2)] by
    simp [dropWinch, attachStart, Msg.toFrame, MSG_HELLO, MSG_WINCH], List.singleton_append] at h
  show dataPayloads (attachLoop envs (attachStart ws)).sent.tail = _
  rw [dataPayloads_tail_of_dropWinch h (by simp [Msg.toFrame, MSG_HELLO, MSG_DATA]),
    dataPayloads_chunkFrames]
  rfl

/-- **What the user types reaches the shell, in order and once, and nothing else does.** Let the
daemon accept a connection whose peer sends what `cmd_attach` sends. In every reachable state,
the payloads the daemon has written to the PTY for that connection are the first of the chunks
the user typed (read from standard input, not end of file, without the detach key), whole, in
order and each once; once the daemon has read every frame the client sent, they are all of
them. -/
theorem typed_reaches_pty {d : Daemon} (h : Reachable d) (ws : Option (UInt16 × UInt16))
    (envs : List AttachEnv) {fd : Int} {pre post : List Event}
    (hlog : d.log = pre ++ .accepted fd (cmdAttach ws true envs).1.sent :: post) :
    writesOf (inputOf fd post) <+: typedChunks ws envs ∧
      (recvdOf (inputOf fd post) = (cmdAttach ws true envs).1.sent →
        writesOf (inputOf fd post) = typedChunks ws envs) := by
  obtain ⟨hread, hwrites, -, -⟩ := fedExactly_of_reachable h hlog
  rw [hwrites, ← cmdAttach_payloads]
  exact ⟨dataPayloads_tail_mono hread, fun e => by rw [e]⟩

/-- The user types `ls` and a newline. -/
def typeLs : List AttachEnv :=
  [⟨false, .ready ⟨true, false, false⟩ Revents.none, none, .bytes [108, 115, 10], true, none⟩]

/-- An iteration in which `accept` returns the connection of `typeLs`'s client on descriptor `5`,
which sends its frames. -/
def lsAccept : IterEnv :=
  ⟨.ready fun j => if j = 0 then ⟨true, false, false⟩ else Revents.none,
    some ⟨5, (cmdAttach none true typeLs).1.sent⟩, true, .eagain, fun _ => true, fun _ => true,
    Revents.none⟩

/-- The daemon admits the connection of `typeLs`'s client, then reads its `DATA` frame. -/
def lsSession : Daemon := ((serverInit "s" "" 4 100 3 0 50).step (.iter lsAccept)).step (.iter lsRead)

theorem typed_reaches_pty_ls :
    Reachable lsSession ∧
      lsSession.log = [] ++ .accepted 5 (cmdAttach none true typeLs).1.sent :: lsSession.log.tail ∧
      writesOf (inputOf 5 lsSession.log.tail) = [[108, 115, 10]] ∧
      (writesOf (inputOf 5 lsSession.log.tail) <+: typedChunks none typeLs ∧
        (recvdOf (inputOf 5 lsSession.log.tail) = (cmdAttach none true typeLs).1.sent →
          writesOf (inputOf 5 lsSession.log.tail) = typedChunks none typeLs)) := by
  have h₁ : Reachable ((serverInit "s" "" 4 100 3 0 50).step (.iter lsAccept)) :=
    (serverInit_reachable "s" "" 100 0 50 (by decide)).step
      ⟨rfl, fun c hc => by cases Option.some.inj hc; decide⟩
  have h : Reachable lsSession := h₁.step ⟨rfl, fun c hc => by cases hc⟩
  have hlog : lsSession.log = [] ++ .accepted 5 (cmdAttach none true typeLs).1.sent ::
      lsSession.log.tail := by decide
  exact ⟨h, hlog, by decide, typed_reaches_pty h none typeLs hlog⟩

/-! ### From the PTY to the screen -/

theorem shownOf_dataFrames (bs : List (List UInt8)) : shownOf (bs.map dataFrame) = bs.flatten := by
  induction bs with
  | nil => rfl
  | cons b bs ih => simp [shownOf, dataFrame, ih]

theorem shownOf_exitFrames (es : List UInt8) : shownOf (es.map exitFrame) = [] := by
  induction es with
  | nil => rfl
  | cons e es ih => simp [shownOf, exitFrame, MSG_EXIT, MSG_DATA, ih]

theorem shownOf_mono {l l' : List Frame} (h : l <+: l') : shownOf l <+: shownOf l' := by
  obtain ⟨t, rfl⟩ := h
  rw [shownOf_append]
  exact List.prefix_append _ _

/-- **What the daemon sends a client, up to its removal**: the `DATA` frames of the chunks the
PTY produced while it was listed, then `EXIT` frames, each of the exit code recorded at
shutdown. -/
theorem fanout_frames {d : Daemon} (h : Reachable d) (s : Shutdown) (ok : Nat → Bool) {fd : Int}
    {hello : Frame} {n : Nat} {pre post : List Event}
    (hlog : (exitBroadcast ok (d.afterKill s)).log = pre ++ .admitted fd hello n :: post) :
    (sentOf (lifeOf fd post)).map Prod.fst =
        (chunksOf (lifeOf fd post)).map dataFrame ++ (exitsOf (lifeOf fd post)).map exitFrame ∧
      ∀ e ∈ exitsOf (lifeOf fd post), e = exitByte s.exitCode := by
  have hv : view fd (pre ++ .admitted fd hello n :: post) = view fd pre ++ .admitted :: view fd post :=
    by simp [view, Event.seenBy]
  have hrun := exitBroadcast_view h s ok fd
  have hex := exitBroadcast_exits h s ok fd
  rw [hlog, hv] at hrun hex
  have hτ : listed (exitBroadcast ok (d.afterKill s)) .closed fd = .closed ∨
      listed (exitBroadcast ok (d.afterKill s)) .closed fd = .detached := by
    unfold listed; split <;> simp
  have hsub : (exitsOf (lifeOf fd post)).Sublist [exitByte s.exitCode] :=
    (exitsOf_untilRemoved_sublist _).trans
      (hex ▸ by rw [exitsOf_append]; exact List.sublist_append_right _ _)
  exact ⟨by simpa [Fan.pending] using
      (Fan.run_seg _ _ (by simp) (by simp) (Fan.ends_after_admitted hrun hτ)).1,
    fun e he => List.mem_singleton.1 (hsub.subset he)⟩

/-- **What the shell prints reaches the user's terminal, and its exit code reaches the user.**
Run the daemon to the end of its `EXIT` broadcast, and let the client admitted on `fd` read from
its socket a prefix of the frames the daemon sent it. What `cmd_attach` writes to standard output
is a prefix of the bytes the PTY produced while the client was attached, in order, each once; all
of them once the client has read every frame sent to it; and when the client reads an `EXIT`
frame, `cmd_attach` returns the low byte of the exit code the daemon recorded. -/
theorem pty_output_reaches_terminal {d : Daemon} (h : Reachable d) (s : Shutdown) (ok : Nat → Bool)
    {fd : Int} {hello : Frame} {n : Nat} {pre post : List Event}
    (hlog : (exitBroadcast ok (d.afterKill s)).log = pre ++ .admitted fd hello n :: post)
    (ws : Option (UInt16 × UInt16)) (envs : List AttachEnv)
    (hrecv : attachRecvs envs (attachStart ws) <+: (sentOf (lifeOf fd post)).map Prod.fst) :
    (cmdAttach ws true envs).1.out <+: (chunksOf (lifeOf fd post)).flatten ∧
      (attachRecvs envs (attachStart ws) = (sentOf (lifeOf fd post)).map Prod.fst →
        (cmdAttach ws true envs).1.out = (chunksOf (lifeOf fd post)).flatten) ∧
      ∀ f ∈ attachRecvs envs (attachStart ws), f.type = MSG_EXIT →
        (cmdAttach ws true envs).2 = (exitByte s.exitCode).toNat := by
  obtain ⟨hframes, hexits⟩ := fanout_frames h s ok hlog
  obtain ⟨hout, hcode⟩ := attachLoop_out envs (attachStart ws)
  have hshown : shownOf ((sentOf (lifeOf fd post)).map Prod.fst) = (chunksOf (lifeOf fd post)).flatten := by
    rw [hframes, shownOf_append, shownOf_dataFrames, shownOf_exitFrames, List.append_nil]
  have hout' : (cmdAttach ws true envs).1.out = shownOf (attachRecvs envs (attachStart ws)) := hout
  refine ⟨hout' ▸ hshown ▸ shownOf_mono hrecv, fun e => by rw [hout', e, hshown], fun f hf he => ?_⟩
  have hmem := hrecv.subset hf
  rw [hframes, List.mem_append] at hmem
  rcases hmem with hmem | hmem
  · obtain ⟨b, -, rfl⟩ := List.mem_map.1 hmem
    exact absurd he (show MSG_DATA ≠ MSG_EXIT by decide)
  · obtain ⟨e, he', rfl⟩ := List.mem_map.1 hmem
    show (attachLoop envs (attachStart ws)).exitCode.toNat = _
    rw [hcode _ hf he (Nat.le_refl 1), hexits e he']
    rfl

/-- The client finds its socket readable twice, and reads a `DATA` frame, then an `EXIT`. -/
def watchHi : List AttachEnv :=
  [⟨false, .ready Revents.none ⟨true, false, false⟩, none, .bytes [], true, some ⟨MSG_DATA, [104, 105]⟩⟩,
    ⟨false, .ready Revents.none ⟨true, false, false⟩, none, .bytes [], true, some ⟨MSG_EXIT, [7]⟩⟩]

theorem pty_output_reaches_terminal_hi :
    Reachable hiSession ∧
      (exitBroadcast (fun _ => true) (hiSession.afterKill (Shutdown.start 100 7 .running))).log =
        [.accepted 5 [⟨MSG_HELLO, [0, 80, 0, 24]⟩], .recv 5 (some ⟨MSG_HELLO, [0, 80, 0, 24]⟩),
          .winsize 80 24] ++ .admitted 5 ⟨MSG_HELLO, [0, 80, 0, 24]⟩ 0 :: hiAfterAdmission ∧
      attachRecvs watchHi (attachStart none) <+: (sentOf (lifeOf 5 hiAfterAdmission)).map Prod.fst ∧
      (cmdAttach none true watchHi).1.out = [104, 105] ∧ (cmdAttach none true watchHi).2 = 7 ∧
      ((cmdAttach none true watchHi).1.out <+: (chunksOf (lifeOf 5 hiAfterAdmission)).flatten ∧
        (attachRecvs watchHi (attachStart none) = (sentOf (lifeOf 5 hiAfterAdmission)).map Prod.fst →
          (cmdAttach none true watchHi).1.out = (chunksOf (lifeOf 5 hiAfterAdmission)).flatten) ∧
        ∀ f ∈ attachRecvs watchHi (attachStart none), f.type = MSG_EXIT →
          (cmdAttach none true watchHi).2 = (exitByte (Shutdown.start 100 7 .running).exitCode).toNat) := by
  have h := hiSession_reachable
  have hlog : (exitBroadcast (fun _ => true) (hiSession.afterKill (Shutdown.start 100 7 .running))).log =
      [.accepted 5 [⟨MSG_HELLO, [0, 80, 0, 24]⟩], .recv 5 (some ⟨MSG_HELLO, [0, 80, 0, 24]⟩),
        .winsize 80 24] ++ .admitted 5 ⟨MSG_HELLO, [0, 80, 0, 24]⟩ 0 :: hiAfterAdmission := by decide
  have hrecv : attachRecvs watchHi (attachStart none) <+:
      (sentOf (lifeOf 5 hiAfterAdmission)).map Prod.fst := by decide
  exact ⟨h, hlog, hrecv, by decide, by decide,
    pty_output_reaches_terminal h _ _ hlog none watchHi hrecv⟩

end GhostlySession
