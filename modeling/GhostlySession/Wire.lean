import GhostlySession.Server.Sends
import GhostlySession.Client.Attach

/-!
# What goes over the wire

Both ends use one codec: `send_msg` writes a five-byte header and the payload through
`write_all`, `recv_msg` reads them back through `read_all`, and the payloads are packed as
`cmd_attach`, `send_window_size` and `run_server` pack them (`Msg.toFrame`). This module puts
together what the protocol modules prove about the codec with what the daemon and the client
modules prove about the frames they send: messages round-trip through any schedule of partial
writes and reads (`recvMsgs_encode`, `Msg.ofFrame_toFrame`), each `recv_msg` consumes exactly
`5 + len` bytes (`recvMsg_rest`), it fails exactly on a truncated stream or an oversized header
(`recvMsg_failed_iff`), and no frame the program sends is longer than `BUF_SIZE`
(`sends_data_reachable`, `exitBroadcast_appends`, `cmdAttach_sent`).
-/

namespace GhostlySession

/-- **When `recv_msg` fails**: under a split into partial reads that reaches past the end of the
stream, exactly when the header is cut short, its length is above 1 MiB, or the payload is cut
short. -/
theorem recvMsg_failed_iff {rs : List ReadRet} {s : List UInt8} (hb : ∀ r ∈ rs, r.benign)
    (hn : s.length < rs.countP ReadRet.isGot) :
    (recvMsg rs s).outcome = .failed ↔
      s.length < 5 ∨ 1024 * 1024 < headerLen (s.take 5) ∨ s.length < 5 + headerLen (s.take 5) := by
  rw [recvMsg_outcome hb hn]
  by_cases h : Whole s <;> simp only [h, if_true, if_false, reduceCtorEq, false_iff, true_iff] <;>
    simp only [Whole] at h <;> omega

theorem admitClient_hello (d : Daemon) (fd : Int) (cols rows : UInt16) :
    (admitClient d fd (Msg.hello cols rows).toFrame).log =
      d.log ++ [.winsize cols rows, .admitted fd (Msg.hello cols rows).toFrame d.srv.clientFds.length] := by
  simp [admitClient, Msg.toFrame, unpackWinsize_packWinsize]

theorem dispatch_winch (i : Nat) (fd : Int) (d : Daemon) (cols rows : UInt16) :
    (dispatch i fd (Msg.winch cols rows).toFrame d).log = d.log ++ [.winsize cols rows] := by
  simp [dispatch, Msg.toFrame, MSG_DATA, MSG_WINCH, unpackWinsize_packWinsize]

theorem socketInput_exit {env : AttachEnv} (a : Attach) {code : UInt8}
    (h : env.recv = some (Msg.exit code).toFrame) :
    (socketInput env a).exitCode = code ∧ (socketInput env a).running = false := by
  simp [socketInput, h, Msg.toFrame, MSG_DATA, MSG_EXIT]

theorem toFrame_payload_le {m : Msg} (h : ∀ b, m = .data b → b.length ≤ 1024 * 1024) :
    m.toFrame.payload.length ≤ 1024 * 1024 := by
  cases m with
  | data b => exact h b rfl
  | _ => simp [Msg.toFrame]

/-- **Messages round-trip**: a sequence of messages, sent with `send_msg` under a schedule of
partial writes, `EINTR` and `EAGAIN` that lets every write through, is read back by `recv_msg`
under any split into partial reads as the same messages, in order. -/
theorem msgs_roundtrip {ms : List Msg} {ws : List WriteRet} {rs : List ReadRet}
    (hm : ∀ b, Msg.data b ∈ ms → b.length ≤ 1024 * 1024) (hw : ∀ w ∈ ws, w.benign)
    (hwn : (ms.map fun m => m.toFrame.encode).flatten.length ≤ ws.countP WriteRet.progress)
    (hr : ∀ r ∈ rs, r.benign)
    (hrn : (ms.map fun m => m.toFrame.encode).flatten.length ≤ rs.countP ReadRet.isGot) :
    (sendMsgs ws (ms.map Msg.toFrame)).outcome = .ok ∧
      (recvMsgs ms.length rs (sendMsgs ws (ms.map Msg.toFrame)).sent).1.map Msg.ofFrame =
        ms.map some := by
  have hmap : (ms.map Msg.toFrame).map Frame.encode = ms.map fun m => m.toFrame.encode :=
    List.map_map _ _ _
  have hok := sendMsgs_ok_of_benign hw (by rwa [hmap])
  refine ⟨hok, ?_⟩
  have hfit : ∀ f ∈ ms.map Msg.toFrame, f.payload.length ≤ 1024 * 1024 := by
    simp only [List.mem_map]
    rintro _ ⟨m, hmem, rfl⟩
    exact toFrame_payload_le fun b hb => hm b (hb ▸ hmem)
  have hrt := recvMsgs_encode [] hfit hr (by rwa [hmap])
  rw [List.append_nil, List.length_map] at hrt
  rw [sendMsgs_sent_of_ok hok, hrt, List.map_map]
  exact List.map_congr_left fun m _ => Msg.ofFrame_toFrame m

/-- **The wire format.** Messages round-trip through `send_msg`, `write_all`, `read_all` and
`recv_msg`; each `recv_msg` consumes exactly `5 + len` bytes; it fails exactly on a truncated
stream or a length above 1 MiB; every frame the daemon or the client sends has at most
`BUF_SIZE` payload bytes; and the window sizes `run_server` applies and the exit code `cmd_attach`
returns are the ones packed by the other end. -/
theorem codec_roundtrip :
    (∀ (ms : List Msg) (ws : List WriteRet) (rs : List ReadRet),
      (∀ b, Msg.data b ∈ ms → b.length ≤ 1024 * 1024) → (∀ w ∈ ws, w.benign) →
      (ms.map fun m => m.toFrame.encode).flatten.length ≤ ws.countP WriteRet.progress →
      (∀ r ∈ rs, r.benign) →
      (ms.map fun m => m.toFrame.encode).flatten.length ≤ rs.countP ReadRet.isGot →
      (sendMsgs ws (ms.map Msg.toFrame)).outcome = .ok ∧
        (recvMsgs ms.length rs (sendMsgs ws (ms.map Msg.toFrame)).sent).1.map Msg.ofFrame =
          ms.map some) ∧
    (∀ (rs : List ReadRet) (s : List UInt8) (f : Frame), (recvMsg rs s).frame = some f →
      5 + f.payload.length ≤ s.length ∧ (recvMsg rs s).rest = s.drop (5 + f.payload.length)) ∧
    (∀ (rs : List ReadRet) (s : List UInt8), (∀ r ∈ rs, r.benign) →
      s.length < rs.countP ReadRet.isGot →
      ((recvMsg rs s).outcome = .failed ↔
        s.length < 5 ∨ 1024 * 1024 < headerLen (s.take 5) ∨
          s.length < 5 + headerLen (s.take 5))) ∧
    (∀ d : Daemon, Reachable d → ∀ fd f ok, Event.send fd f ok ∈ d.log →
      f.payload.length ≤ BUF_SIZE) ∧
    (∀ (ok : Nat → Bool) (d : Daemon) fd f b, Event.send fd f b ∈ (exitBroadcast ok d).log →
      Event.send fd f b ∈ d.log ∨ f.payload.length = 1) ∧
    (∀ ws helloOk envs, ∀ f ∈ (cmdAttach ws helloOk envs).1.sent, f.payload.length ≤ BUF_SIZE) ∧
    (∀ (d : Daemon) (fd : Int) (cols rows : UInt16),
      (admitClient d fd (Msg.hello cols rows).toFrame).log =
        d.log ++ [.winsize cols rows, .admitted fd (Msg.hello cols rows).toFrame d.srv.clientFds.length]) ∧
    (∀ (i : Nat) (fd : Int) (d : Daemon) (cols rows : UInt16),
      (dispatch i fd (Msg.winch cols rows).toFrame d).log = d.log ++ [.winsize cols rows]) ∧
    (∀ (env : AttachEnv) (a : Attach) (code : UInt8), env.recv = some (Msg.exit code).toFrame →
      (socketInput env a).exitCode = code) := by
  refine ⟨fun _ _ _ => msgs_roundtrip, fun _ _ _ h => (recvMsg_rest h).2, fun _ _ => recvMsg_failed_iff,
    fun d h fd f ok he => (sends_data_reachable h _ he).1 fd f ok rfl |>.2, ?_, ?_, admitClient_hello,
    dispatch_winch, fun _ a _ h => (socketInput_exit a h).1⟩
  · intro ok d fd f b he
    obtain ⟨new, hlog, hnew⟩ := exitBroadcast_appends ok d
    rw [hlog] at he
    rcases List.mem_append.1 he with he | he
    · exact .inl he
    · exact .inr (by rw [hnew _ he fd f b rfl]; rfl)
  · intro ws helloOk envs f hf
    obtain ⟨m, hm, rfl⟩ := cmdAttach_sent ws helloOk envs f hf
    cases m <;> first | exact hm | exact absurd hm id | simp [Msg.toFrame, BUF_SIZE]

/-- A `HELLO` and a `DATA` frame of `hi`, sixteen bytes, written three bytes, then two at a time
with an `EINTR` and an `EAGAIN` in between, and read back under an `EINTR` and reads of two
bytes. -/
theorem codec_roundtrip_partial :
    (sendMsgs ([.wrote 3, .eintr, .eagain true] ++ List.replicate 16 (.wrote 2))
        ([Msg.hello 80 24, .data [104, 105]].map Msg.toFrame)).outcome = .ok ∧
      (recvMsgs 2 (.eintr :: List.replicate 16 (.got 1))
        (sendMsgs ([.wrote 3, .eintr, .eagain true] ++ List.replicate 16 (.wrote 2))
          ([Msg.hello 80 24, .data [104, 105]].map Msg.toFrame)).sent).1.map Msg.ofFrame =
        [some (.hello 80 24), some (.data [104, 105])] :=
  codec_roundtrip.1 _ _ _ (fun b hb => by simp at hb; subst hb; decide) (by decide) (by decide)
    (by decide) (by decide)

end GhostlySession
