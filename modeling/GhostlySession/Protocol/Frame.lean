import GhostlySession.Protocol.Io
import Mathlib.Data.Nat.Digits

/-!
# Frames: `send_msg`, `recv_msg` and the payload packings

Every message between a client and the daemon is a frame: a type byte, a 32-bit big-endian
payload length, and the payload (`Frame.encode`, which is what `send_msg` writes). `recv_msg`
reads the header with `read_all`, refuses a length above 1 MiB, and reads the payload.

`headerLen_header`: the length `recv_msg` decodes from the header `send_msg` wrote is the
payload's length, for every length below `2 ^ 32`. From it and the `read_all` lemmas:

* `recvMsg_encode`: a stream that starts with an encoded frame of at most 1 MiB gives that frame
  back and leaves the rest, under any split of the stream into partial reads;
* `recvMsgs_encode`: successive `recv_msg` calls give back a whole sequence of frames in order;
* `recvMsg_rest`: a successful `recv_msg` consumes exactly `5 + len` bytes;
* `recvMsg_outcome`: under any split, `recv_msg` fails exactly when the header is cut short, its
  length is above 1 MiB, or the payload is cut short (`Whole`).

On the sending side, `sendMsgs_sent_of_ok` and `sendMsgs_ok_of_benign` say the same of
successive `send_msg` calls under partial writes, `EINTR` and `EAGAIN`. The window size packing
of `cmd_attach` and `send_window_size` is undone by `run_server`'s decoding
(`unpackWinsize_packWinsize`).
-/

namespace GhostlySession

/-! ### The wire format -/

/-- `MSG_DATA`. -/
def MSG_DATA : UInt8 := 0x01
/-- `MSG_WINCH`. -/
def MSG_WINCH : UInt8 := 0x02
/-- `MSG_DETACH`. -/
def MSG_DETACH : UInt8 := 0x03
/-- `MSG_EXIT`. -/
def MSG_EXIT : UInt8 := 0x04
/-- `MSG_HELLO`. -/
def MSG_HELLO : UInt8 := 0x05

/-- `BUF_SIZE`: the read buffer of the daemon's PTY read and of the client's stdin read. -/
def BUF_SIZE : Nat := 8192

/-- A frame: its type byte and its payload. -/
structure Frame where
  type : UInt8
  payload : List UInt8
  deriving DecidableEq, Repr

/-- The header `send_msg` builds for a payload of `len` bytes: `hdr[0]` the type, then
`(len >> 24) & 0xFF` down to `len & 0xFF`. -/
def header (type : UInt8) (len : Nat) : List UInt8 :=
  [type, UInt8.ofNat (len >>> 24 &&& 0xFF), UInt8.ofNat (len >>> 16 &&& 0xFF),
    UInt8.ofNat (len >>> 8 &&& 0xFF), UInt8.ofNat (len &&& 0xFF)]

/-- The bytes `send_msg` puts on the wire for a frame. -/
def Frame.encode (f : Frame) : List UInt8 := header f.type f.payload.length ++ f.payload

/-- The length `recv_msg` assembles from `hdr[1..4]`. -/
def headerLen (hdr : List UInt8) : Nat :=
  (hdr.getD 1 0).toNat <<< 24 ||| (hdr.getD 2 0).toNat <<< 16 |||
    (hdr.getD 3 0).toNat <<< 8 ||| (hdr.getD 4 0).toNat

theorem uint8_toNat_ofNat (x : Nat) : (UInt8.ofNat x).toNat = x % 256 := by
  simp [UInt8.toNat, UInt8.ofNat, BitVec.toNat_ofNat]

theorem uint16_toNat_ofNat (x : Nat) : (UInt16.ofNat x).toNat = x % 65536 := by
  simp [UInt16.toNat, UInt16.ofNat, BitVec.toNat_ofNat]

theorem byte_toNat (x : Nat) : (UInt8.ofNat (x &&& 0xFF)).toNat = x % 256 := by
  rw [uint8_toNat_ofNat, show (0xFF : Nat) = 2 ^ 8 - 1 from rfl, Nat.and_pow_two_sub_one_eq_mod]
  omega

theorem or_shift (a b i : Nat) (hb : b < 2 ^ i) : a <<< i ||| b = 2 ^ i * a + b := by
  rw [Nat.shiftLeft_eq, Nat.mul_comm, Nat.mul_add_lt_is_or hb]

theorem headerLen_header (type : UInt8) {len : Nat} (h : len < 2 ^ 32) :
    headerLen (header type len) = len := by
  simp only [headerLen, header, List.getD_cons_succ, List.getD_cons_zero, byte_toNat,
    Nat.shiftRight_eq_div_pow, Nat.or_assoc]
  rw [or_shift _ _ 8 (by omega), or_shift _ _ 16 (by omega), or_shift _ _ 24 (by omega)]
  omega

@[simp] theorem header_length (type : UInt8) (len : Nat) : (header type len).length = 5 := rfl

@[simp] theorem encode_length (f : Frame) : f.encode.length = 5 + f.payload.length := by
  simp [Frame.encode, Nat.add_comm]

/-! ### `send_msg` -/

/-- `send_msg(fd, type, data, len)`: the header, then the payload when it is not empty. -/
def sendMsg (ws : List WriteRet) (f : Frame) : WriteResult :=
  let h := writeAll ws (header f.type f.payload.length)
  if h.outcome = .ok ∧ f.payload ≠ [] then
    let p := writeAll h.sched f.payload
    { p with sent := h.sent ++ p.sent }
  else h

theorem sendMsg_of_payload {ws : List WriteRet} {f : Frame}
    (h : (writeAll ws (header f.type f.payload.length)).outcome = .ok ∧ f.payload ≠ []) :
    sendMsg ws f =
      { writeAll (writeAll ws (header f.type f.payload.length)).sched f.payload with
        sent := (writeAll ws (header f.type f.payload.length)).sent ++
          (writeAll (writeAll ws (header f.type f.payload.length)).sched f.payload).sent } := by
  simp only [sendMsg, if_pos h]

theorem sendMsg_of_not {ws : List WriteRet} {f : Frame}
    (h : ¬((writeAll ws (header f.type f.payload.length)).outcome = .ok ∧ f.payload ≠ [])) :
    sendMsg ws f = writeAll ws (header f.type f.payload.length) := by
  simp only [sendMsg, if_neg h]

theorem sendMsg_prefix_encode (ws : List WriteRet) (f : Frame) : (sendMsg ws f).sent <+: f.encode := by
  by_cases h : (writeAll ws (header f.type f.payload.length)).outcome = .ok ∧ f.payload ≠ []
  · rw [sendMsg_of_payload h, Frame.encode, writeAll_sent_of_ok h.1]
    exact (List.prefix_append_right_inj _).2 (writeAll_prefix_buffer _ _)
  · rw [sendMsg_of_not h]
    exact (writeAll_prefix_buffer _ _).trans (List.prefix_append _ _)

theorem sendMsg_sent_of_ok {ws : List WriteRet} {f : Frame} (h : (sendMsg ws f).outcome = .ok) :
    (sendMsg ws f).sent = f.encode := by
  by_cases hc : (writeAll ws (header f.type f.payload.length)).outcome = .ok ∧ f.payload ≠ []
  · rw [sendMsg_of_payload hc] at h ⊢
    rw [writeAll_sent_of_ok hc.1, writeAll_sent_of_ok h, Frame.encode]
  · rw [sendMsg_of_not hc] at h ⊢
    simp only [h, true_and, not_not] at hc
    rw [writeAll_sent_of_ok h, Frame.encode, hc, List.append_nil]

theorem sendMsg_sched_suffix (ws : List WriteRet) (f : Frame) : (sendMsg ws f).sched <:+ ws := by
  by_cases hc : (writeAll ws (header f.type f.payload.length)).outcome = .ok ∧ f.payload ≠ []
  · rw [sendMsg_of_payload hc]
    exact (writeAll_sched_suffix _ _).trans (writeAll_sched_suffix _ _)
  · rw [sendMsg_of_not hc]
    exact writeAll_sched_suffix _ _

theorem sendMsg_count_of_ok {ws : List WriteRet} {f : Frame} (h : (sendMsg ws f).outcome = .ok) :
    ws.countP WriteRet.progress ≤
      (sendMsg ws f).sched.countP WriteRet.progress + f.encode.length := by
  by_cases hc : (writeAll ws (header f.type f.payload.length)).outcome = .ok ∧ f.payload ≠ []
  · rw [sendMsg_of_payload hc] at h ⊢
    have h1 := writeAll_count_of_ok hc.1
    have h2 := writeAll_count_of_ok h
    simp only [header_length, encode_length] at h1 h2 ⊢
    omega
  · rw [sendMsg_of_not hc] at h ⊢
    have := writeAll_count_of_ok h
    simp only [header_length, encode_length] at this ⊢
    omega

theorem sendMsg_ok_of_benign {ws : List WriteRet} {f : Frame} (hb : ∀ w ∈ ws, w.benign)
    (hn : f.encode.length ≤ ws.countP WriteRet.progress) : (sendMsg ws f).outcome = .ok := by
  rw [encode_length] at hn
  have hh : (writeAll ws (header f.type f.payload.length)).outcome = .ok :=
    writeAll_ok_of_benign hb (by simp; omega)
  by_cases hc : (writeAll ws (header f.type f.payload.length)).outcome = .ok ∧ f.payload ≠ []
  · rw [sendMsg_of_payload hc]
    have hc := writeAll_count_of_ok hh
    simp only [header_length] at hc
    exact writeAll_ok_of_benign (fun w hw => hb w ((writeAll_sched_suffix _ _).subset hw))
      (by omega)
  · rwa [sendMsg_of_not hc]

/-- Successive `send_msg` calls on one descriptor, as a sender's loop makes them; the first that
does not return `true` ends the run. -/
def sendMsgs : List WriteRet → List Frame → WriteResult
  | ws, [] => ⟨[], .ok, ws⟩
  | ws, f :: fs =>
    let r := sendMsg ws f
    if r.outcome = .ok then
      let t := sendMsgs r.sched fs
      { t with sent := r.sent ++ t.sent }
    else r

theorem sendMsgs_sent_of_ok {ws : List WriteRet} {fs : List Frame}
    (h : (sendMsgs ws fs).outcome = .ok) : (sendMsgs ws fs).sent = (fs.map Frame.encode).flatten := by
  induction fs generalizing ws with
  | nil => rfl
  | cons f fs ih =>
    by_cases hf : (sendMsg ws f).outcome = .ok
    · simp only [sendMsgs, if_pos hf] at h ⊢
      simp [sendMsg_sent_of_ok hf, ih h]
    · simp only [sendMsgs, if_neg hf] at h
      exact absurd h hf

theorem sendMsgs_ok_of_benign {ws : List WriteRet} {fs : List Frame} (hb : ∀ w ∈ ws, w.benign)
    (hn : (fs.map Frame.encode).flatten.length ≤ ws.countP WriteRet.progress) :
    (sendMsgs ws fs).outcome = .ok := by
  induction fs generalizing ws with
  | nil => rfl
  | cons f fs ih =>
    simp only [List.map_cons, List.flatten_cons, List.length_append] at hn
    have hf : (sendMsg ws f).outcome = .ok := sendMsg_ok_of_benign hb (by omega)
    have hc := sendMsg_count_of_ok hf
    simp only [sendMsgs, hf, if_true]
    exact ih (fun w hw => hb w ((sendMsg_sched_suffix _ _).subset hw)) (by omega)

/-! ### `recv_msg` -/

/-- What `recv_msg` leaves behind: the frame (when it returned `true`), the stream left, how it
ended, and the calls of the schedule it did not use. -/
structure RecvResult where
  frame : Option Frame
  rest : List UInt8
  outcome : Outcome
  sched : List ReadRet

/-- `recv_msg(fd, &type, &data, &len)` on the stream `s`: the five header bytes, then, unless
the length is `0` or above `1024 * 1024`, that many payload bytes. -/
def recvMsg (rs : List ReadRet) (s : List UInt8) : RecvResult :=
  let h := readAll rs s 5
  if h.outcome = .ok then
    let len := headerLen h.got
    if len = 0 then ⟨some ⟨h.got.getD 0 0, []⟩, h.rest, .ok, h.sched⟩
    else if 1024 * 1024 < len then ⟨none, h.rest, .failed, h.sched⟩
    else
      let p := readAll h.sched h.rest len
      ⟨if p.outcome = .ok then some ⟨h.got.getD 0 0, p.got⟩ else none, p.rest, p.outcome, p.sched⟩
  else ⟨none, h.rest, h.outcome, h.sched⟩

/-- A stream that starts with a frame `recv_msg` accepts whole: five header bytes, a length of at
most 1 MiB, and that many bytes after the header. -/
def Whole (s : List UInt8) : Prop :=
  5 ≤ s.length ∧ headerLen (s.take 5) ≤ 1024 * 1024 ∧ 5 + headerLen (s.take 5) ≤ s.length

instance : DecidablePred Whole := fun _ => inferInstanceAs (Decidable (_ ∧ _ ∧ _))

/-- **`recv_msg` consumes exactly `5 + len` bytes.** -/
theorem recvMsg_rest {rs : List ReadRet} {s : List UInt8} {f : Frame}
    (h : (recvMsg rs s).frame = some f) :
    (recvMsg rs s).outcome = .ok ∧ 5 + f.payload.length ≤ s.length ∧
      (recvMsg rs s).rest = s.drop (5 + f.payload.length) := by
  by_cases hh : (readAll rs s 5).outcome = .ok
  · obtain ⟨h5, -, hrest⟩ := readAll_of_ok hh
    by_cases h0 : headerLen (readAll rs s 5).got = 0
    · simp only [recvMsg, hh, h0, if_true, Option.some.injEq] at h ⊢
      subst h
      simp [hrest, h5]
    by_cases hbig : 1024 * 1024 < headerLen (readAll rs s 5).got
    · simp [recvMsg, hh, h0, hbig] at h
    by_cases hp : (readAll (readAll rs s 5).sched (readAll rs s 5).rest
        (headerLen (readAll rs s 5).got)).outcome = .ok
    · simp only [recvMsg, hh, h0, hbig, hp, if_true, if_false, Option.some.injEq] at h ⊢
      subst h
      rw [hrest] at hp ⊢
      obtain ⟨hl, hg, hr⟩ := readAll_of_ok hp
      simp only [hg, hr, List.drop_drop, List.length_take, List.length_drop, true_and] at hl ⊢
      exact ⟨by omega, congrArg (List.drop · s) (by omega)⟩
    · simp [recvMsg, hh, h0, hbig, hp] at h
  · simp [recvMsg, hh] at h

theorem recvMsg_sched_suffix (rs : List ReadRet) (s : List UInt8) : (recvMsg rs s).sched <:+ rs := by
  have h5 := readAll_sched_suffix rs s 5
  dsimp only [recvMsg]
  split_ifs
  all_goals first | exact h5 | exact (readAll_sched_suffix _ _ _).trans h5

theorem recvMsg_count_of_ok {rs : List ReadRet} {s : List UInt8} {f : Frame}
    (h : (recvMsg rs s).frame = some f) :
    rs.countP ReadRet.isGot ≤ (recvMsg rs s).sched.countP ReadRet.isGot + (5 + f.payload.length) := by
  by_cases hh : (readAll rs s 5).outcome = .ok
  · have h5 := readAll_count_of_ok hh
    by_cases h0 : headerLen (readAll rs s 5).got = 0
    · simp only [recvMsg, hh, h0, if_true, Option.some.injEq] at h ⊢
      omega
    by_cases hbig : 1024 * 1024 < headerLen (readAll rs s 5).got
    · simp [recvMsg, hh, h0, hbig] at h
    by_cases hp : (readAll (readAll rs s 5).sched (readAll rs s 5).rest
        (headerLen (readAll rs s 5).got)).outcome = .ok
    · simp only [recvMsg, hh, h0, hbig, hp, if_true, if_false, Option.some.injEq] at h ⊢
      subst h
      obtain ⟨hl, hg, -⟩ := readAll_of_ok hp
      have := readAll_count_of_ok hp
      simp only [hg, List.length_take] at this ⊢
      omega
    · simp [recvMsg, hh, h0, hbig, hp] at h
  · simp [recvMsg, hh] at h

/-- **`recv_msg` undoes `send_msg`**: a stream that starts with an encoded frame of at most
1 MiB gives that frame back, under any split into partial reads that reaches its end. -/
theorem recvMsg_encode {rs : List ReadRet} {f : Frame} (rest : List UInt8)
    (hf : f.payload.length ≤ 1024 * 1024) (hb : ∀ r ∈ rs, r.benign)
    (hn : f.encode.length ≤ rs.countP ReadRet.isGot) :
    (recvMsg rs (f.encode ++ rest)).frame = some f := by
  rw [encode_length] at hn
  have hh : (readAll rs (f.encode ++ rest) 5).outcome = .ok :=
    readAll_ok_of_benign hb (by simp; omega) (by omega)
  obtain ⟨-, hgot, hrest⟩ := readAll_of_ok hh
  have hhdr : (readAll rs (f.encode ++ rest) 5).got = header f.type f.payload.length := by
    rw [hgot, Frame.encode, List.append_assoc, List.take_left' (header_length _ _)]
  have hrest' : (readAll rs (f.encode ++ rest) 5).rest = f.payload ++ rest := by
    rw [hrest, Frame.encode, List.append_assoc, List.drop_left' (header_length _ _)]
  have hlen : headerLen (readAll rs (f.encode ++ rest) 5).got = f.payload.length := by
    rw [hhdr, headerLen_header _ (by omega)]
  have htype : (readAll rs (f.encode ++ rest) 5).got.getD 0 0 = f.type := by rw [hhdr]; rfl
  by_cases h0 : f.payload.length = 0
  · simp only [recvMsg, hh, hlen, h0, htype, if_true, Option.some.injEq]
    cases f
    simp_all
  · have hc := readAll_count_of_ok hh
    have hp : (readAll (readAll rs (f.encode ++ rest) 5).sched (readAll rs (f.encode ++ rest) 5).rest
        f.payload.length).outcome = .ok :=
      readAll_ok_of_benign (fun r hr => hb r ((readAll_sched_suffix _ _ _).subset hr))
        (by rw [hrest']; simp) (by omega)
    have hg : (readAll (readAll rs (f.encode ++ rest) 5).sched (readAll rs (f.encode ++ rest) 5).rest
        f.payload.length).got = f.payload := by
      rw [(readAll_of_ok hp).2.1, hrest', List.take_left' rfl]
    simp only [recvMsg, hh, hlen, h0, htype, hp, hg, if_true, if_false,
      show ¬1024 * 1024 < f.payload.length by omega]

/-- **When `recv_msg` fails**: under any split into partial reads that reaches the end of the
stream, it returns a frame exactly when the stream starts with a `Whole` one, and otherwise
fails. -/
theorem recvMsg_outcome {rs : List ReadRet} {s : List UInt8} (hb : ∀ r ∈ rs, r.benign)
    (hn : s.length < rs.countP ReadRet.isGot) :
    (recvMsg rs s).outcome = if Whole s then .ok else .failed := by
  by_cases h5 : 5 ≤ s.length
  · have hh : (readAll rs s 5).outcome = .ok := readAll_ok_of_benign hb h5 (by omega)
    obtain ⟨-, hgot, hrest⟩ := readAll_of_ok hh
    have hc := readAll_count_of_ok hh
    have hb' : ∀ r ∈ (readAll rs s 5).sched, r.benign :=
      fun r hr => hb r ((readAll_sched_suffix _ _ _).subset hr)
    have hrl : (readAll rs s 5).rest.length = s.length - 5 := by simp [hrest]
    by_cases h0 : headerLen (s.take 5) = 0
    · simp [recvMsg, Whole, hh, hgot, h0, h5]
    by_cases hbig : 1024 * 1024 < headerLen (s.take 5)
    · simp [recvMsg, Whole, hh, hgot, h0, hbig, show ¬headerLen (s.take 5) ≤ 1048576 by omega]
    by_cases hfit : 5 + headerLen (s.take 5) ≤ s.length
    · have hp : (readAll (readAll rs s 5).sched (readAll rs s 5).rest
          (headerLen (s.take 5))).outcome = .ok := readAll_ok_of_benign hb' (by omega) (by omega)
      simp only [recvMsg, hh, hgot, h0, hbig, if_true, if_false] at hp ⊢
      simp [hp, Whole, h5, hfit, show headerLen (s.take 5) ≤ 1048576 by omega]
    · have hp : (readAll (readAll rs s 5).sched (readAll rs s 5).rest
          (headerLen (s.take 5))).outcome = .failed :=
        readAll_failed_of_benign hb' (by omega) (by omega)
      simp only [recvMsg, hh, hgot, h0, hbig, if_true, if_false] at hp ⊢
      simp [hp, Whole, hfit]
  · have hh : (readAll rs s 5).outcome = .failed := readAll_failed_of_benign hb (by omega) hn
    simp [recvMsg, Whole, hh, h5]

/-- Successive `recv_msg` calls on one stream, as a receiver's loop makes them: `k` frames, or
fewer when one does not return `true`. -/
def recvMsgs : Nat → List ReadRet → List UInt8 → List Frame × Outcome × List UInt8
  | 0, _, s => ([], .ok, s)
  | k + 1, rs, s =>
    let r := recvMsg rs s
    match r.frame with
    | some f =>
      let t := recvMsgs k r.sched r.rest
      (f :: t.1, t.2)
    | none => ([], r.outcome, r.rest)

/-- **Frames round-trip**: successive `recv_msg` calls on a stream that starts with the encoded
frames `fs`, each of at most 1 MiB, give back exactly `fs` and leave the rest, under any split
into partial reads that reaches the end of the frames. -/
theorem recvMsgs_encode {fs : List Frame} {rs : List ReadRet} (rest : List UInt8)
    (hfs : ∀ f ∈ fs, f.payload.length ≤ 1024 * 1024) (hb : ∀ r ∈ rs, r.benign)
    (hn : (fs.map Frame.encode).flatten.length ≤ rs.countP ReadRet.isGot) :
    recvMsgs fs.length rs ((fs.map Frame.encode).flatten ++ rest) = (fs, .ok, rest) := by
  induction fs generalizing rs with
  | nil => rfl
  | cons f fs ih =>
    simp only [List.map_cons, List.flatten_cons, List.length_append, List.append_assoc,
      List.mem_cons, forall_eq_or_imp] at hn hfs ⊢
    have hf : (recvMsg rs (f.encode ++ ((fs.map Frame.encode).flatten ++ rest))).frame = some f :=
      recvMsg_encode _ hfs.1 hb (by omega)
    have hr : (recvMsg rs (f.encode ++ ((fs.map Frame.encode).flatten ++ rest))).rest =
        (fs.map Frame.encode).flatten ++ rest := by
      rw [(recvMsg_rest hf).2.2, List.drop_left' (by simp)]
    have hc := recvMsg_count_of_ok hf
    simp only [recvMsgs, hf, hr, List.length_cons]
    rw [ih hfs.2 (fun r h => hb r ((recvMsg_sched_suffix _ _).subset h))
      (by rw [encode_length] at hn; omega)]

/-! ### Payloads and messages -/

/-- The four bytes `cmd_attach` (for `HELLO`) and `send_window_size` (for `WINCH`) pack:
`ws_col` then `ws_row`, each big-endian. -/
def packWinsize (cols rows : UInt16) : List UInt8 :=
  [UInt8.ofNat (cols.toNat >>> 8 &&& 0xFF), UInt8.ofNat (cols.toNat &&& 0xFF),
    UInt8.ofNat (rows.toNat >>> 8 &&& 0xFF), UInt8.ofNat (rows.toNat &&& 0xFF)]

/-- The window size `run_server` applies for a `HELLO` or `WINCH` payload:
`((uint16_t)data[0] << 8) | data[1]`, then the same for the rows. -/
def unpackWinsize (data : List UInt8) : UInt16 × UInt16 :=
  (UInt16.ofNat ((data.getD 0 0).toNat <<< 8 ||| (data.getD 1 0).toNat),
    UInt16.ofNat ((data.getD 2 0).toNat <<< 8 ||| (data.getD 3 0).toNat))

@[simp] theorem packWinsize_length (cols rows : UInt16) : (packWinsize cols rows).length = 4 := rfl

theorem unpack_field (x : UInt16) :
    UInt16.ofNat ((UInt8.ofNat (x.toNat >>> 8 &&& 0xFF)).toNat <<< 8 |||
      (UInt8.ofNat (x.toNat &&& 0xFF)).toNat) = x := by
  have hx := x.toNat_lt_size
  apply UInt16.toNat.inj
  rw [uint16_toNat_ofNat, byte_toNat, byte_toNat, or_shift _ _ 8 (by omega),
    Nat.shiftRight_eq_div_pow]
  simp only [UInt16.size] at hx
  omega

theorem unpackWinsize_packWinsize (cols rows : UInt16) :
    unpackWinsize (packWinsize cols rows) = (cols, rows) := by
  simp only [unpackWinsize, packWinsize, List.getD_cons_succ, List.getD_cons_zero, unpack_field]

/-- The messages of the protocol, with the fields their senders fill in. -/
inductive Msg
  | data (bytes : List UInt8)
  | winch (cols rows : UInt16)
  | detach
  | exit (code : UInt8)
  | hello (cols rows : UInt16)
  deriving DecidableEq, Repr

/-- The frame a sender builds: `send_msg` with the type and the payload packed as
`cmd_attach`, `send_window_size` and `run_server` pack them (`EXIT` carries one byte). -/
def Msg.toFrame : Msg → Frame
  | .data b => ⟨MSG_DATA, b⟩
  | .winch cols rows => ⟨MSG_WINCH, packWinsize cols rows⟩
  | .detach => ⟨MSG_DETACH, []⟩
  | .exit code => ⟨MSG_EXIT, [code]⟩
  | .hello cols rows => ⟨MSG_HELLO, packWinsize cols rows⟩

/-- How the receivers read a frame: `run_server` takes a `DATA` payload as it is, decodes a 4-byte
`WINCH` or `HELLO` payload with `unpackWinsize` and reads `DETACH` whatever its payload;
`cmd_attach` takes `data[0]` of an `EXIT` payload (0 when it is empty). -/
def Msg.ofFrame (f : Frame) : Option Msg :=
  if f.type = MSG_DATA then some (.data f.payload)
  else if f.type = MSG_WINCH ∧ f.payload.length = 4 then
    some (.winch (unpackWinsize f.payload).1 (unpackWinsize f.payload).2)
  else if f.type = MSG_DETACH then some .detach
  else if f.type = MSG_EXIT then some (.exit (f.payload.getD 0 0))
  else if f.type = MSG_HELLO ∧ f.payload.length = 4 then
    some (.hello (unpackWinsize f.payload).1 (unpackWinsize f.payload).2)
  else none

theorem Msg.ofFrame_toFrame (m : Msg) : Msg.ofFrame m.toFrame = some m := by
  cases m <;> simp [Msg.ofFrame, Msg.toFrame, MSG_DATA, MSG_WINCH, MSG_DETACH, MSG_EXIT, MSG_HELLO,
    unpackWinsize_packWinsize]

end GhostlySession
