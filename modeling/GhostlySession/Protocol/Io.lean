import Mathlib.Data.List.Basic

/-!
# `write_all` and `read_all` against the kernel

The two byte loops of the source run against a kernel that may split, interrupt or refuse every
call. A schedule lists what successive `write(2)` or `read(2)` calls return, and each loop is
structural recursion over it: a loop that the kernel keeps interrupting is a schedule that runs
out (`Outcome.pending`), never a missing result.

For writes: whatever `write_all` returns, the kernel took a prefix of the buffer
(`writeAll_prefix_buffer`), all of it when the loop returned `true` (`writeAll_sent_of_ok`); partial
writes, `EINTR` and an `EAGAIN` after which `poll` reports the descriptor writable never make it
fail, and enough progressing calls finish it (`writeAll_ok_of_benign`).

For reads: a successful `read_all` returned exactly the first `len` bytes of the stream and left
the rest (`readAll_of_ok`). Under any split into partial reads and `EINTR`s it succeeds when the
stream holds `len` bytes (`readAll_ok_of_benign`) and fails at the end of a shorter stream
(`readAll_failed_of_benign`); a success uses at most `len` of the schedule's reads
(`readAll_count_of_ok`), which is what lets a receiver run many `recv_msg` calls on one schedule.
-/

namespace GhostlySession

/-- How a byte loop ends under a schedule: it returned `true`, returned `false`, or was still
looping when the schedule ran out. -/
inductive Outcome
  | ok
  | failed
  | pending
  deriving DecidableEq, Repr

/-! ### `write_all` -/

/-- What one `write(2)` call returns. -/
inductive WriteRet
  /-- The kernel took the first `n` bytes offered (all of them when fewer were offered). -/
  | wrote (n : Nat)
  | eintr
  /-- `EAGAIN`; the following `poll` for `POLLOUT` reports readiness within 1 s, or not. -/
  | eagain (ready : Bool)
  | error
  deriving DecidableEq, Repr

/-- A call that never makes `write_all` give up: a partial write of at least one byte, `EINTR`,
or `EAGAIN` followed by writability. -/
def WriteRet.benign : WriteRet → Bool
  | .wrote n => 0 < n
  | .eintr => true
  | .eagain ready => ready
  | .error => false

/-- A call that moves the buffer on. -/
def WriteRet.progress : WriteRet → Bool
  | .wrote n => 0 < n
  | _ => false

/-- What `write_all` leaves behind: the bytes the kernel took, how the loop ended, and the calls
of the schedule it did not use. -/
structure WriteResult where
  sent : List UInt8
  outcome : Outcome
  sched : List WriteRet

/-- `write_all(fd, buf, len)`: write until the buffer is empty, retrying on `EINTR`, and on
`EAGAIN` once `poll` reports the descriptor writable. -/
def writeAll : List WriteRet → List UInt8 → WriteResult
  | rs, [] => ⟨[], .ok, rs⟩
  | [], _ :: _ => ⟨[], .pending, []⟩
  | .wrote n :: rs, b@(_ :: _) =>
    let r := writeAll rs (b.drop n)
    { r with sent := b.take n ++ r.sent }
  | .eintr :: rs, b@(_ :: _) => writeAll rs b
  | .eagain true :: rs, b@(_ :: _) => writeAll rs b
  | .eagain false :: rs, _ :: _ => ⟨[], .failed, rs⟩
  | .error :: rs, _ :: _ => ⟨[], .failed, rs⟩

theorem writeAll_prefix_buffer (rs : List WriteRet) (b : List UInt8) : (writeAll rs b).sent <+: b := by
  induction rs, b using writeAll.induct with
  | case3 n rs b hb ih =>
    exact ((List.prefix_append_right_inj _).2 ih).trans
      (List.take_append_drop n _ ▸ List.prefix_refl _)
  | case1 => simp [writeAll]
  | case4 _ _ _ ih | case5 _ _ _ ih => exact ih
  | _ => exact List.nil_prefix

theorem writeAll_sent_of_ok {rs : List WriteRet} {b : List UInt8}
    (h : (writeAll rs b).outcome = .ok) : (writeAll rs b).sent = b := by
  induction rs, b using writeAll.induct with
  | case1 => simp [writeAll]
  | case3 n _ x xs ih =>
    exact (congrArg ((x :: xs).take n ++ ·) (ih h)).trans (List.take_append_drop n _)
  | case4 _ _ _ ih | case5 _ _ _ ih => exact ih h
  | _ => cases h

theorem writeAll_ok_of_benign {rs : List WriteRet} {b : List UInt8} (hb : ∀ r ∈ rs, r.benign)
    (hlen : b.length ≤ rs.countP WriteRet.progress) : (writeAll rs b).outcome = .ok := by
  induction rs, b using writeAll.induct with
  | case1 => simp [writeAll]
  | case2 => simp at hlen
  | case3 n rs b hb' ih =>
    simp only [List.mem_cons, forall_eq_or_imp, WriteRet.benign, decide_eq_true_eq] at hb
    simp only [List.countP_cons, WriteRet.progress, hb.1, decide_True, if_true] at hlen
    exact ih hb.2 (by simp only [List.length_drop, List.length_cons] at hlen ⊢; omega)
  | case4 _ _ _ ih | case5 _ _ _ ih =>
    exact ih (fun r hr => hb r (List.mem_cons_of_mem _ hr)) (by simpa [WriteRet.progress] using hlen)
  | case6 | case7 => simp [WriteRet.benign] at hb

theorem writeAll_sched_suffix (rs : List WriteRet) (b : List UInt8) :
    (writeAll rs b).sched <:+ rs := by
  induction rs, b using writeAll.induct with
  | case3 _ _ _ _ ih | case4 _ _ _ ih | case5 _ _ _ ih => exact ih.trans (List.suffix_cons _ _)
  | _ => simp [writeAll]

theorem writeAll_count_of_ok {rs : List WriteRet} {b : List UInt8}
    (h : (writeAll rs b).outcome = .ok) :
    rs.countP WriteRet.progress ≤ (writeAll rs b).sched.countP WriteRet.progress + b.length := by
  induction rs, b using writeAll.induct with
  | case3 n rs b hb ih =>
    have := ih h
    simp only [List.length_drop, List.length_cons] at this
    simp only [writeAll, List.countP_cons, WriteRet.progress, List.length_cons]
    split <;> simp_all
    omega
  | _ => simp_all [writeAll, WriteRet.progress]

/-! ### `read_all` -/

/-- What one `read(2)` call returns. -/
inductive ReadRet
  /-- `n + 1` bytes, or fewer when fewer are asked for or left; `0` at the end of the stream. -/
  | got (n : Nat)
  | eintr
  | error
  deriving DecidableEq, Repr

/-- A call other than a hard error: the kernel splitting or interrupting the stream. -/
def ReadRet.benign : ReadRet → Bool
  | .error => false
  | _ => true

/-- A call that returns data (or the end of the stream). -/
def ReadRet.isGot : ReadRet → Bool
  | .got _ => true
  | _ => false

/-- What `read_all` leaves behind: the bytes read, the stream left, how the loop ended, and the
calls of the schedule it did not use. -/
structure ReadResult where
  got : List UInt8
  rest : List UInt8
  outcome : Outcome
  sched : List ReadRet

/-- `read_all(fd, buf, len)` on the stream `s`: read until `len` bytes have arrived, retrying on
`EINTR`; the end of the stream or another error fails. -/
def readAll : List ReadRet → List UInt8 → Nat → ReadResult
  | rs, s, 0 => ⟨[], s, .ok, rs⟩
  | [], s, _ + 1 => ⟨[], s, .pending, []⟩
  | .got _ :: rs, [], _ + 1 => ⟨[], [], .failed, rs⟩
  | .got n :: rs, x :: s, len + 1 =>
    let m := min (n + 1) (min (len + 1) (s.length + 1))
    let r := readAll rs ((x :: s).drop m) (len + 1 - m)
    { r with got := (x :: s).take m ++ r.got }
  | .eintr :: rs, s, len + 1 => readAll rs s (len + 1)
  | .error :: rs, s, _ + 1 => ⟨[], s, .failed, rs⟩

theorem readAll_of_ok {rs : List ReadRet} {s : List UInt8} {len : Nat}
    (h : (readAll rs s len).outcome = .ok) :
    len ≤ s.length ∧ (readAll rs s len).got = s.take len ∧
      (readAll rs s len).rest = s.drop len := by
  induction rs, s, len using readAll.induct with
  | case1 => simp [readAll]
  | case4 n rs x s len m ih =>
    simp only [readAll] at h ⊢
    obtain ⟨h1, h2, h3⟩ := ih h
    have hm : m ≤ len + 1 := by omega
    simp only [List.length_drop, List.length_cons] at h1
    refine ⟨by simp; omega, ?_, ?_⟩
    · rw [h2, ← List.take_add, Nat.add_sub_cancel' hm]
    · rw [h3, List.drop_drop, Nat.add_sub_cancel' hm]
  | case5 _ _ _ ih => exact ih h
  | _ => cases h

theorem readAll_ok_of_benign {rs : List ReadRet} {s : List UInt8} {len : Nat}
    (hb : ∀ r ∈ rs, r.benign) (hs : len ≤ s.length) (hn : len ≤ rs.countP ReadRet.isGot) :
    (readAll rs s len).outcome = .ok := by
  induction rs, s, len using readAll.induct with
  | case1 => simp [readAll]
  | case2 => simp at hn
  | case3 => simp at hs
  | case4 n rs x s len m ih =>
    simp only [List.mem_cons, forall_eq_or_imp] at hb
    simp only [List.countP_cons, ReadRet.isGot, if_true] at hn
    exact ih hb.2 (by simp at hs ⊢; omega) (by omega)
  | case5 _ _ _ ih =>
    exact ih (fun r hr => hb r (List.mem_cons_of_mem _ hr)) hs (by simpa [ReadRet.isGot] using hn)
  | case6 => simp [ReadRet.benign] at hb

theorem readAll_failed_of_benign {rs : List ReadRet} {s : List UInt8} {len : Nat}
    (hb : ∀ r ∈ rs, r.benign) (hs : s.length < len) (hn : s.length < rs.countP ReadRet.isGot) :
    (readAll rs s len).outcome = .failed := by
  induction rs, s, len using readAll.induct with
  | case1 => simp at hs
  | case2 => simp at hn
  | case3 => simp [readAll]
  | case4 n rs x s len m ih =>
    simp only [List.mem_cons, forall_eq_or_imp] at hb
    simp only [List.countP_cons, ReadRet.isGot, if_true] at hn
    exact ih hb.2 (by simp only [List.length_cons, List.length_drop] at hs ⊢; omega)
      (by simp only [List.length_cons, List.length_drop] at hn ⊢; omega)
  | case5 _ _ _ ih =>
    exact ih (fun r hr => hb r (List.mem_cons_of_mem _ hr)) hs (by simpa [ReadRet.isGot] using hn)
  | case6 => simp [ReadRet.benign] at hb

theorem readAll_sched_suffix (rs : List ReadRet) (s : List UInt8) (len : Nat) :
    (readAll rs s len).sched <:+ rs := by
  induction rs, s, len using readAll.induct with
  | case4 _ _ _ _ _ _ ih | case5 _ _ _ ih => exact ih.trans (List.suffix_cons _ _)
  | _ => simp [readAll]

theorem readAll_count_of_ok {rs : List ReadRet} {s : List UInt8} {len : Nat}
    (h : (readAll rs s len).outcome = .ok) :
    rs.countP ReadRet.isGot ≤ (readAll rs s len).sched.countP ReadRet.isGot + len := by
  induction rs, s, len using readAll.induct with
  | case4 n rs x s len m ih =>
    simp only [readAll] at h ⊢
    have := ih h
    simp only [m] at this
    simp only [List.countP_cons, ReadRet.isGot, if_true]
    omega
  | case1 => simp [readAll]
  | case5 _ _ _ ih => simpa [ReadRet.isGot] using ih h
  | _ => cases h

end GhostlySession
