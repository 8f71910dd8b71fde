import GhostlySession.Client.Detach

/-!
# What the client shows and returns

In each iteration where the loop still runs after the standard-input branch and `poll` reports
the socket readable, `cmd_attach` calls `recv_msg` (`AttachEnv.recvd`): the payload of a `DATA`
frame goes to standard output, and `EXIT` ends the loop with `data[0]` as the exit code; a failed
`recv_msg` ends it too. `attachRecvs` lists the frames the loop reads.

* `attachIteration_out`, `attachIteration_exit`: what one iteration writes, and that an `EXIT` it
  reads ends the loop with its byte as the exit code; each is put together from one lemma per
  branch of the iteration.
* `attachLoop_out`: over the loop, the client writes to standard output exactly the `DATA`
  payloads of the frames it reads, in order (`shownOf`), and an `EXIT` frame it reads sets the
  exit code `cmd_attach` returns.
-/

namespace GhostlySession

/-- The bytes `cmd_attach` writes to standard output for the frames it reads: the payloads of the
`DATA` frames. -/
def shownOf : List Frame → List UInt8
  | [] => []
  | f :: fs => (if f.type = MSG_DATA then f.payload else []) ++ shownOf fs

/-- The frame an iteration reads from the socket: while the loop still runs after the
standard-input branch and `poll` reports the socket readable, when `recv_msg` succeeds. -/
def AttachEnv.recvd (env : AttachEnv) (a : Attach) : Option Frame :=
  match env.poll with
  | .ready si so =>
    let a := checkWinch env.winsize { a with gotWinch := a.gotWinch || env.winch }
    let a := if si.pollin then stdinInput env a else a
    if a.running && so.pollin then env.recv else none
  | _ => none

/-- The frames the loop reads from the socket, one iteration after another while it runs. -/
def attachRecvs : List AttachEnv → Attach → List Frame
  | [], _ => []
  | env :: envs, a =>
    if a.running then (env.recvd a).toList ++ attachRecvs envs (attachIteration env a) else []

theorem shownOf_append (l l' : List Frame) : shownOf (l ++ l') = shownOf l ++ shownOf l' := by
  induction l with
  | nil => rfl
  | cons f l ih => rw [List.cons_append, shownOf, shownOf, ih, List.append_assoc]

/-! ### The pieces of an iteration -/

theorem checkWinch_out (ws : Option (UInt16 × UInt16)) (a : Attach) : (checkWinch ws a).out = a.out := by
  unfold checkWinch sendWindowSize
  split_ifs
  · split <;> rfl
  · rfl

theorem stdinInput_out (env : AttachEnv) (a : Attach) : (stdinInput env a).out = a.out := by
  unfold stdinInput
  split
  · split_ifs <;> rfl
  · rfl

theorem socketInput_out (env : AttachEnv) (a : Attach) :
    (socketInput env a).out = a.out ++ shownOf env.recv.toList := by
  unfold socketInput
  cases env.recv with
  | none => simp [shownOf]
  | some f =>
    by_cases hd : f.type = MSG_DATA
    · by_cases hp : f.payload ≠ []
      · simp [shownOf, hd, hp]
      · simp_all [shownOf]
    · simp only [hd, if_false, Option.toList_some, shownOf, List.nil_append, List.append_nil]
      split_ifs <;> rfl

theorem socketInput_of_exit {env : AttachEnv} {f : Frame} (h : env.recv = some f) (he : f.type = MSG_EXIT)
    (a : Attach) : (socketInput env a).running = false ∧
      (1 ≤ f.payload.length → (socketInput env a).exitCode = f.payload.getD 0 0) := by
  have hd : f.type ≠ MSG_DATA := by rw [he]; decide
  simp only [socketInput, h, hd, he, if_false, if_true]
  exact ⟨rfl, fun hl => if_pos hl⟩

/-! ### One iteration and the loop -/

theorem attachIteration_out (env : AttachEnv) (a : Attach) :
    (attachIteration env a).out = a.out ++ shownOf (env.recvd a).toList := by
  cases hp : env.poll with
  | eintr => simp [attachIteration, AttachEnv.recvd, hp, checkWinch_out, shownOf]
  | failed => simp [attachIteration, AttachEnv.recvd, hp, shownOf]
  | ready si so =>
    rw [attachIteration_ready hp]
    simp only [AttachEnv.recvd, hp, socketPhase]
    generalize hb : (if si.pollin then stdinInput env (checkWinch env.winsize
      { a with gotWinch := a.gotWinch || env.winch }) else checkWinch env.winsize
      { a with gotWinch := a.gotWinch || env.winch }) = b
    have hb' : b.out = a.out := by
      rw [← hb]; split_ifs <;> simp only [stdinInput_out, checkWinch_out]
    by_cases hr : b.running && so.pollin
    · simp only [hr, if_true]
      split_ifs <;> simp only [socketInput_out, hb']
    · simp only [hr, Bool.false_eq_true, if_false, Option.toList_none, shownOf, List.append_nil]
      split_ifs <;> exact hb'

theorem attachIteration_exit {env : AttachEnv} {a : Attach} {f : Frame} (h : env.recvd a = some f)
    (he : f.type = MSG_EXIT) : (attachIteration env a).running = false ∧
      (1 ≤ f.payload.length → (attachIteration env a).exitCode = f.payload.getD 0 0) := by
  cases hp : env.poll with
  | eintr => simp [AttachEnv.recvd, hp] at h
  | failed => simp [AttachEnv.recvd, hp] at h
  | ready si so =>
    rw [attachIteration_ready hp]
    simp only [AttachEnv.recvd, hp] at h
    generalize (if si.pollin then stdinInput env (checkWinch env.winsize
      { a with gotWinch := a.gotWinch || env.winch }) else checkWinch env.winsize
      { a with gotWinch := a.gotWinch || env.winch }) = b at h ⊢
    by_cases hr : b.running && so.pollin
    · rw [if_pos hr] at h
      obtain ⟨hoff, hcode⟩ := socketInput_of_exit h he b
      simp only [socketPhase, hr, if_true]
      split_ifs <;> exact ⟨by simp [hoff], hcode⟩
    · rw [if_neg hr] at h
      cases h

/-- **What the client shows and returns.** Over the loop, the client writes to standard output
exactly the `DATA` payloads of the frames it reads from the socket, in order, and an `EXIT`
frame it reads leaves its byte as the exit code. -/
theorem attachLoop_out : ∀ (envs : List AttachEnv) (a : Attach),
    (attachLoop envs a).out = a.out ++ shownOf (attachRecvs envs a) ∧
      ∀ f ∈ attachRecvs envs a, f.type = MSG_EXIT → 1 ≤ f.payload.length →
        (attachLoop envs a).exitCode = f.payload.getD 0 0
  | [], a => by simp [attachLoop, attachRecvs, shownOf]
  | env :: envs, a => by
    cases hrun : a.running
    · simp [attachLoop, attachRecvs, hrun, shownOf]
    · obtain ⟨ih1, ih2⟩ := attachLoop_out envs (attachIteration env a)
      simp only [attachLoop, attachRecvs, hrun, if_true, shownOf_append, ← List.append_assoc,
        ← attachIteration_out, ih1, true_and]
      intro f hf he hl
      rcases List.mem_append.1 hf with hf | hf
      · obtain ⟨hoff, hcode⟩ := attachIteration_exit (Option.mem_toList.1 hf) he
        rw [attachLoop_of_not_running envs hoff, hcode hl]
      · exact ih2 f hf he hl

end GhostlySession
