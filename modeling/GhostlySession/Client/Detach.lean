import GhostlySession.Client.Attach

/-!
# Keystrokes and the detach key

In each iteration where `poll` reports standard input readable, `cmd_attach` reads one chunk of at
most `BUF_SIZE` bytes. An empty chunk is end of file and ends the loop; a chunk holding
`DETACH_KEY` is dropped, an empty `DETACH` frame goes out in its place, and the loop ends with the
exit code untouched; any other chunk goes out as one `DATA` frame, and a failed send ends the
loop. The loop also ends on `EXIT`, a failed `recv_msg`, a hang-up or error on the socket, and a
failed `poll`. `SIGWINCH` only adds `WINCH` frames.

`attachReads` lists the chunks the client reads, and `chunkFrames` the frames the client sends
for one of them.

* `attachIteration_spec`: what one iteration appends to the frames other than `WINCH`, that it
  keeps running only after a chunk that is neither end of file nor holds the key, and what a
  chunk with the key does; it is put together from one lemma per piece of the iteration
  (`checkWinch_fields`, `stdinInput_of_running`, `socketPhase_running`).
* `attachLoop_reads`: the same over the whole loop, by induction over the environments.
* `attach_frames`: after `HELLO`, and leaving out `WINCH`, the client sends exactly the frames
  of the chunks it reads; only the last chunk read can be end of file or hold the key; and after
  the key, `DETACH` is the last frame sent and `cmd_attach` returns `0`.

The key is acted on only if its chunk is read: `detach_lost_after_failed_send` types `a` and then
the key, and the send of `a` fails; the loop ends there and no `DETACH` is sent.
-/

namespace GhostlySession

/-- What `read(STDIN_FILENO, buf, sizeof(buf))` gives when it succeeds: at most `BUF_SIZE` bytes,
none at end of file. -/
def AttachEnv.stdinChunk (env : AttachEnv) : Option (List UInt8) :=
  match env.stdin with
  | .bytes avail => some (avail.take BUF_SIZE)
  | .error => none

/-- The chunk an iteration reads from standard input: only when `poll` reports it readable. -/
def AttachEnv.chunk (env : AttachEnv) : Option (List UInt8) :=
  match env.poll with
  | .ready si _ => if si.pollin then env.stdinChunk else none
  | _ => none

/-- The chunks the client reads, in order, up to the end of its loop. -/
def attachReads : List AttachEnv → Attach → List (List UInt8)
  | [], _ => []
  | env :: envs, a =>
    if a.running then env.chunk.toList ++ attachReads envs (attachIteration env a) else []

/-- The frames the standard-input branch sends for a chunk: none at end of file, an empty
`DETACH` for a chunk that holds `DETACH_KEY`, and the chunk as one `DATA` frame otherwise. -/
def chunkFrames (c : List UInt8) : List Frame :=
  if c = [] then [] else if DETACH_KEY ∈ c then [Msg.toFrame .detach] else [Msg.toFrame (.data c)]

/-- Whether an iteration ends the loop: a failed `poll`; end of file, a chunk with the key, or a
failed `DATA` send on standard input; a failed `recv_msg` or an `EXIT` frame on the socket; a
hang-up or an error on the socket. -/
def AttachEnv.ends (env : AttachEnv) : Bool :=
  match env.poll with
  | .failed => true
  | .eintr => false
  | .ready _ so =>
    (env.chunk.any fun c => c.isEmpty || DETACH_KEY ∈ c || !env.dataOk) ||
      (so.pollin && env.recv.all (·.type == MSG_EXIT)) || so.pollhup || so.pollerr

/-- The iterations the loop runs: up to and including the first that ends it. -/
def untilEnds : List AttachEnv → List AttachEnv
  | [] => []
  | env :: envs => if env.ends then [env] else env :: untilEnds envs

/-- The frames of a list other than `WINCH`. -/
def dropWinch (l : List Frame) : List Frame := l.filter (·.type != MSG_WINCH)

/-- The end of an iteration after the standard-input branch: the socket branch while the loop
runs, then `POLLHUP` or `POLLERR` on the socket. -/
def socketPhase (env : AttachEnv) (so : Revents) (a : Attach) : Attach :=
  let a := if a.running && so.pollin then socketInput env a else a
  if so.pollhup || so.pollerr then { a with running := false } else a

/-! ### The frames that count -/

@[simp] theorem dropWinch_append (l l' : List Frame) :
    dropWinch (l ++ l') = dropWinch l ++ dropWinch l' := List.filter_append _ _

theorem dropWinch_chunkFrames (c : List UInt8) : dropWinch (chunkFrames c) = chunkFrames c := by
  unfold chunkFrames
  split_ifs <;> rfl

/-! ### The pieces of an iteration -/

theorem attachIteration_ready {env : AttachEnv} {si so : Revents} (h : env.poll = .ready si so)
    (a : Attach) : attachIteration env a = socketPhase env so
      (if si.pollin then stdinInput env (checkWinch env.winsize
        { a with gotWinch := a.gotWinch || env.winch })
      else checkWinch env.winsize { a with gotWinch := a.gotWinch || env.winch }) := by
  simp only [attachIteration, h, socketPhase]

theorem checkWinch_fields (ws : Option (UInt16 × UInt16)) (a : Attach) :
    (checkWinch ws a).running = a.running ∧ (checkWinch ws a).exitCode = a.exitCode ∧
      dropWinch (checkWinch ws a).sent = dropWinch a.sent := by
  unfold checkWinch
  split_ifs
  · cases ws with
    | none => exact ⟨rfl, rfl, rfl⟩
    | some p => simp [sendWindowSize, Attach.send, dropWinch, Msg.toFrame]
  · exact ⟨rfl, rfl, rfl⟩

theorem socketPhase_sent (env : AttachEnv) (so : Revents) (a : Attach) :
    (socketPhase env so a).sent = a.sent := by
  unfold socketPhase
  split_ifs <;> simp [socketInput_sent]

theorem socketInput_exitCode {env : AttachEnv} {a : Attach} (h : (socketInput env a).running) :
    (socketInput env a).exitCode = a.exitCode := by
  unfold socketInput at h ⊢
  cases hr : env.recv with
  | none => simp [hr] at h
  | some f =>
    simp only [hr] at h ⊢
    split_ifs at h ⊢ <;> rfl

theorem socketPhase_running {env : AttachEnv} {so : Revents} {a : Attach}
    (h : (socketPhase env so a).running) :
    a.running ∧ (socketPhase env so a).exitCode = a.exitCode := by
  unfold socketPhase at h ⊢
  by_cases hr : a.running && so.pollin
  · rw [if_pos hr] at h ⊢
    have hs : (socketInput env a).running := by split_ifs at h; exact h
    rw [Bool.and_eq_true] at hr
    split_ifs at h ⊢
    exact ⟨hr.1, socketInput_exitCode hs⟩
  · rw [if_neg hr] at h ⊢
    split_ifs at h ⊢
    exact ⟨h, rfl⟩

theorem socketPhase_stopped {env : AttachEnv} {so : Revents} {a : Attach} (h : a.running = false) :
    (socketPhase env so a).running = false ∧ (socketPhase env so a).exitCode = a.exitCode := by
  unfold socketPhase
  split_ifs <;> simp_all

theorem stdinInput_of_running (env : AttachEnv) {a : Attach} (h : a.running) :
    (stdinInput env a).sent = a.sent ++ env.stdinChunk.toList.flatMap chunkFrames ∧
      (stdinInput env a).exitCode = a.exitCode ∧
      ((stdinInput env a).running → ∀ c ∈ env.stdinChunk, c ≠ [] ∧ DETACH_KEY ∉ c) ∧
      ∀ c ∈ env.stdinChunk, DETACH_KEY ∈ c → (stdinInput env a).running = false := by
  cases hs : env.stdin with
  | bytes avail =>
    simp only [stdinInput, AttachEnv.stdinChunk, hs, Option.toList_some, List.flatMap_cons,
      List.flatMap_nil, List.append_nil, Option.mem_def, Option.some.injEq, forall_eq']
    generalize avail.take BUF_SIZE = c
    split_ifs <;> simp [chunkFrames, Attach.send, *]
  | error => simp [stdinInput, AttachEnv.stdinChunk, hs]

theorem dropWinch_flatMap_chunkFrames (l : List (List UInt8)) :
    dropWinch (l.flatMap chunkFrames) = l.flatMap chunkFrames := by
  induction l with
  | nil => rfl
  | cons c l ih => rw [List.flatMap_cons, dropWinch_append, dropWinch_chunkFrames, ih]

theorem chunkFrames_of_key {c : List UInt8} (h : DETACH_KEY ∈ c) :
    chunkFrames c = [Msg.toFrame .detach] := by
  rw [chunkFrames, if_neg (List.ne_nil_of_mem h), if_pos h]

theorem stdinInput_running (env : AttachEnv) {a : Attach} (h : a.running) :
    (stdinInput env a).running =
      !(env.stdinChunk.any fun c => c.isEmpty || DETACH_KEY ∈ c || !env.dataOk) := by
  cases hs : env.stdin with
  | bytes avail =>
    simp only [stdinInput, AttachEnv.stdinChunk, hs, Option.any_some]
    generalize avail.take BUF_SIZE = c
    cases c <;> split_ifs <;> simp_all [Attach.send]
  | error => simp [stdinInput, AttachEnv.stdinChunk, hs, h]

theorem socketInput_running (env : AttachEnv) (a : Attach) :
    (socketInput env a).running = (a.running && !(env.recv.all (·.type == MSG_EXIT))) := by
  unfold socketInput
  cases env.recv with
  | none => simp
  | some f =>
    by_cases hx : f.type = MSG_EXIT
    · simp [hx, show MSG_EXIT ≠ MSG_DATA by decide]
    · have hb : (f.type == MSG_EXIT) = false := by simpa using hx
      simp only [Option.all_some, hb, Bool.not_false, Bool.and_true, if_neg hx]
      split_ifs <;> rfl

/-! ### One iteration -/

/-- **When an iteration ends the loop**: exactly when `AttachEnv.ends` says it does. -/
theorem attachIteration_running (env : AttachEnv) {a : Attach} (h : a.running) :
    (attachIteration env a).running = !env.ends := by
  obtain ⟨hr, -, -⟩ := checkWinch_fields env.winsize { a with gotWinch := a.gotWinch || env.winch }
  cases hp : env.poll with
  | eintr =>
    simp only [attachIteration, hp, AttachEnv.ends, Bool.not_false]
    exact hr.trans h
  | failed => simp [attachIteration, hp, AttachEnv.ends]
  | ready si so =>
    rw [attachIteration_ready hp]
    generalize checkWinch env.winsize { a with gotWinch := a.gotWinch || env.winch } = b at hr
    have hb : b.running := hr.trans h
    have hs : (if si.pollin then stdinInput env b else b).running =
        !(env.chunk.any fun c => c.isEmpty || DETACH_KEY ∈ c || !env.dataOk) := by
      simp only [AttachEnv.chunk, hp]
      split_ifs
      exacts [stdinInput_running env hb, by simpa using hb]
    generalize (if si.pollin then stdinInput env b else b) = c at hs
    simp only [socketPhase, AttachEnv.ends, hp, apply_ite Attach.running, socketInput_running, hs]
    generalize (env.chunk.any fun c => c.isEmpty || DETACH_KEY ∈ c || !env.dataOk) = X
    generalize env.recv.all (·.type == MSG_EXIT) = R
    cases X <;> cases so.pollin <;> cases R <;> cases so.pollhup <;> cases so.pollerr <;> rfl

/-- **What an iteration does.** From a running client: leaving out `WINCH`, it appends the frames
of the chunk it reads, if any; it keeps running only with the same exit code and after a chunk
that is neither end of file nor holds the key; and a chunk with the key stops it with the exit
code untouched and `DETACH` as the last frame sent. -/
theorem attachIteration_spec (env : AttachEnv) {a : Attach} (h : a.running) :
    dropWinch (attachIteration env a).sent =
        dropWinch a.sent ++ env.chunk.toList.flatMap chunkFrames ∧
      ((attachIteration env a).running →
        (attachIteration env a).exitCode = a.exitCode ∧ ∀ c ∈ env.chunk, c ≠ [] ∧ DETACH_KEY ∉ c) ∧
      ∀ c ∈ env.chunk, DETACH_KEY ∈ c → (attachIteration env a).running = false ∧
        (attachIteration env a).exitCode = a.exitCode ∧
        (attachIteration env a).sent.getLast? = some (Msg.toFrame .detach) := by
  obtain ⟨hr, he, hs⟩ := checkWinch_fields env.winsize { a with gotWinch := a.gotWinch || env.winch }
  cases hp : env.poll with
  | eintr =>
    simp only [attachIteration, hp, AttachEnv.chunk, Option.toList_none, List.flatMap_nil,
      List.append_nil, hs, Option.not_mem_none, false_implies, implies_true, and_true, he]
  | failed => simp [attachIteration, hp, AttachEnv.chunk]
  | ready si so =>
    rw [attachIteration_ready hp]
    by_cases hsi : si.pollin
    · have hb : (checkWinch env.winsize { a with gotWinch := a.gotWinch || env.winch }).running :=
        hr.trans h
      obtain ⟨s1, s2, s3, s4⟩ := stdinInput_of_running env hb
      simp only [AttachEnv.chunk, hp, hsi, if_true, socketPhase_sent, s1, dropWinch_append, hs,
        dropWinch_flatMap_chunkFrames, true_and]
      refine ⟨fun hrun => ?_, fun c hc hk => ?_⟩
      · obtain ⟨hin, hex⟩ := socketPhase_running hrun
        exact ⟨hex.trans (s2.trans he), s3 hin⟩
      · obtain ⟨hoff, hex⟩ := @socketPhase_stopped env so _ (s4 c hc hk)
        refine ⟨hoff, hex.trans (s2.trans he), ?_⟩
        rw [Option.mem_def] at hc
        simp [hc, chunkFrames_of_key hk]
    · simp only [AttachEnv.chunk, hp, hsi, if_false, Bool.false_eq_true, socketPhase_sent, hs,
        Option.toList_none, List.flatMap_nil, List.append_nil, Option.not_mem_none,
        false_implies, implies_true, and_true, true_and]
      exact fun hrun => (socketPhase_running hrun).2.trans he

/-! ### The loop -/

theorem attachLoop_of_not_running (envs : List AttachEnv) {a : Attach} (h : a.running = false) :
    attachLoop envs a = a := by
  cases envs <;> simp [attachLoop, h]

theorem attachReads_of_not_running (envs : List AttachEnv) {a : Attach} (h : a.running = false) :
    attachReads envs a = [] := by
  cases envs <;> simp [attachReads, h]

theorem attachReads_untilEnds : ∀ (envs : List AttachEnv) {a : Attach}, a.running →
    attachReads envs a = (untilEnds envs).filterMap AttachEnv.chunk
  | [], _, _ => rfl
  | env :: envs, a, h => by
    have hi := attachIteration_running env h
    rw [attachReads, if_pos h, untilEnds]
    cases he : env.ends
    · rw [if_neg Bool.false_ne_true, attachReads_untilEnds envs (by rw [hi, he]; rfl)]
      cases hc : env.chunk <;> simp [List.filterMap_cons, hc]
    · rw [if_pos rfl, attachReads_of_not_running envs (by rw [hi, he]; rfl)]
      cases hc : env.chunk <;> simp [List.filterMap_cons, hc]

theorem mem_dropLast_append {α : Type} {x : α} {l l' : List α} (h : x ∈ (l ++ l').dropLast) :
    x ∈ l ∨ x ∈ l'.dropLast := by
  rcases List.eq_nil_or_concat l' with rfl | ⟨l', y, rfl⟩
  · exact .inl (List.dropLast_subset _ (by simpa using h))
  · rw [List.concat_eq_append, ← List.append_assoc, List.dropLast_concat] at h
    rw [List.concat_eq_append, List.dropLast_concat]
    exact List.mem_append.1 h

/-- **The loop invariant.** Leaving out `WINCH`, the loop appends the frames of the chunks it
reads; every chunk read but the last is neither end of file nor holds the key; and a chunk with
the key is the last one read, after which the exit code is the one the loop started with and
`DETACH` is the last frame sent. -/
theorem attachLoop_reads : ∀ (envs : List AttachEnv) (a : Attach),
    dropWinch (attachLoop envs a).sent =
        dropWinch a.sent ++ (attachReads envs a).flatMap chunkFrames ∧
      (∀ c ∈ (attachReads envs a).dropLast, c ≠ [] ∧ DETACH_KEY ∉ c) ∧
      ∀ c ∈ attachReads envs a, DETACH_KEY ∈ c → (attachReads envs a).getLast? = some c ∧
        (attachLoop envs a).exitCode = a.exitCode ∧
        (attachLoop envs a).sent.getLast? = some (Msg.toFrame .detach)
  | [], a => by simp [attachLoop, attachReads]
  | env :: envs, a => by
    cases h : a.running
    · simp [attachLoop, attachReads, h]
    · obtain ⟨hsent, hrun, hkey⟩ := attachIteration_spec env h
      obtain ⟨ih1, ih2, ih3⟩ := attachLoop_reads envs (attachIteration env a)
      simp only [attachLoop, attachReads, h, if_true, List.flatMap_append, ih1, hsent,
        List.append_assoc, true_and]
      cases hi : (attachIteration env a).running
      · rw [attachReads_of_not_running envs hi, attachLoop_of_not_running envs hi, List.append_nil]
        refine ⟨fun c hc => ?_, fun c hc hk => ?_⟩
        · revert hc; cases env.chunk <;> simp
        · have hch : env.chunk = some c := Option.mem_toList.1 hc
          obtain ⟨-, hex, hlast⟩ := hkey c hch hk
          rw [hch]
          exact ⟨rfl, hex, hlast⟩
      · obtain ⟨hex, hgood⟩ := hrun hi
        refine ⟨fun c hc => ?_, fun c hc hk => ?_⟩
        · rcases mem_dropLast_append hc with hc | hc
          · exact hgood c (Option.mem_toList.1 hc)
          · exact ih2 c hc
        · rcases List.mem_append.1 hc with hc | hc
          · exact absurd hk (hgood c (Option.mem_toList.1 hc)).2
          · obtain ⟨hl, hx, hs⟩ := ih3 c hc hk
            refine ⟨?_, hx.trans hex, hs⟩
            rw [List.getLast?_append, hl]
            rfl

/-! ### `cmd_attach` -/

/-- **The frames `cmd_attach` sends for the keystrokes it reads.** Leaving out `WINCH`, it sends
`HELLO` and then the frames of the chunks it reads, one chunk at a time: `DATA` for a chunk, an
empty `DETACH` in place of a chunk that holds `DETACH_KEY`, nothing at end of file. Only the last
chunk read can be end of file or hold the key. After a chunk with the key, `DETACH` is the last
frame sent and `cmd_attach` returns `0`. -/
theorem attach_frames (ws : Option (UInt16 × UInt16)) (envs : List AttachEnv) :
    attachReads envs (attachStart ws) = (untilEnds envs).filterMap AttachEnv.chunk ∧
    dropWinch (cmdAttach ws true envs).1.sent =
        Msg.toFrame (.hello (helloSize ws).1 (helloSize ws).2) ::
          (attachReads envs (attachStart ws)).flatMap chunkFrames ∧
      (∀ c ∈ (attachReads envs (attachStart ws)).dropLast, c ≠ [] ∧ DETACH_KEY ∉ c) ∧
      ∀ c ∈ attachReads envs (attachStart ws), DETACH_KEY ∈ c →
        (attachReads envs (attachStart ws)).getLast? = some c ∧
        (cmdAttach ws true envs).1.sent.getLast? = some (Msg.toFrame .detach) ∧
        (cmdAttach ws true envs).2 = 0 := by
  obtain ⟨h1, h2, h3⟩ := attachLoop_reads envs (attachStart ws)
  simp only [cmdAttach, if_true]
  refine ⟨attachReads_untilEnds envs rfl, h1, h2, fun c hc hk => ?_⟩
  obtain ⟨hl, hx, hs⟩ := h3 c hc hk
  exact ⟨hl, hs, by rw [hx]; rfl⟩

/-- Standard input offers `a`, then the detach key; the send of `a` fails. -/
def failedSendEnvs : List AttachEnv :=
  [⟨false, .ready ⟨true, false, false⟩ Revents.none, none, .bytes [97], false, none⟩,
   ⟨false, .ready ⟨true, false, false⟩ Revents.none, none, .bytes [DETACH_KEY], true, none⟩]

/-- **The key is lost after a failed send.** Standard input offers a chunk holding the detach key,
but the send of the chunk before it fails, the loop ends, and `DETACH` is never sent. -/
theorem detach_lost_after_failed_send :
    ¬ ∀ (ws : Option (UInt16 × UInt16)) (envs : List AttachEnv),
      (∃ c ∈ envs.filterMap AttachEnv.chunk, DETACH_KEY ∈ c) →
        Msg.toFrame .detach ∈ (cmdAttach ws true envs).1.sent := fun h =>
  absurd (h none failedSendEnvs ⟨[DETACH_KEY], by decide, by decide⟩) (by decide)

end GhostlySession
