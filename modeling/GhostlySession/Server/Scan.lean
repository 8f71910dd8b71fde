import GhostlySession.Server.Table

/-!
# Which `pollfd` entry the client-input loop reads

The client-input loop reads `fds[2 + i].revents` from the vector built at the top of the
iteration, while `i` runs over the table as the admission step and the PTY broadcast have left it.
`inputLoop_consults` says exactly which reads a run of the loop makes: one per index, from the
top down, each against `client_fds[i]` of the table the loop started from, since a removal at
index `i` only changes the slots from `i` up (`swapRemove_take`). Over a whole iteration
(`iteration_consults`) the read at index `i` is of slot `2 + i` of a vector of
`2 + num_clients` entries built before the admission step.

So the reads are in range and at the client's own entry whenever the admission step and the PTY
broadcast leave the table as it was (`iteration_consultsMatch_of_stable`), and not otherwise: an
admission makes the loop read one entry past the end of the vector, and a failed send to a
client that is not last in the PTY broadcast moves the last client into a slot whose entry is
the removed client's, so that client is judged, and possibly dropped, on another client's
`revents`.
-/

namespace GhostlySession

/-! ### The reads, as the log records them -/

/-- The read of `fds[slot].revents` an event records: slot, size of the vector, the descriptor at
the slot (none past the end), and `client_fds[i]`. -/
def Event.consulted : Event → Option (Nat × Nat × Option Int × Int)
  | .consult slot size entry client => some (slot, size, entry, client)
  | _ => none

/-- The reads of `revents` in a log. -/
def consults (log : List Event) : List (Nat × Nat × Option Int × Int) :=
  log.filterMap Event.consulted

@[simp] theorem consults_append (l l' : List Event) : consults (l ++ l') = consults l ++ consults l' :=
  List.filterMap_append _ _ _

@[simp] theorem consults_emit (d : Daemon) (e : Event) :
    consults (d.emit e).log = consults d.log ++ (e.consulted).toList := by
  cases e <;> simp [consults, Event.consulted]

theorem recvFrame_consults (d : Daemon) (fd : Int) (ok : Bool) :
    consults (d.recvFrame fd ok).2.log = consults d.log := by
  simp [consults, Event.consulted]

theorem serverRemoveClient_consults (d : Daemon) (i : Nat) :
    consults (serverRemoveClient d i).log = consults d.log := by
  simp [consults, Event.consulted]

theorem onRecv_consults (i : Nat) (fd : Int) (p : Option Frame × Daemon) :
    consults (onRecv i fd p).log = consults p.2.log := by
  obtain ⟨_ | f, d⟩ := p
  · exact serverRemoveClient_consults d i
  · simp only [onRecv, dispatch]
    split_ifs <;> simp [consults, Event.consulted]

/-! ### What one step of the loop does to the table -/

theorem swapRemove_take {l : List Int} {i : Nat} (h : i < l.length) :
    (swapRemove l i).take i = l.take i := by
  rw [swapRemove, List.dropLast_eq_take, List.take_take, List.length_set,
    Nat.min_eq_left (by omega)]
  exact List.ext_getElem? fun j => by
    rw [List.getElem?_take, List.getElem?_take]
    split
    · rw [List.getElem?_set_ne (by omega)]
    · rfl

theorem onRecv_clientFds (i : Nat) (fd : Int) (p : Option Frame × Daemon) :
    (onRecv i fd p).srv.clientFds = p.2.srv.clientFds ∨
      (onRecv i fd p).srv.clientFds = swapRemove p.2.srv.clientFds i := by
  obtain ⟨_ | f, d⟩ := p
  · exact .inr rfl
  · simp only [onRecv, dispatch]
    split_ifs <;> simp

theorem inputStep_clientFds (env : IterEnv) (fds : List PollFd) (i : Nat) (d : Daemon) :
    (inputStep env fds i d).srv.clientFds = d.srv.clientFds ∨
      (inputStep env fds i d).srv.clientFds = swapRemove d.srv.clientFds i := by
  simp only [inputStep]
  split_ifs
  · simpa using onRecv_clientFds i _ ((d.emit _).recvFrame (d.srv.clientFds.getD i 0) (env.recvOk i))
  · exact .inr rfl
  · exact .inl rfl

theorem inputStep_length {env : IterEnv} {fds : List PollFd} {i : Nat} {d : Daemon}
    (h : i < d.srv.clientFds.length) : i ≤ (inputStep env fds i d).srv.clientFds.length := by
  rcases inputStep_clientFds env fds i d with e | e <;> rw [e]
  · omega
  · rw [swapRemove_length]; omega

theorem inputStep_take {env : IterEnv} {fds : List PollFd} {i : Nat} {d : Daemon}
    (h : i < d.srv.clientFds.length) :
    (inputStep env fds i d).srv.clientFds.take i = d.srv.clientFds.take i := by
  rcases inputStep_clientFds env fds i d with e | e <;> rw [e]
  exact swapRemove_take h

theorem inputStep_consults (env : IterEnv) (fds : List PollFd) (i : Nat) (d : Daemon) :
    consults (inputStep env fds i d).log = consults d.log ++
      [(2 + i, fds.length, fds[2 + i]?.map PollFd.fd, d.srv.clientFds.getD i 0)] := by
  simp only [inputStep]
  split_ifs
  · rw [onRecv_consults, recvFrame_consults, consults_emit]; rfl
  · rw [serverRemoveClient_consults, consults_emit]; rfl
  · rw [consults_emit]; rfl

/-! ### The reads of a whole run of the loop -/

/-- The read the loop makes at index `i`, against the table `l` it started from. -/
def consultAt (fds : List PollFd) (l : List Int) (i : Nat) : Nat × Nat × Option Int × Int :=
  (2 + i, fds.length, fds[2 + i]?.map PollFd.fd, l.getD i 0)

/-- **The loop reads, from index `n - 1` down to `0`, the entry `2 + i` of `fds` against
`client_fds[i]` of the table it started from.** -/
theorem inputLoop_consults (env : IterEnv) (fds : List PollFd) :
    ∀ (n : Nat) (d : Daemon), n ≤ d.srv.clientFds.length →
      consults (inputLoop env fds n d).log =
        consults d.log ++ (List.range n).reverse.map (consultAt fds d.srv.clientFds)
  | 0, _, _ => by simp [inputLoop]
  | n + 1, d, hn => by
    have hlt : n < d.srv.clientFds.length := hn
    have htake : (inputStep env fds n d).srv.clientFds.take n = d.srv.clientFds.take n :=
      inputStep_take hlt
    rw [inputLoop, inputLoop_consults env fds n _ (inputStep_length hlt), inputStep_consults,
      List.range_succ, List.reverse_append, List.append_assoc]
    congr 1
    simp only [List.reverse_singleton, List.map_cons, List.singleton_append, List.cons.injEq]
    refine ⟨rfl, List.map_congr_left fun i hi => ?_⟩
    have hi : i < n := List.mem_range.1 (List.mem_reverse.1 hi)
    simp only [consultAt, List.getD_eq_getElem?_getD]
    rw [← List.getElem?_take_of_lt hi, htake, List.getElem?_take_of_lt hi]

/-! ### The reads of an iteration -/

theorem broadcastLoop_consults (f : Frame) (ok : Nat → Bool) :
    ∀ (i : Nat) (d : Daemon), consults (broadcastLoop f ok i d).log = consults d.log
  | 0, _ => rfl
  | i + 1, d => by
    simp only [broadcastLoop]
    split <;> rw [broadcastLoop_consults] <;> simp [consults, Event.consulted]

theorem onHello_consults (fd : Int) (p : Option Frame × Daemon) :
    consults (onHello fd p).log = consults p.2.log := by
  obtain ⟨_ | f, d⟩ := p
  · simp [onHello, consults, Event.consulted]
  · simp only [onHello]
    split_ifs <;> simp [admitClient, consults, Event.consulted]

theorem acceptPhase_consults (env : IterEnv) (rev : Nat → Revents) (d : Daemon) :
    consults (acceptPhase env rev d).log = consults d.log := by
  unfold acceptPhase
  split_ifs
  · split
    · rfl
    · dsimp only
      split_ifs
      · simp [consults, Event.consulted]
      · rw [onHello_consults, recvFrame_consults]
        simp [consults, Event.consulted]
  · rfl

theorem ptyPhase_consults (env : IterEnv) (rev : Nat → Revents) (d : Daemon) :
    consults (ptyPhase env rev d).log = consults d.log := by
  have h1 : consults (ptyOutput env (rev 1) d).log = consults d.log := by
    unfold ptyOutput
    split_ifs
    · split
      · split_ifs
        · rfl
        · rw [serverBroadcast, broadcastLoop_consults]
          simp [consults, Event.consulted]
      all_goals rfl
    · rfl
  simp only [ptyPhase]
  split_ifs <;> exact h1

/-- **The reads of an iteration**: one per entry of the table as the admission step and the PTY
broadcast left it, from the last down, each of slot `2 + i` of the vector built from the table
the iteration started with. -/
theorem iteration_consults {env : IterEnv} {rev : Nat → Revents} (hp : env.poll = .ready rev)
    (d : Daemon) :
    consults (iteration env d).log = consults d.log ++
      (List.range (ptyPhase env rev (acceptPhase env rev d)).srv.clientFds.length).reverse.map
        (consultAt (pollFds d.srv rev) (ptyPhase env rev (acceptPhase env rev d)).srv.clientFds) := by
  simp only [iteration, hp]
  rw [inputLoop_consults _ _ _ _ le_rfl, ptyPhase_consults, acceptPhase_consults]

/-! ### Reads at the client's own entry -/

/-- Every read of `fds[slot].revents` in the log is inside the vector and at the entry of the
client it is read for. -/
def ConsultsMatch (log : List Event) : Prop :=
  ∀ slot size entry client, Event.consult slot size entry client ∈ log →
    slot < size ∧ entry = some client

theorem consultsMatch_iff (log : List Event) :
    ConsultsMatch log ↔ ∀ r ∈ consults log, r.1 < r.2.1 ∧ r.2.2.1 = some r.2.2.2 := by
  constructor
  · rintro h ⟨s, n, e, c⟩ hr
    obtain ⟨ev, hm, he⟩ := List.mem_filterMap.1 hr
    cases ev <;> simp only [Event.consulted, reduceCtorEq, Option.some.injEq, Prod.mk.injEq] at he
    obtain ⟨rfl, rfl, rfl, rfl⟩ := he
    exact h _ _ _ _ hm
  · exact fun h s n e c hm => h (s, n, e, c) (List.mem_filterMap.2 ⟨_, hm, rfl⟩)

theorem consultAt_pollFds {srv : ServerState} {i : Nat} (rev : Nat → Revents)
    (hi : i < srv.clientFds.length) :
    (consultAt (pollFds srv rev) srv.clientFds i).1 < (consultAt (pollFds srv rev) srv.clientFds i).2.1 ∧
      (consultAt (pollFds srv rev) srv.clientFds i).2.2.1 =
        some (consultAt (pollFds srv rev) srv.clientFds i).2.2.2 := by
  simp only [consultAt, pollFds_length, pollFds_getElem?, Nat.add_comm 2 i, List.getElem?_cons_succ,
    List.getElem?_eq_getElem hi, Option.map_some', List.getD_eq_getElem _ 0 hi, and_true]
  omega

/-- **When the admission step and the PTY broadcast leave the table as it was, every read of the
iteration is in range and at the client's own entry.** -/
theorem iteration_consultsMatch_of_stable {env : IterEnv} {rev : Nat → Revents}
    (hp : env.poll = .ready rev) {d : Daemon} (hd : ConsultsMatch d.log)
    (hs : (ptyPhase env rev (acceptPhase env rev d)).srv.clientFds = d.srv.clientFds) :
    ConsultsMatch (iteration env d).log := by
  rw [consultsMatch_iff] at hd ⊢
  rw [iteration_consults hp, hs]
  intro r hr
  rcases List.mem_append.1 hr with hr | hr
  · exact hd r hr
  · obtain ⟨i, hi, rfl⟩ := List.mem_map.1 hr
    exact consultAt_pollFds rev (List.mem_range.1 (List.mem_reverse.1 hi))

/-- **The loop reads past the end of the vector**: in the iteration that admits the first
client, the loop reads `fds[2]` of a vector of two entries for it. -/
theorem consult_past_fds : ¬ ∀ d, Reachable d → ConsultsMatch d.log := fun h =>
  absurd (h oneClient oneClient_reachable 2 2 none 5 (by decide)).1 (by decide)

/-! ### Failures and the clients they drop -/

/-- A failure of the connection `fd`'s own, in an iteration that made the calls `new` and read
`revents` from `fds`: a failed send, `POLLHUP` or `POLLERR` on its own entry, a failed receive,
or a `DETACH` it sent. -/
def OwnFailure (fds : List PollFd) (new : List Event) (fd : Int) : Prop :=
  (∃ f, Event.send fd f false ∈ new) ∨
    (∃ p ∈ fds, p.fd = fd ∧ (p.revents.pollhup ∨ p.revents.pollerr)) ∨
    Event.recv fd none ∈ new ∨ ∃ f, Event.recv fd (some f) ∈ new ∧ f.type = MSG_DETACH

/-- Every client attached at the start of an iteration that is gone at its end had a failure of
its own in it. -/
def FailuresIsolated (env : IterEnv) (d : Daemon) : Prop :=
  ∀ rev, env.poll = .ready rev → ∀ fd ∈ d.srv.clientFds, fd ∉ (iteration env d).srv.clientFds →
    OwnFailure (pollFds d.srv rev) ((iteration env d).log.drop d.log.length) fd

/-- An iteration with two clients attached in which the PTY has output, the send to client `0`
fails, and client `0`'s entry reports `POLLHUP`. -/
def dropEnv : IterEnv where
  poll := .ready fun j =>
    if j = 1 then ⟨true, false, false⟩ else if j = 2 then ⟨false, true, false⟩ else Revents.none
  accept := none
  helloOk := true
  pty := .bytes [65]
  sendOk := fun j => j ≠ 0
  recvOk := fun _ => true
  stale := Revents.none

/-- **A client is dropped for another's hangup**: client `6`'s send succeeds and its own entry
reports nothing, but after client `5` is removed by the broadcast, `6` sits at index `0` and is
judged on `5`'s entry. -/
theorem client_dropped_for_other :
    ¬ ∀ d env, Reachable d → (Step.iter env).Allowed d → FailuresIsolated env d := by
  intro h
  have hnew : (iteration dropEnv twoClients).log.drop twoClients.log.length =
      [.ptyRead [65], .send 6 ⟨MSG_DATA, [65]⟩ true, .send 5 ⟨MSG_DATA, [65]⟩ false,
        .remove 0 5 2, .consult 2 4 (some 5) 6, .remove 0 6 1] := by decide
  have hfds : pollFds twoClients.srv (fun j =>
      if j = 1 then ⟨true, false, false⟩ else if j = 2 then ⟨false, true, false⟩ else Revents.none) =
      [⟨3, Revents.none⟩, ⟨4, ⟨true, false, false⟩⟩, ⟨5, ⟨false, true, false⟩⟩, ⟨6, Revents.none⟩] := by
    decide
  have := h twoClients dropEnv twoClients_reachable ⟨rfl, fun c hc => nomatch hc⟩ _ rfl 6
    (by decide) (by decide)
  rw [OwnFailure, hnew, hfds] at this
  simp [Revents.none] at this

end GhostlySession
