import GhostlySession.Server.Signals
import Mathlib.Data.List.Nodup

/-!
# The client table and the info file over whole runs

`TableInv` is the invariant of the client table: at most `MAX_CLIENTS` entries, pairwise
distinct, all open and distinct from the listening socket and the PTY master; every admission of
the log followed a well-formed `HELLO` while the table had room, and every `server_remove_client`
call took an index inside the table (`Event.Valid`); and every admitted descriptor is either
still listed or was passed to `server_remove_client` (`ledger`: the admitted descriptors are, as a
multiset, the listed ones plus the removed ones). `InfoInv` says the info file holds the current
count.

Each operation keeps them (`serverRemoveClient_tableInv` for an index inside the table, the two
loops because their index never passes the end of the shrinking table), so they hold in every
reachable state (`tableInv_reachable`, `infoInv_reachable`), and an admission that does not happen
leaves the table as it was (`acceptPhase_clientFds_of_not_admits`). `firstHungUp` is a run with
both: two clients admitted, then the first removed on its hangup.
-/

namespace GhostlySession

/-! ### What the log records -/

/-- The descriptors of the log's `admitted` events. -/
def admittedFds (log : List Event) : List Int :=
  log.filterMap fun e => match e with
    | .admitted fd _ _ => some fd
    | _ => none

/-- The descriptors of the log's `remove` events. -/
def removedFds (log : List Event) : List Int :=
  log.filterMap fun e => match e with
    | .remove _ fd _ => some fd
    | _ => none

@[simp] theorem admittedFds_append (l l' : List Event) :
    admittedFds (l ++ l') = admittedFds l ++ admittedFds l' := List.filterMap_append _ _ _

@[simp] theorem removedFds_append (l l' : List Event) :
    removedFds (l ++ l') = removedFds l ++ removedFds l' := List.filterMap_append _ _ _

/-- What an admission and a removal must satisfy: an admission follows a well-formed `HELLO` with
fewer than `MAX_CLIENTS` clients attached, and `server_remove_client` takes an index inside the
table. -/
def Event.Valid : Event → Prop
  | .admitted _ h n => h.type = MSG_HELLO ∧ h.payload.length = 4 ∧ n < MAX_CLIENTS
  | .remove i _ n => i < n
  | _ => True

theorem Event.valid_of_fds {e : Event} (ha : admittedFds [e] = []) (hr : removedFds [e] = []) :
    e.Valid := by
  cases e <;> trivial

/-! ### The invariant -/

/-- The client-table invariant. -/
structure TableInv (d : Daemon) : Prop where
  bound : d.srv.clientFds.length ≤ MAX_CLIENTS
  nodup : d.srv.clientFds.Nodup
  listed_open : ∀ fd ∈ d.srv.clientFds, fd ∈ d.openFds
  open_nodup : d.openFds.Nodup
  listen_open : d.srv.listenFd ∈ d.openFds
  pty_open : d.srv.ptyMaster ∈ d.openFds
  listen_unlisted : d.srv.listenFd ∉ d.srv.clientFds
  pty_unlisted : d.srv.ptyMaster ∉ d.srv.clientFds
  valid : ∀ e ∈ d.log, e.Valid
  ledger : (admittedFds d.log).Perm (d.srv.clientFds ++ removedFds d.log)

/-- The info file holds the state's count. -/
def InfoInv (d : Daemon) : Prop := d.info = some d.infoOf

namespace TableInv

variable {d : Daemon}

theorem emit (h : TableInv d) (e : Event) (ha : admittedFds [e] = [])
    (hr : removedFds [e] = []) : TableInv (d.emit e) := by
  refine ⟨h.bound, h.nodup, h.listed_open, h.open_nodup, h.listen_open, h.pty_open,
    h.listen_unlisted, h.pty_unlisted, ?_, by simpa [ha, hr] using h.ledger⟩
  simpa [or_imp, forall_and] using ⟨h.valid, Event.valid_of_fds ha hr⟩

theorem congr {d' : Daemon} (h : TableInv d) (hc : d'.srv.clientFds = d.srv.clientFds)
    (hl : d'.srv.listenFd = d.srv.listenFd) (hp : d'.srv.ptyMaster = d.srv.ptyMaster)
    (ho : d'.openFds = d.openFds) (hlog : d'.log = d.log) : TableInv d' := by
  obtain ⟨h1, h2, h3, h4, h5, h6, h7, h8, h9, h10⟩ := h
  constructor <;> simp only [hc, hl, hp, ho, hlog] <;> assumption

theorem stop (h : TableInv d) : TableInv d.stop := h.congr rfl rfl rfl rfl rfl

end TableInv

namespace InfoInv

variable {d : Daemon}

theorem emit (h : InfoInv d) (e : Event) : InfoInv (d.emit e) := h

theorem congr {d' : Daemon} (h : InfoInv d) (hi : d'.info = d.info) (hp : d'.pid = d.pid)
    (hn : d'.srv.clientFds.length = d.srv.clientFds.length) (hc : d'.srv.created = d.srv.created)
    (hcmd : d'.srv.command = d.srv.command) : InfoInv d' := by
  simp only [InfoInv, Daemon.infoOf, hi, hp, hn, hc, hcmd]
  exact h

end InfoInv

/-! ### Removal and the two loops -/

variable {d : Daemon}

theorem serverRemoveClient_tableInv (h : TableInv d) {i : Nat} (hi : i < d.srv.clientFds.length) :
    TableInv (serverRemoveClient d i) := by
  have hp := perm_swapRemove hi
  have hn := hp.nodup_iff.1 h.nodup
  rw [List.nodup_cons] at hn
  have hsub : ∀ x ∈ swapRemove d.srv.clientFds i, x ∈ d.srv.clientFds :=
    fun x hx => hp.symm.subset (List.mem_cons_of_mem _ hx)
  have hfd : d.srv.clientFds.getD i 0 ∈ d.srv.clientFds := hp.symm.subset (List.mem_cons_self _ _)
  have hne : ∀ x ∈ swapRemove d.srv.clientFds i, x ≠ d.srv.clientFds.getD i 0 :=
    fun x hx hx' => hn.1 (hx' ▸ hx)
  have hlisten : d.srv.listenFd ≠ d.srv.clientFds.getD i 0 := fun e => h.listen_unlisted (e ▸ hfd)
  have hpty : d.srv.ptyMaster ≠ d.srv.clientFds.getD i 0 := fun e => h.pty_unlisted (e ▸ hfd)
  refine ⟨?_, hn.2, ?_, h.open_nodup.erase _, (List.mem_erase_of_ne hlisten).2 h.listen_open,
    (List.mem_erase_of_ne hpty).2 h.pty_open, fun hx => h.listen_unlisted (hsub _ hx),
    fun hx => h.pty_unlisted (hsub _ hx), ?_, ?_⟩
  · have := h.bound
    simp only [serverRemoveClient_srv, swapRemove_length]
    omega
  · intro x hx
    exact (List.mem_erase_of_ne (hne x hx)).2 (h.listed_open x (hsub x hx))
  · simpa [or_imp, forall_and, Event.Valid] using ⟨h.valid, hi⟩
  · simp only [serverRemoveClient_log, serverRemoveClient_srv, admittedFds_append,
      removedFds_append]
    refine (h.ledger.append_right _).trans ?_
    simp only [admittedFds, removedFds, List.filterMap_cons, List.filterMap_nil, List.append_nil]
    exact ((hp.append_right _).trans (List.perm_middle.symm)).trans
      ((List.perm_append_singleton _ _).symm.append_left _)

theorem serverRemoveClient_infoInv (d : Daemon) (i : Nat) : InfoInv (serverRemoveClient d i) := rfl

theorem broadcastLoop_tableInv (f : Frame) (ok : Nat → Bool) :
    ∀ (i : Nat) (d : Daemon), TableInv d → i ≤ d.srv.clientFds.length →
      TableInv (broadcastLoop f ok i d)
  | 0, _, h, _ => h
  | i + 1, d, h, hi => by
    have h' := h.emit (.send (d.srv.clientFds.getD i 0) f (ok i)) rfl rfl
    simp only [broadcastLoop]
    split
    · exact broadcastLoop_tableInv f ok i _ h' (by simp only [Daemon.emit_srv]; omega)
    · exact broadcastLoop_tableInv f ok i _ (serverRemoveClient_tableInv h' hi)
        (by simp only [serverRemoveClient_srv, swapRemove_length, Daemon.emit_srv]; omega)

theorem broadcastLoop_infoInv (f : Frame) (ok : Nat → Bool) :
    ∀ (i : Nat) (d : Daemon), InfoInv d → InfoInv (broadcastLoop f ok i d)
  | 0, _, h => h
  | i + 1, d, h => by
    simp only [broadcastLoop]
    split
    · exact broadcastLoop_infoInv f ok i _ (h.emit _)
    · exact broadcastLoop_infoInv f ok i _ (serverRemoveClient_infoInv _ _)

theorem serverBroadcast_tableInv (f : Frame) (ok : Nat → Bool) (h : TableInv d) :
    TableInv (serverBroadcast f ok d) :=
  broadcastLoop_tableInv f ok _ d h le_rfl

theorem serverBroadcast_infoInv (f : Frame) (ok : Nat → Bool) (h : InfoInv d) :
    InfoInv (serverBroadcast f ok d) :=
  broadcastLoop_infoInv f ok _ d h

/-! ### The client-input loop -/

theorem recvFrame_tableInv (h : TableInv d) (fd : Int) (ok : Bool) :
    TableInv (d.recvFrame fd ok).2 :=
  (h.emit (.recv fd (d.recvFrame fd ok).1) rfl rfl).congr (by simp) (by simp) (by simp) (by simp)
    (by simp)

theorem recvFrame_infoInv (h : InfoInv d) (fd : Int) (ok : Bool) :
    InfoInv (d.recvFrame fd ok).2 :=
  h.congr (by simp) (by simp) (by simp) (by simp) (by simp)

theorem dispatch_tableInv (h : TableInv d) {i : Nat} (hi : i < d.srv.clientFds.length) (fd : Int)
    (f : Frame) :
    TableInv (dispatch i fd f d) ∧ i ≤ (dispatch i fd f d).srv.clientFds.length := by
  unfold dispatch
  split_ifs <;> first
    | exact ⟨h.emit _ rfl rfl, by simp only [Daemon.emit_srv]; omega⟩
    | exact ⟨h, by omega⟩
    | exact ⟨serverRemoveClient_tableInv h hi, by simp only [serverRemoveClient_srv, swapRemove_length]; omega⟩

theorem dispatch_infoInv (h : InfoInv d) (i : Nat) (fd : Int) (f : Frame) :
    InfoInv (dispatch i fd f d) := by
  unfold dispatch
  split_ifs <;> first | exact h.emit _ | exact h | exact serverRemoveClient_infoInv _ _

theorem onRecv_tableInv {i : Nat} {fd : Int} {p : Option Frame × Daemon} (h : TableInv p.2)
    (hi : i < p.2.srv.clientFds.length) :
    TableInv (onRecv i fd p) ∧ i ≤ (onRecv i fd p).srv.clientFds.length := by
  obtain ⟨_ | f, d⟩ := p <;> dsimp only at h hi
  · exact ⟨serverRemoveClient_tableInv h hi,
      by simp only [onRecv, serverRemoveClient_srv, swapRemove_length]; omega⟩
  · exact dispatch_tableInv h hi fd f

theorem onRecv_infoInv {i : Nat} {fd : Int} {p : Option Frame × Daemon} (h : InfoInv p.2) :
    InfoInv (onRecv i fd p) := by
  obtain ⟨_ | f, d⟩ := p
  · exact serverRemoveClient_infoInv _ _
  · exact dispatch_infoInv h i fd f

theorem inputStep_tableInv (env : IterEnv) (fds : List PollFd) (h : TableInv d) {i : Nat}
    (hi : i < d.srv.clientFds.length) :
    TableInv (inputStep env fds i d) ∧ i ≤ (inputStep env fds i d).srv.clientFds.length := by
  have h1 := h.emit
    (.consult (2 + i) fds.length (fds[2 + i]?.map PollFd.fd) (d.srv.clientFds.getD i 0)) rfl rfl
  simp only [inputStep]
  split_ifs
  · exact onRecv_tableInv (recvFrame_tableInv h1 _ _) (by simpa using hi)
  · exact ⟨serverRemoveClient_tableInv h1 hi,
      by simp only [serverRemoveClient_srv, swapRemove_length, Daemon.emit_srv]; omega⟩
  · exact ⟨h1, by simp only [Daemon.emit_srv]; omega⟩

theorem inputStep_infoInv (env : IterEnv) (fds : List PollFd) (h : InfoInv d) (i : Nat) :
    InfoInv (inputStep env fds i d) := by
  simp only [inputStep]
  split_ifs
  · exact onRecv_infoInv (recvFrame_infoInv (h.emit _) _ _)
  · exact serverRemoveClient_infoInv _ _
  · exact h.emit _

theorem inputLoop_tableInv (env : IterEnv) (fds : List PollFd) :
    ∀ (i : Nat) (d : Daemon), TableInv d → i ≤ d.srv.clientFds.length →
      TableInv (inputLoop env fds i d)
  | 0, _, h, _ => h
  | i + 1, _, h, hi =>
    have hs := inputStep_tableInv env fds h hi
    inputLoop_tableInv env fds i _ hs.1 hs.2

theorem inputLoop_infoInv (env : IterEnv) (fds : List PollFd) :
    ∀ (i : Nat) (d : Daemon), InfoInv d → InfoInv (inputLoop env fds i d)
  | 0, _, h => h
  | i + 1, _, h => inputLoop_infoInv env fds i _ (inputStep_infoInv env fds h i)

/-! ### Admission -/

theorem accept_tableInv (h : TableInv d) (c : Incoming) (hc : c.fd ∉ d.openFds) :
    TableInv (d.accept c) :=
  have h' := h.emit (.accepted c.fd c.frames) rfl rfl
  ⟨h'.bound, h'.nodup, fun x hx => List.mem_cons_of_mem _ (h'.listed_open x hx),
    List.nodup_cons.2 ⟨hc, h'.open_nodup⟩, List.mem_cons_of_mem _ h'.listen_open,
    List.mem_cons_of_mem _ h'.pty_open, h'.listen_unlisted, h'.pty_unlisted, h'.valid, h'.ledger⟩

theorem reject_tableInv (h : TableInv d) {fd : Int} (hl : fd ∉ d.srv.clientFds)
    (hL : d.srv.listenFd ≠ fd) (hP : d.srv.ptyMaster ≠ fd) : TableInv (d.reject fd) :=
  have h' := h.emit (.rejected fd) rfl rfl
  ⟨h'.bound, h'.nodup,
    fun x hx => (List.mem_erase_of_ne (by rintro rfl; exact hl hx)).2 (h'.listed_open x hx),
    h'.open_nodup.erase _, (List.mem_erase_of_ne hL).2 h'.listen_open,
    (List.mem_erase_of_ne hP).2 h'.pty_open, h'.listen_unlisted, h'.pty_unlisted, h'.valid,
    h'.ledger⟩

theorem admitClient_tableInv (h : TableInv d) {fd : Int} {f : Frame}
    (hf : f.type = MSG_HELLO ∧ f.payload.length = 4) (hn : d.srv.clientFds.length < MAX_CLIENTS)
    (ho : fd ∈ d.openFds) (hl : fd ∉ d.srv.clientFds) (hL : d.srv.listenFd ≠ fd)
    (hP : d.srv.ptyMaster ≠ fd) : TableInv (admitClient d fd f) := by
  refine ⟨?_, ?_, ?_, h.open_nodup, h.listen_open, h.pty_open, ?_, ?_, ?_, ?_⟩
  · simp only [admitClient, Daemon.writeInfo_srv, Daemon.setClients_clientFds, List.length_append,
      List.length_singleton]
    omega
  · simpa [admitClient, List.nodup_append] using ⟨h.nodup, hl⟩
  · simpa [admitClient, or_imp, forall_and] using ⟨h.listed_open, ho⟩
  · simpa [admitClient] using ⟨h.listen_unlisted, hL⟩
  · simpa [admitClient] using ⟨h.pty_unlisted, hP⟩
  · simpa [admitClient, or_imp, forall_and, Event.Valid] using ⟨h.valid, hf.1, hf.2, hn⟩
  · simp only [admitClient, Daemon.writeInfo_log, Daemon.setClients_log, Daemon.emit_log,
      Daemon.writeInfo_srv, Daemon.setClients_clientFds, admittedFds_append, removedFds_append,
      List.append_assoc]
    refine (h.ledger.append_right _).trans ?_
    simp only [admittedFds, removedFds, List.filterMap_cons, List.filterMap_nil, List.append_nil,
      List.nil_append, List.append_assoc]
    exact List.perm_append_comm.append_left _

theorem onHello_tableInv {fd : Int} {p : Option Frame × Daemon} (h : TableInv p.2)
    (hn : p.2.srv.clientFds.length < MAX_CLIENTS) (ho : fd ∈ p.2.openFds)
    (hl : fd ∉ p.2.srv.clientFds) (hL : p.2.srv.listenFd ≠ fd) (hP : p.2.srv.ptyMaster ≠ fd) :
    TableInv (onHello fd p) := by
  obtain ⟨_ | f, d⟩ := p <;> dsimp only at h hn ho hl hL hP
  · exact reject_tableInv h hl hL hP
  · simp only [onHello]
    split_ifs with hf
    · exact admitClient_tableInv h hf hn ho hl hL hP
    · exact reject_tableInv h hl hL hP

theorem acceptPhase_tableInv (env : IterEnv) (rev : Nat → Revents) (h : TableInv d)
    (hfresh : FreshAccept env d) : TableInv (acceptPhase env rev d) := by
  unfold acceptPhase
  split_ifs
  · split
    · exact h
    · rename_i c hc
      have hc := hfresh c hc
      have h1 := accept_tableInv h c hc
      have hl : c.fd ∉ d.srv.clientFds := fun hm => hc (h.listed_open _ hm)
      have hL : d.srv.listenFd ≠ c.fd := fun e => hc (e ▸ h.listen_open)
      have hP : d.srv.ptyMaster ≠ c.fd := fun e => hc (e ▸ h.pty_open)
      dsimp only
      split_ifs with hn
      · exact reject_tableInv h1 hl hL hP
      · exact onHello_tableInv (recvFrame_tableInv h1 _ _) (by simpa using hn) (by simp) (by simpa)
          (by simpa) (by simpa)
  · exact h

theorem accept_infoInv (h : InfoInv d) (c : Incoming) : InfoInv (d.accept c) := h

theorem reject_infoInv (h : InfoInv d) (fd : Int) : InfoInv (d.reject fd) := h

theorem onHello_infoInv {fd : Int} {p : Option Frame × Daemon} (h : InfoInv p.2) :
    InfoInv (onHello fd p) := by
  obtain ⟨_ | f, d⟩ := p
  · exact reject_infoInv h _
  · simp only [onHello]
    split_ifs
    · rfl
    · exact reject_infoInv h _

theorem acceptPhase_infoInv (env : IterEnv) (rev : Nat → Revents) (h : InfoInv d) :
    InfoInv (acceptPhase env rev d) := by
  unfold acceptPhase
  split_ifs
  · split
    · exact h
    · dsimp only
      split_ifs
      · exact reject_infoInv (accept_infoInv h _) _
      · exact onHello_infoInv (recvFrame_infoInv (accept_infoInv h _) _ _)
  · exact h

/-! ### The iteration, the signals, and every reachable state -/

theorem ptyPhase_tableInv (env : IterEnv) (rev : Nat → Revents) (h : TableInv d) :
    TableInv (ptyPhase env rev d) := by
  have h1 : TableInv (ptyOutput env (rev 1) d) := by
    unfold ptyOutput
    split_ifs
    · split
      · split_ifs
        · exact h.stop
        · exact serverBroadcast_tableInv _ _ (h.emit _ rfl rfl)
      all_goals first | exact h | exact h.stop
    · exact h
  simp only [ptyPhase]
  split_ifs
  · exact h1.stop
  · exact h1

theorem ptyPhase_infoInv (env : IterEnv) (rev : Nat → Revents) (h : InfoInv d) :
    InfoInv (ptyPhase env rev d) := by
  have h1 : InfoInv (ptyOutput env (rev 1) d) := by
    unfold ptyOutput
    split_ifs
    · split
      · split_ifs
        · exact h
        · exact serverBroadcast_infoInv _ _ (h.emit _)
      all_goals exact h
    · exact h
  simp only [ptyPhase]
  split_ifs
  · exact h1
  · exact h1

theorem iteration_tableInv (env : IterEnv) (h : TableInv d) (hfresh : FreshAccept env d) :
    TableInv (iteration env d) := by
  unfold iteration
  split
  · exact inputLoop_tableInv env _ _ _
      (ptyPhase_tableInv env _ (acceptPhase_tableInv env _ h hfresh)) le_rfl
  · exact h

theorem iteration_infoInv (env : IterEnv) (h : InfoInv d) : InfoInv (iteration env d) := by
  unfold iteration
  split
  · exact inputLoop_infoInv env _ _ _ (ptyPhase_infoInv env _ (acceptPhase_infoInv env _ h))
  · exact h

theorem step_child_eq (d : Daemon) (ev : ChildEvent) :
    (d.step (.child ev)).srv.clientFds = d.srv.clientFds ∧
    (d.step (.child ev)).srv.listenFd = d.srv.listenFd ∧
    (d.step (.child ev)).srv.ptyMaster = d.srv.ptyMaster ∧
    (d.step (.child ev)).srv.created = d.srv.created ∧
    (d.step (.child ev)).srv.command = d.srv.command ∧
    (d.step (.child ev)).openFds = d.openFds ∧ (d.step (.child ev)).log = d.log ∧
    (d.step (.child ev)).info = d.info ∧ (d.step (.child ev)).pid = d.pid := by
  simp only [Daemon.step]
  split
  · simp only [serverSigchld]
    split_ifs
    · split <;> exact ⟨rfl, rfl, rfl, rfl, rfl, rfl, rfl, rfl, rfl⟩
    · exact ⟨rfl, rfl, rfl, rfl, rfl, rfl, rfl, rfl, rfl⟩
  · exact ⟨rfl, rfl, rfl, rfl, rfl, rfl, rfl, rfl, rfl⟩

theorem step_tableInv (h : TableInv d) (s : Step) (ha : s.Allowed d) : TableInv (d.step s) := by
  cases s with
  | iter env => exact iteration_tableInv env h ha.2
  | child ev =>
    obtain ⟨hc, hl, hp, -, -, ho, hlog, -⟩ := step_child_eq d ev
    exact h.congr hc hl hp ho hlog
  | sigterm => exact h.stop

theorem step_infoInv (h : InfoInv d) (s : Step) : InfoInv (d.step s) := by
  cases s with
  | iter env => exact iteration_infoInv env h
  | child ev =>
    obtain ⟨hc, -, -, hcr, hcmd, -, -, hi, hp⟩ := step_child_eq d ev
    exact h.congr hi hp (by rw [hc]) hcr hcmd
  | sigterm => exact h

theorem serverInit_tableInv (name cmd : String) {ptyMaster listenFd : Int} (child created pid : Int)
    (hne : listenFd ≠ ptyMaster) :
    TableInv (serverInit name cmd ptyMaster child listenFd created pid) :=
  ⟨Nat.zero_le _, List.nodup_nil, fun _ h => absurd h (List.not_mem_nil _),
    List.nodup_cons.2 ⟨by simpa using hne, List.nodup_singleton _⟩, List.mem_cons_self _ _,
    List.mem_cons_of_mem _ (List.mem_singleton_self _), List.not_mem_nil _, List.not_mem_nil _,
    fun _ h => absurd h (List.not_mem_nil _), List.Perm.refl _⟩

theorem serverInit_infoInv (name cmd : String) (ptyMaster child listenFd created pid : Int) :
    InfoInv (serverInit name cmd ptyMaster child listenFd created pid) := rfl

/-- **The client-table invariant holds in every reachable state.** -/
theorem tableInv_reachable (h : Reachable d) : TableInv d :=
  h.induction (fun name cmd _ child _ created pid hne => serverInit_tableInv name cmd child created pid hne)
    fun _ s h ha => step_tableInv h s ha

/-- **The info file holds the current count in every reachable state.** -/
theorem infoInv_reachable (h : Reachable d) : InfoInv d :=
  h.induction (fun name cmd ptyMaster child listenFd created pid _ =>
    serverInit_infoInv name cmd ptyMaster child listenFd created pid) fun _ s h _ => step_infoInv h s

/-! ### What an admission does to the table -/

/-- The admission step admits `c`: the listening socket is readable, `accept` returns `c`, the
table has room, and the handshake's `recv_msg` completes with a well-formed `HELLO` as the first
frame `c` sent. -/
def Admits (env : IterEnv) (rev : Nat → Revents) (d : Daemon) (c : Incoming) : Prop :=
  (rev 0).pollin ∧ env.accept = some c ∧ d.srv.clientFds.length < MAX_CLIENTS ∧ env.helloOk ∧
    ∃ h rest, c.frames = h :: rest ∧ h.type = MSG_HELLO ∧ h.payload.length = 4

theorem onHello_clientFds (fd : Int) (p : Option Frame × Daemon) :
    (onHello fd p).srv.clientFds =
      if ∃ h, p.1 = some h ∧ h.type = MSG_HELLO ∧ h.payload.length = 4 then
        p.2.srv.clientFds ++ [fd]
      else p.2.srv.clientFds := by
  obtain ⟨_ | f, d⟩ := p
  · simp [onHello]
  · by_cases hf : f.type = MSG_HELLO ∧ f.payload.length = 4 <;> simp [onHello, hf, admitClient]

theorem hello_wellFormed_iff {env : IterEnv} {rev : Nat → Revents} {c : Incoming}
    (hin : (rev 0).pollin) (hc : env.accept = some c) (hn : d.srv.clientFds.length < MAX_CLIENTS) :
    (∃ h, ((d.accept c).recvFrame c.fd env.helloOk).1 = some h ∧ h.type = MSG_HELLO ∧
      h.payload.length = 4) ↔ Admits env rev d c := by
  simp only [Daemon.recvFrame_fst_eq_some, Daemon.accept_inbox_self, Admits, hin, hc, hn,
    true_and]
  constructor
  · rintro ⟨h, ⟨hok, rest, hr⟩, hwf⟩
    exact ⟨hok, h, rest, hr, hwf⟩
  · rintro ⟨hok, h, rest, hr, hwf⟩
    exact ⟨h, ⟨hok, rest, hr⟩, hwf⟩

theorem acceptPhase_clientFds_of_not_admits {env : IterEnv} {rev : Nat → Revents}
    (h : ∀ c, ¬Admits env rev d c) : (acceptPhase env rev d).srv.clientFds = d.srv.clientFds := by
  unfold acceptPhase
  split_ifs with hin
  · split
    · rfl
    · rename_i c hc
      dsimp only
      split_ifs with hn
      · rfl
      · rw [onHello_clientFds, if_neg (by rw [hello_wellFormed_iff hin hc (by simpa using hn)]; exact h c)]
        simp
  · rfl

/-- **Client-table invariant.** Every reachable state keeps the table bounded, duplicate-free,
open and apart from the listening socket and the PTY master, with every removal index in range
and every admitted descriptor listed or removed; and a failed admission leaves the table as it
was. -/
theorem clientTable_invariant (h : Reachable d) :
    TableInv d ∧ ∀ env rev, (∀ c, ¬Admits env rev d c) →
      (acceptPhase env rev d).srv.clientFds = d.srv.clientFds :=
  ⟨tableInv_reachable h, fun _ _ => acceptPhase_clientFds_of_not_admits⟩

/-! ### A run with admissions and a removal -/

/-- An iteration in which a connection on `fd` is accepted and sends a well-formed `HELLO`, and
nothing else happens. -/
def admitEnv (fd : Int) : IterEnv where
  poll := .ready fun j => if j = 0 then ⟨true, false, false⟩ else Revents.none
  accept := some ⟨fd, [Msg.toFrame (.hello 80 24)]⟩
  helloOk := true
  pty := .eagain
  sendOk := fun _ => true
  recvOk := fun _ => true
  stale := Revents.none

/-- The state after the first client is admitted. -/
def oneClient : Daemon := (serverInit "s" "" 4 100 3 0 50).step (.iter (admitEnv 5))

theorem oneClient_reachable : Reachable oneClient :=
  (serverInit_reachable "s" "" 100 0 50 (by decide)).step
    ⟨rfl, fun c hc => by cases Option.some.inj hc; decide⟩

/-- The state after a second client is admitted. -/
def twoClients : Daemon := oneClient.step (.iter (admitEnv 6))

theorem twoClients_reachable : Reachable twoClients :=
  oneClient_reachable.step ⟨rfl, fun c hc => by cases Option.some.inj hc; decide⟩

/-- An iteration in which the first client's entry reports `POLLHUP`, and nothing else happens. -/
def hangupEnv : IterEnv where
  poll := .ready fun j => if j = 2 then ⟨false, true, false⟩ else Revents.none
  accept := none
  helloOk := true
  pty := .eagain
  sendOk := fun _ => true
  recvOk := fun _ => true
  stale := Revents.none

/-- The state after two clients are admitted and the first one hangs up. -/
def firstHungUp : Daemon := twoClients.step (.iter hangupEnv)

theorem firstHungUp_reachable : Reachable firstHungUp :=
  twoClients_reachable.step ⟨rfl, fun _ hc => nomatch hc⟩

theorem clientTable_invariant_firstHungUp :
    Reachable firstHungUp ∧ firstHungUp.srv.clientFds = [6] ∧ TableInv firstHungUp ∧
      ∀ env rev, (∀ c, ¬Admits env rev firstHungUp c) →
        (acceptPhase env rev firstHungUp).srv.clientFds = firstHungUp.srv.clientFds :=
  ⟨firstHungUp_reachable, by decide, clientTable_invariant firstHungUp_reachable⟩

end GhostlySession
