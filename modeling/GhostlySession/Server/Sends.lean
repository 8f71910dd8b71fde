import GhostlySession.Server.Shutdown

/-!
# The frames the daemon sends

The daemon calls `send_msg` on a client in two places only: the PTY broadcast, with one `DATA`
frame of at most `BUF_SIZE` bytes, the chunk `read` returned, and the `EXIT` broadcast, with one
byte. Every other operation appends calls of other kinds to the log (`Appends Event.Silent`),
the broadcast loop appends only sends of its frame (`broadcastLoop_appends`), so in every
reachable state every frame sent so far is a `DATA` frame of at most `BUF_SIZE` bytes
(`sends_data_reachable`), and the `EXIT` broadcast adds one-byte `EXIT` frames
(`exitBroadcast_appends`).
-/

namespace GhostlySession

/-- `d'` is `d` with calls appended to the log, each satisfying `P`. -/
def Appends (P : Event → Prop) (d d' : Daemon) : Prop :=
  ∃ new, d'.log = d.log ++ new ∧ ∀ e ∈ new, P e

namespace Appends

variable {P Q : Event → Prop} {d₁ d₂ d₃ : Daemon}

theorem refl (P : Event → Prop) (d : Daemon) : Appends P d d := ⟨[], by simp, by simp⟩

theorem trans (h₁ : Appends P d₁ d₂) (h₂ : Appends P d₂ d₃) : Appends P d₁ d₃ := by
  obtain ⟨n₁, e₁, p₁⟩ := h₁
  obtain ⟨n₂, e₂, p₂⟩ := h₂
  exact ⟨n₁ ++ n₂, by rw [e₂, e₁, List.append_assoc], by
    simpa [or_imp, forall_and] using ⟨p₁, p₂⟩⟩

theorem mono (h : Appends P d₁ d₂) (hpq : ∀ e, P e → Q e) : Appends Q d₁ d₂ :=
  let ⟨n, e, p⟩ := h
  ⟨n, e, fun x hx => hpq x (p x hx)⟩

theorem emit {e : Event} (h : P e) (d : Daemon) : Appends P d (d.emit e) :=
  ⟨[e], rfl, by simpa using h⟩

theorem log_forall (h : Appends P d₁ d₂) (h₁ : ∀ e ∈ d₁.log, P e) : ∀ e ∈ d₂.log, P e := by
  obtain ⟨n, e, p⟩ := h
  rw [e]
  simpa [or_imp, forall_and] using ⟨h₁, p⟩

end Appends

/-- The call writes nothing to a client: it is neither a `send_msg` nor the start of the `EXIT`
broadcast. -/
def Event.Silent (e : Event) : Prop := (∀ fd f ok, e ≠ .send fd f ok) ∧ ∀ c, e ≠ .exitBroadcast c

/-- Every `send_msg` the call records sends `f`, and it is not the start of the `EXIT`
broadcast. -/
def Event.SendsFrame (f : Frame) (e : Event) : Prop :=
  (∀ fd g ok, e = .send fd g ok → g = f) ∧ ∀ c, e ≠ .exitBroadcast c

/-- Every `send_msg` the call records sends a `DATA` frame of at most `BUF_SIZE` bytes, and it is
not the start of the `EXIT` broadcast. -/
def Event.SendsData (e : Event) : Prop :=
  (∀ fd g ok, e = .send fd g ok → g.type = MSG_DATA ∧ g.payload.length ≤ BUF_SIZE) ∧
    ∀ c, e ≠ .exitBroadcast c

theorem Event.Silent.sendsData {e : Event} (h : e.Silent) : e.SendsData :=
  ⟨fun fd g ok he => absurd he (h.1 fd g ok), h.2⟩

/-! ### Operations that send nothing -/

variable {d : Daemon}

theorem recvFrame_appends (d : Daemon) (fd : Int) (ok : Bool) :
    Appends Event.Silent d (d.recvFrame fd ok).2 :=
  ⟨_, Daemon.recvFrame_log d fd ok, by simp [Event.Silent]⟩

theorem serverRemoveClient_appends (d : Daemon) (i : Nat) :
    Appends Event.Silent d (serverRemoveClient d i) :=
  ⟨_, serverRemoveClient_log d i, by simp [Event.Silent]⟩

theorem onRecv_appends (i : Nat) (fd : Int) (p : Option Frame × Daemon) :
    Appends Event.Silent p.2 (onRecv i fd p) := by
  obtain ⟨_ | f, d⟩ := p
  · exact serverRemoveClient_appends d i
  · simp only [onRecv, dispatch]
    split_ifs
    all_goals first
      | exact Appends.refl _ _
      | exact serverRemoveClient_appends _ _
      | exact Appends.emit (by simp [Event.Silent]) _

theorem inputStep_appends (env : IterEnv) (fds : List PollFd) (i : Nat) (d : Daemon) :
    Appends Event.Silent d (inputStep env fds i d) := by
  have h1 : Appends Event.Silent d
      (d.emit (.consult (2 + i) fds.length (fds[2 + i]?.map PollFd.fd) (d.srv.clientFds.getD i 0))) :=
    Appends.emit (by simp [Event.Silent]) d
  simp only [inputStep]
  split_ifs
  · exact (h1.trans (recvFrame_appends _ _ _)).trans (onRecv_appends _ _ _)
  · exact h1.trans (serverRemoveClient_appends _ _)
  · exact h1

theorem inputLoop_appends (env : IterEnv) (fds : List PollFd) :
    ∀ (i : Nat) (d : Daemon), Appends Event.Silent d (inputLoop env fds i d)
  | 0, d => .refl _ d
  | i + 1, d => (inputStep_appends env fds i d).trans (inputLoop_appends env fds i _)

theorem onHello_appends (fd : Int) (p : Option Frame × Daemon) :
    Appends Event.Silent p.2 (onHello fd p) := by
  obtain ⟨_ | f, d⟩ := p
  · exact Appends.emit (by simp [Event.Silent]) _
  · simp only [onHello]
    split_ifs
    · exact ⟨[.winsize (unpackWinsize f.payload).1 (unpackWinsize f.payload).2,
        .admitted fd f d.srv.clientFds.length], by simp [admitClient], by simp [Event.Silent]⟩
    · exact Appends.emit (by simp [Event.Silent]) _

theorem acceptPhase_appends (env : IterEnv) (rev : Nat → Revents) (d : Daemon) :
    Appends Event.Silent d (acceptPhase env rev d) := by
  unfold acceptPhase
  split_ifs
  · split
    · exact .refl _ d
    · rename_i c _
      have h1 : Appends Event.Silent d (d.accept c) := ⟨_, rfl, by simp [Event.Silent]⟩
      dsimp only
      split_ifs
      · exact h1.trans (Appends.emit (by simp [Event.Silent]) _)
      · exact (h1.trans (recvFrame_appends _ _ _)).trans (onHello_appends _ _)
  · exact .refl _ d

/-! ### The broadcasts -/

/-- **The broadcast loop sends its frame and nothing else.** -/
theorem broadcastLoop_appends (f : Frame) (ok : Nat → Bool) :
    ∀ (i : Nat) (d : Daemon), Appends (Event.SendsFrame f) d (broadcastLoop f ok i d)
  | 0, d => .refl _ d
  | i + 1, d => by
    have h1 : Appends (Event.SendsFrame f) d (d.emit (.send (d.srv.clientFds.getD i 0) f (ok i))) :=
      Appends.emit (by simp [Event.SendsFrame]) d
    simp only [broadcastLoop]
    split
    · exact h1.trans (broadcastLoop_appends f ok i _)
    · exact (h1.trans ((serverRemoveClient_appends _ _).mono fun e he =>
        ⟨fun fd g ok' h' => absurd h' (he.1 fd g ok'), he.2⟩)).trans (broadcastLoop_appends f ok i _)

theorem ptyPhase_appends (env : IterEnv) (rev : Nat → Revents) (d : Daemon) :
    Appends Event.SendsData d (ptyPhase env rev d) := by
  have h1 : Appends Event.SendsData d (ptyOutput env (rev 1) d) := by
    unfold ptyOutput
    split_ifs
    · split
      · split_ifs
        · exact ⟨[], by simp, by simp⟩
        · refine (Appends.emit (show Event.SendsData (.ptyRead _) from
            ⟨(fun _ _ _ h => by cases h), (fun _ h => by cases h)⟩) d).trans
            ((broadcastLoop_appends _ _ _ _).mono fun e he => ⟨fun fd g ok h => ?_, he.2⟩)
          rw [he.1 fd g ok h]
          exact ⟨rfl, List.length_take_le _ _⟩
      all_goals exact ⟨[], by simp [Daemon.stop], by simp⟩
    · exact .refl _ d
  simp only [ptyPhase]
  split_ifs
  · exact h1.trans ⟨[], by simp, by simp⟩
  · exact h1

theorem iteration_appends (env : IterEnv) (d : Daemon) :
    Appends Event.SendsData d (iteration env d) := by
  unfold iteration
  split
  · exact (((acceptPhase_appends _ _ _).mono fun _ h => h.sendsData).trans
      (ptyPhase_appends _ _ _)).trans ((inputLoop_appends _ _ _ _).mono fun _ h => h.sendsData)
  · exact .refl _ d

theorem step_appends (d : Daemon) (s : Step) : Appends Event.SendsData d (d.step s) := by
  cases s with
  | iter env => exact iteration_appends env d
  | child ev => exact ⟨[], by simp [(step_child_eq d ev).2.2.2.2.2.2.1], by simp⟩
  | sigterm => exact ⟨[], by simp [Daemon.step, serverSigterm], by simp⟩

/-- **Every frame the loop sends is a `DATA` frame of at most `BUF_SIZE` bytes**, and the loop
never starts the `EXIT` broadcast. -/
theorem sends_data_reachable (h : Reachable d) : ∀ e ∈ d.log, e.SendsData :=
  h.induction (fun _ _ _ _ _ _ _ _ e he => absurd he (List.not_mem_nil e))
    fun d s h _ => (step_appends d s).log_forall h

theorem exitBroadcast_appends (ok : Nat → Bool) (d : Daemon) :
    Appends (fun e => ∀ fd g b, e = .send fd g b → g = ⟨MSG_EXIT, [exitByte d.srv.childExitCode]⟩) d
      (exitBroadcast ok d) :=
  (Appends.emit (fun _ _ _ h => by cases h) d).trans
    ((broadcastLoop_appends _ _ _ _).mono fun _ h => h.1)

end GhostlySession
