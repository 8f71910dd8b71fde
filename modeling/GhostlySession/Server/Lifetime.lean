import GhostlySession.Server.Table

/-!
# When the session ends

The loop runs while `srv.running` is set. Apart from the table, the admission step, the
broadcasts and the client-input loop leave the server record as it was (`SrvFrame`), so within
an iteration only the PTY step clears the flag, and only on end of file, an error other than
`EAGAIN`/`EINTR`, or `POLLHUP`/`POLLERR` on the master (`iteration_ends`). `SIGTERM` clears it,
and so does every `SIGCHLD` while `child_pid > 0` (`step_child_running`): `server_sigchld` clears
the flag whether or not `waitpid` found the child terminated, so a child that is stopped or
continued ends the session as well (`stop_ends_session`).
-/

namespace GhostlySession

/-! ### The server record outside the table -/

/-- `d'` differs from `d` in the server record at most in the client table. -/
def SrvFrame (d d' : Daemon) : Prop := d'.srv = { d.srv with clientFds := d'.srv.clientFds }

namespace SrvFrame

variable {d₁ d₂ d₃ : Daemon}

theorem refl (d : Daemon) : SrvFrame d d := rfl

theorem trans (h₁ : SrvFrame d₁ d₂) (h₂ : SrvFrame d₂ d₃) : SrvFrame d₁ d₃ := by
  rw [SrvFrame, h₂, h₁]

theorem running (h : SrvFrame d₁ d₂) : d₂.srv.running = d₁.srv.running := by rw [h]

end SrvFrame

theorem emit_srvFrame (d : Daemon) (e : Event) : SrvFrame d (d.emit e) := rfl

theorem recvFrame_srvFrame (d : Daemon) (fd : Int) (ok : Bool) : SrvFrame d (d.recvFrame fd ok).2 := by
  simp [SrvFrame]

theorem serverRemoveClient_srvFrame (d : Daemon) (i : Nat) : SrvFrame d (serverRemoveClient d i) :=
  rfl

theorem broadcastLoop_srvFrame (f : Frame) (ok : Nat → Bool) :
    ∀ (i : Nat) (d : Daemon), SrvFrame d (broadcastLoop f ok i d)
  | 0, d => .refl d
  | i + 1, d => by
    simp only [broadcastLoop]
    split
    · exact (emit_srvFrame _ _).trans (broadcastLoop_srvFrame f ok i _)
    · exact ((emit_srvFrame _ _).trans (serverRemoveClient_srvFrame _ _)).trans
        (broadcastLoop_srvFrame f ok i _)

theorem onRecv_srvFrame (i : Nat) (fd : Int) (p : Option Frame × Daemon) :
    SrvFrame p.2 (onRecv i fd p) := by
  obtain ⟨_ | f, d⟩ := p
  · exact serverRemoveClient_srvFrame d i
  · simp only [onRecv, dispatch]
    split_ifs <;> rfl

theorem inputStep_srvFrame (env : IterEnv) (fds : List PollFd) (i : Nat) (d : Daemon) :
    SrvFrame d (inputStep env fds i d) := by
  simp only [inputStep]
  split_ifs
  · exact ((emit_srvFrame _ _).trans (recvFrame_srvFrame _ _ _)).trans (onRecv_srvFrame _ _ _)
  · exact (emit_srvFrame _ _).trans (serverRemoveClient_srvFrame _ _)
  · exact emit_srvFrame _ _

theorem inputLoop_srvFrame (env : IterEnv) (fds : List PollFd) :
    ∀ (i : Nat) (d : Daemon), SrvFrame d (inputLoop env fds i d)
  | 0, d => .refl d
  | i + 1, d => (inputStep_srvFrame env fds i d).trans (inputLoop_srvFrame env fds i _)

theorem onHello_srvFrame (fd : Int) (p : Option Frame × Daemon) : SrvFrame p.2 (onHello fd p) := by
  obtain ⟨_ | f, d⟩ := p
  · rfl
  · simp only [onHello]
    split_ifs <;> rfl

theorem acceptPhase_srvFrame (env : IterEnv) (rev : Nat → Revents) (d : Daemon) :
    SrvFrame d (acceptPhase env rev d) := by
  unfold acceptPhase
  split_ifs
  · split
    · exact .refl d
    · dsimp only
      split_ifs
      · rfl
      · exact (recvFrame_srvFrame (d.accept _) _ _).trans (onHello_srvFrame _ _)
  · exact .refl d

/-! ### What clears the running flag -/

/-- The steps the session is meant to end on: the child's termination, `SIGTERM`, and in an
iteration a failed `poll`, end of file or an error on the PTY master, or `POLLHUP`/`POLLERR` on
it. -/
def Step.Ends : Step → Prop
  | .iter env =>
    match env.poll with
    | .ready rev =>
      (rev 1).pollhup ∨ (rev 1).pollerr ∨ (rev 1).pollin ∧ (env.pty = .error ∨ env.pty = .bytes [])
    | .eintr => False
    | .failed => True
  | .child ev => (∃ code, ev = .exit code) ∨ ∃ sig, ev = .kill sig
  | .sigterm => True

theorem ptyOutput_running {env : IterEnv} {r : Revents} {d : Daemon}
    (h : (ptyOutput env r d).srv.running = false) :
    d.srv.running = false ∨ r.pollin ∧ (env.pty = .error ∨ env.pty = .bytes []) := by
  unfold ptyOutput at h
  split_ifs at h with hin
  · split at h
    · split_ifs at h with he
      · exact .inr ⟨hin, .inr (by rw [List.take_eq_nil_iff] at he; simp_all [BUF_SIZE])⟩
      · exact .inl (by rwa [serverBroadcast, (broadcastLoop_srvFrame _ _ _ _).running] at h)
    · exact .inl h
    · exact .inl h
    · exact .inr ⟨hin, .inl ‹_›⟩
  · exact .inl h

/-- **Within an iteration the flag is cleared only by the PTY step, on end of file, an error, or
a hangup of the master.** -/
theorem iteration_ends {env : IterEnv} {d : Daemon} (hr : d.srv.running = true)
    (h : (iteration env d).srv.running = false) : (Step.iter env).Ends := by
  unfold iteration at h
  simp only [Step.Ends]
  split at h
  · rename_i rev hp
    rw [hp]
    rw [(inputLoop_srvFrame _ _ _ _).running] at h
    simp only [ptyPhase] at h
    split_ifs at h with hh
    · rcases Bool.or_eq_true _ _ ▸ hh with hh | hh
      · exact .inl hh
      · exact .inr (.inl hh)
    · rcases ptyOutput_running h with h | h
      · rw [(acceptPhase_srvFrame _ _ _).running, hr] at h
        exact absurd h (by decide)
      · exact .inr (.inr h)
  · rename_i hp
    split <;> simp_all

/-- **`SIGCHLD` clears the flag whenever `child_pid > 0`**, whatever change of the child raised
it. -/
theorem step_child_running (d : Daemon) (ev : ChildEvent) (hc : (d.child.after ev).isSome)
    (hp : 0 < d.srv.childPid) : (d.step (.child ev)).srv.running = false := by
  obtain ⟨c, hc⟩ := Option.isSome_iff_exists.1 hc
  simp only [Daemon.step, hc, serverSigchld]
  rw [if_pos hp]
  split <;> rfl

/-- **A stopped child ends the session**: in the state the loop starts in, `SIGSTOP` to the child
raises `SIGCHLD`, and `server_sigchld` clears the flag although the child has not terminated. -/
theorem stop_ends_session :
    ¬ ∀ d s, Reachable d → d.srv.running = true → s.Allowed d →
      (d.step s).srv.running = false → s.Ends := by
  intro h
  have hr : Reachable (serverInit "s" "" 4 100 3 0 50) := serverInit_reachable _ _ _ _ _ (by decide)
  have := h _ (.child .stop) hr rfl trivial (step_child_running _ _ rfl (by decide))
  simp [Step.Ends] at this

end GhostlySession
