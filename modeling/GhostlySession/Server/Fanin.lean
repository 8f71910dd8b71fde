import GhostlySession.Server.Fanout

/-!
# Fan-in: what reaches the PTY from each client

The connection on a descriptor observes of the daemon's log its `accept`, with the frames its peer
sends (`Fed.accepted`), the daemon's `recv_msg` calls on it, its admission or rejection, the
payloads written to the PTY master on its behalf, and its removal (`Event.fedBy`). The automaton
`Feed` reads these observations and keeps the frames the daemon has not read yet: a `recv_msg`
takes the next one; the first is the `HELLO`, which must be well formed, and admitted with fewer
than `MAX_CLIENTS` clients attached; after it a non-empty `DATA` frame makes its payload owed to the
PTY, and the next thing the connection observes must be the write of it; a `DETACH` or a failed
`recv_msg` must be followed by the removal.

`Feed.life_of_handshake` reads off an accepted observation sequence what reaches the PTY: the
frames read in order, the payloads of their `DATA` frames written whole, nothing after a `DETACH`,
and nothing before an admitted `HELLO`. Every operation of the loop keeps the daemon's log
accepted, with every listed connection attached and its unread frames its `inbox`
(`feedInv_reachable`), so this holds of every connection of every run (`fanin_exact`).
-/

namespace GhostlySession

/-! ### What a connection observes on the way in -/

/-- An event as the connection on one descriptor observes it on the way in. -/
inductive Fed
  | accepted (frames : List Frame)
  | recv (f : Option Frame)
  | admitted (hello : Frame) (count : Nat)
  | rejected
  | write (bytes : List UInt8)
  | removed
  deriving DecidableEq, Repr

/-- What the connection on `fd` observes of an event on the way in. -/
def Event.fedBy (fd : Int) : Event → Option Fed
  | .accepted fd' fs => if fd' = fd then some (.accepted fs) else none
  | .recv fd' f => if fd' = fd then some (.recv f) else none
  | .admitted fd' h n => if fd' = fd then some (.admitted h n) else none
  | .rejected fd' => if fd' = fd then some .rejected else none
  | .ptyWrite fd' p => if fd' = fd then some (.write p) else none
  | .remove _ fd' _ => if fd' = fd then some .removed else none
  | _ => none

theorem Event.fedBy_eq_accepted {e : Event} {fd : Int} {fs : List Frame}
    (h : e.fedBy fd = some (.accepted fs)) : e = .accepted fd fs := by
  cases e <;> simp only [Event.fedBy] at h <;> (try split_ifs at h) <;> simp_all

/-- The frames a connection's observations show read. -/
def recvdOf : List Fed → List Frame
  | [] => []
  | .recv (some f) :: v => f :: recvdOf v
  | _ :: v => recvdOf v

/-- The payloads its observations show written to the PTY. -/
def writesOf : List Fed → List (List UInt8)
  | [] => []
  | .write p :: v => p :: writesOf v
  | _ :: v => writesOf v

/-- The observations up to the connection's close: its rejection or removal. -/
def untilClosed : List Fed → List Fed
  | [] => []
  | .rejected :: _ | .removed :: _ => []
  | x :: v => x :: untilClosed v

/-- The non-empty `DATA` payloads of a list of frames. -/
def dataPayloads : List Frame → List (List UInt8)
  | [] => []
  | f :: fs => if f.type = MSG_DATA ∧ f.payload ≠ [] then f.payload :: dataPayloads fs else dataPayloads fs

/-! ### The automaton -/

/-- Where a connection stands on the way in; `rest` is what its peer sent that the daemon has not
read. -/
inductive Feed
  /-- no connection on the descriptor -/
  | idle
  /-- accepted, its `HELLO` not read -/
  | handshake (rest : List Frame)
  /-- the handshake's `recv_msg` failed, and its rejection is owed -/
  | refused
  /-- its first frame `h` read, and admission or rejection owed -/
  | hello (h : Frame) (rest : List Frame)
  /-- in the table, owed nothing -/
  | attached (rest : List Frame)
  /-- in the table, and the write of `bytes` to the PTY is owed -/
  | writing (bytes : List UInt8) (rest : List Frame)
  /-- in the table, and its removal is owed -/
  | leaving (rest : List Frame)
  deriving DecidableEq, Repr

/-- Where reading `f` leaves an attached connection: the input loop's `switch` on its type. -/
def Feed.afterRecv (f : Frame) (rest : List Frame) : Feed :=
  if f.type = MSG_DATA then (if f.payload ≠ [] then .writing f.payload rest else .attached rest)
  else if f.type = MSG_DETACH then .leaving rest
  else .attached rest

/-- One observation; `none` where the connection must not observe it. -/
def Feed.next : Feed → Fed → Option Feed
  | .idle, .accepted fs => some (.handshake fs)
  | .handshake _, .rejected | .refused, .rejected | .hello _ _, .rejected => some .idle
  | .handshake _, .recv none => some .refused
  | .handshake (f :: fs), .recv (some g) => if g = f then some (.hello f fs) else none
  | .hello h fs, .admitted h' n =>
    if h' = h ∧ h.type = MSG_HELLO ∧ h.payload.length = 4 ∧ n < MAX_CLIENTS then some (.attached fs)
    else none
  | .attached fs, .recv none => some (.leaving fs)
  | .attached (f :: fs), .recv (some g) => if g = f then some (Feed.afterRecv f fs) else none
  | .writing p fs, .write q => if q = p then some (.attached fs) else none
  | .attached _, .removed | .leaving _, .removed => some .idle
  | _, _ => none

@[simp] theorem Feed.next_attached_removed (fs : List Frame) :
    (Feed.attached fs).next .removed = some .idle := by
  cases fs <;> rfl

@[simp] theorem Feed.next_attached_recv_none (fs : List Frame) :
    (Feed.attached fs).next (.recv none) = some (.leaving fs) := by
  cases fs <;> rfl

@[simp] theorem Feed.next_handshake_rejected (fs : List Frame) :
    (Feed.handshake fs).next .rejected = some .idle := by
  cases fs <;> rfl

@[simp] theorem Feed.next_handshake_recv_none (fs : List Frame) :
    (Feed.handshake fs).next (.recv none) = some .refused := by
  cases fs <;> rfl

@[simp] theorem Feed.next_idle_accepted (fs : List Frame) :
    Feed.idle.next (.accepted fs) = some (.handshake fs) := rfl

@[simp] theorem Feed.next_handshake_recv_some (f g : Frame) (fs : List Frame) :
    (Feed.handshake (f :: fs)).next (.recv (some g)) = if g = f then some (.hello f fs) else none :=
  rfl

@[simp] theorem Feed.next_hello_admitted (h h' : Frame) (fs : List Frame) (n : Nat) :
    (Feed.hello h fs).next (.admitted h' n) =
      if h' = h ∧ h.type = MSG_HELLO ∧ h.payload.length = 4 ∧ n < MAX_CLIENTS then
        some (.attached fs) else none := rfl

@[simp] theorem Feed.next_attached_recv_some (f g : Frame) (fs : List Frame) :
    (Feed.attached (f :: fs)).next (.recv (some g)) =
      if g = f then some (Feed.afterRecv f fs) else none := rfl

@[simp] theorem Feed.next_writing_write (p q : List UInt8) (fs : List Frame) :
    (Feed.writing p fs).next (.write q) = if q = p then some (.attached fs) else none := rfl

/-! ### What one observation can do, from each state -/

section Inversion

variable {fs : List Frame} {x : Fed} {σ : Feed}

theorem Feed.next_idle_eq (h : Feed.idle.next x = some σ) :
    ∃ fs, x = .accepted fs ∧ σ = .handshake fs := by
  cases x <;> cases h
  exact ⟨_, rfl, rfl⟩

theorem Feed.next_handshake_eq (h : (Feed.handshake fs).next x = some σ) :
    (x = .rejected ∧ σ = .idle) ∨ (x = .recv none ∧ σ = .refused) ∨
      ∃ f rest, fs = f :: rest ∧ x = .recv (some f) ∧ σ = .hello f rest := by
  cases x with
  | rejected => exact .inl ⟨rfl, (Option.some.inj ((Feed.next_handshake_rejected fs).symm.trans h)).symm⟩
  | recv r =>
    rcases r with _ | g
    · exact .inr (.inl ⟨rfl, (Option.some.inj
        ((Feed.next_handshake_recv_none fs).symm.trans h)).symm⟩)
    rcases fs with _ | ⟨f, fs⟩
    · cases h
    rw [Feed.next_handshake_recv_some] at h
    split_ifs at h with hg
    cases h
    exact .inr (.inr ⟨f, fs, rfl, hg ▸ rfl, rfl⟩)
  | _ => cases fs <;> cases h

theorem Feed.next_hello_eq {g : Frame} (h : (Feed.hello g fs).next x = some σ) :
    (x = .rejected ∧ σ = .idle) ∨
      ∃ n, x = .admitted g n ∧ g.type = MSG_HELLO ∧ g.payload.length = 4 ∧ n < MAX_CLIENTS ∧
        σ = .attached fs := by
  cases x with
  | rejected => cases h; exact .inl ⟨rfl, rfl⟩
  | admitted g' n =>
    rw [Feed.next_hello_admitted] at h
    split_ifs at h with hg
    obtain ⟨rfl, ht, hl, hn⟩ := hg
    cases h
    exact .inr ⟨n, rfl, ht, hl, hn, rfl⟩
  | _ => cases h

theorem Feed.next_attached_eq (h : (Feed.attached fs).next x = some σ) :
    (x = .recv none ∧ σ = .leaving fs) ∨
      (∃ f rest, fs = f :: rest ∧ x = .recv (some f) ∧ σ = Feed.afterRecv f rest) ∨
      (x = .removed ∧ σ = .idle) := by
  cases x with
  | recv r =>
    rcases r with _ | g
    · exact .inl ⟨rfl, (Option.some.inj ((Feed.next_attached_recv_none fs).symm.trans h)).symm⟩
    rcases fs with _ | ⟨f, fs⟩
    · cases h
    rw [Feed.next_attached_recv_some] at h
    split_ifs at h with hg
    cases h
    exact .inr (.inl ⟨f, fs, rfl, hg ▸ rfl, rfl⟩)
  | removed => exact .inr (.inr ⟨rfl, (Option.some.inj ((Feed.next_attached_removed fs).symm.trans h)).symm⟩)
  | _ => cases fs <;> cases h

theorem Feed.next_writing_eq {p : List UInt8} (h : (Feed.writing p fs).next x = some σ) :
    x = .write p ∧ σ = .attached fs := by
  cases x with
  | write q =>
    rw [Feed.next_writing_write] at h
    split_ifs at h with hq
    cases h
    exact ⟨hq ▸ rfl, rfl⟩
  | _ => cases h

theorem Feed.next_leaving_eq (h : (Feed.leaving fs).next x = some σ) : x = .removed ∧ σ = .idle := by
  cases x <;> cases h
  exact ⟨rfl, rfl⟩

theorem Feed.next_refused_eq (h : Feed.refused.next x = some σ) : x = .rejected ∧ σ = .idle := by
  cases x <;> cases h
  exact ⟨rfl, rfl⟩

end Inversion

/-- The fan-in monitor. -/
def fanIn : Monitor Feed Fed := ⟨Event.fedBy, Feed.next⟩

@[simp] theorem fanIn_run (fd : Int) (σ : Feed) (l : List Event) :
    fanIn.run fd σ l = runSteps Feed.next σ (observe Event.fedBy fd l) := rfl

/-- The frames not read yet. -/
def Feed.rest : Feed → List Frame
  | .handshake fs | .hello _ fs | .attached fs | .writing _ fs | .leaving fs => fs
  | _ => []

/-- The write still owed. -/
def Feed.pendingWrite : Feed → List (List UInt8)
  | .writing p _ => [p]
  | _ => []

/-- Idle, or attached and owed nothing: where the daemon leaves a connection between
iterations. -/
def Feed.AtRest : Feed → Prop
  | .idle | .attached _ => True
  | _ => False

/-- In the table: attached, or owing a write or the removal. -/
def Feed.InTable : Feed → Prop
  | .attached _ | .writing _ _ | .leaving _ => True
  | _ => False

theorem Feed.afterRecv_inTable (f : Frame) (rest : List Frame) : (Feed.afterRecv f rest).InTable := by
  unfold Feed.afterRecv; split_ifs <;> trivial

@[simp] theorem Feed.afterRecv_rest (f : Frame) (rest : List Frame) :
    (Feed.afterRecv f rest).rest = rest := by
  unfold Feed.afterRecv; split_ifs <;> rfl

theorem Feed.afterRecv_of_data {f : Frame} (h1 : f.type = MSG_DATA) (h2 : f.payload ≠ [])
    (rest : List Frame) : Feed.afterRecv f rest = .writing f.payload rest := by
  simp [Feed.afterRecv, h1, h2]

theorem Feed.afterRecv_of_detach {f : Frame} (h : f.type = MSG_DETACH) (rest : List Frame) :
    Feed.afterRecv f rest = .leaving rest := by
  simp [Feed.afterRecv, h, show MSG_DETACH ≠ MSG_DATA by decide]

theorem Feed.afterRecv_of_quiet {f : Frame} (h1 : ¬(f.type = MSG_DATA ∧ f.payload ≠ []))
    (h2 : f.type ≠ MSG_DETACH) (rest : List Frame) : Feed.afterRecv f rest = .attached rest := by
  unfold Feed.afterRecv
  split_ifs <;> simp_all

/-- Observations the automaton accepts from `σ`, ending at rest. -/
def Feed.Ends (σ : Feed) (v : List Fed) : Prop := ∃ τ, runSteps Feed.next σ v = some τ ∧ τ.AtRest

theorem Feed.ends_next {σ : Feed} {x : Fed} {v : List Fed} (h : Feed.Ends σ (x :: v)) :
    ∃ σ', σ.next x = some σ' ∧ Feed.Ends σ' v := by
  obtain ⟨τ, h, hτ⟩ := h
  simp only [runSteps_cons] at h
  cases hx : σ.next x with
  | none => simp [hx] at h
  | some σ' => exact ⟨σ', rfl, τ, by simpa [hx] using h, hτ⟩

theorem Feed.untilClosed_of_owing {σ : Feed} {v : List Fed} (h : Feed.Ends σ v) (hr : ¬σ.AtRest)
    (hσ : ∀ x σ', σ.next x = some σ' → x = .rejected ∨ x = .removed) : untilClosed v = [] := by
  rcases v with _ | ⟨x, v⟩
  · obtain ⟨τ, h, hτ⟩ := h
    cases h
    exact absurd hτ hr
  · obtain ⟨σ', hx, -⟩ := Feed.ends_next h
    rcases hσ x σ' hx with rfl | rfl <;> rfl

theorem Feed.leaving_untilClosed {fs : List Frame} {v : List Fed} (h : Feed.Ends (.leaving fs) v) :
    untilClosed v = [] :=
  Feed.untilClosed_of_owing h id fun _ _ hx => .inr (Feed.next_leaving_eq hx).1

theorem Feed.refused_untilClosed {v : List Fed} (h : Feed.Ends .refused v) : untilClosed v = [] :=
  Feed.untilClosed_of_owing h id fun _ _ hx => .inl (Feed.next_refused_eq hx).1

theorem dataPayloads_cons_afterRecv (f : Frame) (fs : List Frame) (rest : List Frame) :
    (Feed.afterRecv f rest).pendingWrite ++ dataPayloads fs = dataPayloads (f :: fs) := by
  unfold Feed.afterRecv
  split_ifs <;> simp_all [Feed.pendingWrite, dataPayloads]

/-- **What a connection in the table observes up to its close.** The frames read are the next
ones its peer sent; the payloads written are the one owed, then the non-empty `DATA` payloads of
the frames read, in order; and no frame is read after a `DETACH`. -/
theorem Feed.life_of_inTable : ∀ (v : List Fed) (σ : Feed), σ.InTable → Feed.Ends σ v →
    recvdOf (untilClosed v) <+: σ.rest ∧
      writesOf (untilClosed v) = σ.pendingWrite ++ dataPayloads (recvdOf (untilClosed v)) ∧
      ∀ f ∈ (recvdOf (untilClosed v)).dropLast, f.type ≠ MSG_DETACH
  | [], σ, hσ, ⟨τ, h, hτ⟩ => by
    cases h
    cases σ <;> first
      | exact ⟨List.nil_prefix, rfl, fun _ h => absurd h (List.not_mem_nil _)⟩
      | exact absurd hσ id
      | exact absurd hτ id
  | x :: w, σ, hσ, h => by
    obtain ⟨σ', hx, hw⟩ := Feed.ends_next h
    cases σ with
    | attached fs =>
      rcases Feed.next_attached_eq hx with ⟨rfl, rfl⟩ | ⟨f, fs, rfl, rfl, rfl⟩ | ⟨rfl, -⟩
      · have hu : untilClosed (.recv none :: w) = [.recv none] :=
          congrArg (Fed.recv none :: ·) (Feed.leaving_untilClosed hw)
        rw [hu]
        exact ⟨List.nil_prefix, rfl, fun _ h => absurd h (List.not_mem_nil _)⟩
      · obtain ⟨h1, h2, h3⟩ := Feed.life_of_inTable w _ (Feed.afterRecv_inTable f fs) hw
        rw [Feed.afterRecv_rest] at h1
        refine ⟨(List.prefix_cons_inj f).2 h1, h2.trans (dataPayloads_cons_afterRecv _ _ _),
          fun g hg => ?_⟩
        rcases mem_dropLast_cons hg with rfl | hg
        · intro hd
          rw [Feed.afterRecv_of_detach hd] at hw
          simp [Feed.leaving_untilClosed hw, recvdOf] at hg
        · exact h3 g hg
      · exact ⟨List.nil_prefix, rfl, fun _ h => absurd h (List.not_mem_nil _)⟩
    | writing p fs =>
      obtain ⟨rfl, rfl⟩ := Feed.next_writing_eq hx
      obtain ⟨h1, h2, h3⟩ := Feed.life_of_inTable w (.attached fs) trivial hw
      exact ⟨h1, congrArg (p :: ·) h2, h3⟩
    | leaving fs =>
      obtain ⟨rfl, -⟩ := Feed.next_leaving_eq hx
      simp [untilClosed, recvdOf, writesOf, Feed.pendingWrite, dataPayloads]
    | _ => exact absurd hσ id

/-- **What a connection observes from its `accept` to its close.** The frames read are the first
ones its peer sent, in order; the payloads written are the non-empty `DATA` payloads of the frames
read after the first; no frame is read after a `DETACH`; and when anything is written, the first
frame was a well-formed `HELLO`, admitted with fewer than `MAX_CLIENTS` clients attached. -/
theorem Feed.life_of_handshake {fs : List Frame} {v : List Fed} (h : Feed.Ends (.handshake fs) v) :
    recvdOf (untilClosed v) <+: fs ∧
      writesOf (untilClosed v) = dataPayloads (recvdOf (untilClosed v)).tail ∧
      (∀ f ∈ (recvdOf (untilClosed v)).tail.dropLast, f.type ≠ MSG_DETACH) ∧
      (writesOf (untilClosed v) ≠ [] → ∃ hello n, fs.head? = some hello ∧
        hello.type = MSG_HELLO ∧ hello.payload.length = 4 ∧ n < MAX_CLIENTS ∧
        Fed.admitted hello n ∈ untilClosed v) := by
  rcases v with _ | ⟨x, w⟩
  · simp [untilClosed, recvdOf, writesOf, dataPayloads]
  obtain ⟨σ', hx, hw⟩ := Feed.ends_next h
  rcases Feed.next_handshake_eq hx with ⟨rfl, -⟩ | ⟨rfl, rfl⟩ | ⟨f, fs, rfl, rfl, rfl⟩
  · simp [untilClosed, recvdOf, writesOf, dataPayloads]
  · simp [untilClosed, Feed.refused_untilClosed hw, recvdOf, writesOf, dataPayloads]
  rcases w with _ | ⟨y, w⟩
  · simp [untilClosed, recvdOf, writesOf, dataPayloads]
  obtain ⟨σ'', hy, hw'⟩ := Feed.ends_next hw
  rcases Feed.next_hello_eq hy with ⟨rfl, -⟩ | ⟨n, rfl, hht, hhl, hn, rfl⟩
  · simp [untilClosed, recvdOf, writesOf, dataPayloads]
  obtain ⟨h1, h2, h3⟩ := Feed.life_of_inTable w (.attached fs) trivial hw'
  simp only [untilClosed, recvdOf, writesOf, List.tail_cons]
  exact ⟨List.prefix_cons_inj _ |>.2 h1, by simpa [Feed.pendingWrite] using h2, h3,
    fun _ => ⟨f, n, rfl, hht, hhl, hn, List.mem_cons_of_mem _ (List.mem_cons_self _ _)⟩⟩

/-! ### Every observation of a write lies inside a connection's life -/

theorem Feed.next_close {σ σ' : Feed} {x : Fed} (hx : x = .rejected ∨ x = .removed)
    (h : σ.next x = some σ') : σ' = .idle := by
  rcases hx with rfl | rfl <;> cases σ <;> (try rename_i fs; cases fs) <;>
    first | exact (Option.some.inj h).symm | cases h

theorem Feed.last_accepted : ∀ (v : List Fed) (ρ σ : Feed), runSteps Feed.next ρ v = some σ →
    σ ≠ .idle → (ρ ≠ .idle ∧ untilClosed v = v) ∨
      ∃ v₀ fs v', v = v₀ ++ .accepted fs :: v' ∧ untilClosed v' = v'
  | [], ρ, σ, h, hσ => .inl ⟨fun e => hσ ((Option.some.inj h).symm.trans e), rfl⟩
  | x :: w, ρ, σ, h, hσ => by
    obtain ⟨σ₁, hx, hw⟩ := Option.bind_eq_some.1 h
    rcases Feed.last_accepted w σ₁ σ hw hσ with ⟨hσ₁, hu⟩ | ⟨v₀, fs, v', rfl, hu⟩
    · by_cases hacc : ∃ fs, x = .accepted fs
      · obtain ⟨fs, rfl⟩ := hacc
        exact .inr ⟨[], fs, w, rfl, hu⟩
      · refine .inl ⟨fun e => hacc ((Feed.next_idle_eq (e ▸ hx)).imp fun _ => And.left), ?_⟩
        cases x with
        | rejected => exact absurd (Feed.next_close (.inl rfl) hx) hσ₁
        | removed => exact absurd (Feed.next_close (.inr rfl) hx) hσ₁
        | accepted fs => exact absurd ⟨fs, rfl⟩ hacc
        | _ => simp [untilClosed, hu]
    · exact .inr ⟨x :: v₀, fs, v', rfl, hu⟩

theorem untilClosed_append {v w : List Fed} (h : untilClosed v = v) :
    untilClosed (v ++ w) = v ++ untilClosed w := by
  induction v with
  | nil => rfl
  | cons x v ih => cases x <;> simp_all [untilClosed]

theorem observe_eq_accepted {fd : Int} {L : List Event} {v₀ v' : List Fed} {fs : List Frame}
    (h : observe Event.fedBy fd L = v₀ ++ .accepted fs :: v') :
    ∃ L₁ L₂, L = L₁ ++ .accepted fd fs :: L₂ ∧ observe Event.fedBy fd L₂ = v' := by
  obtain ⟨l₁, l₂, rfl, -, h₂⟩ := List.filterMap_eq_append_iff.1 h
  obtain ⟨l₃, e, l₄, rfl, -, he, h₄⟩ := List.filterMap_eq_cons_iff.1 h₂
  exact ⟨l₁ ++ l₃, l₄, by rw [Event.fedBy_eq_accepted he]; simp, h₄⟩

/-! ### The daemon keeps every connection's observations accepted -/

/-- Where the connection on `fd` stands between iterations: attached with its `inbox` unread while
it is listed, idle otherwise. -/
def feedOf (d : Daemon) (fd : Int) : Feed :=
  if fd ∈ d.srv.clientFds then .attached (d.inbox fd) else .idle

/-- `feedOf d`, with the connection on `fd` in state `σ`. -/
def feedWith (d : Daemon) (fd : Int) (σ : Feed) (x : Int) : Feed := if x = fd then σ else feedOf d x

/-- Every connection's observations are accepted, and leave it where `feedOf` says. -/
def FeedInv (d : Daemon) : Prop := fanIn.Holds .idle (feedOf d) d

/-- `d'` moves every connection from where `feedOf d` says to where `feedOf d'` says. -/
def Feeds (d d' : Daemon) : Prop := fanIn.Moves (feedOf d) (feedOf d') d d'

variable {d : Daemon}

theorem feedWith_listed {fd : Int} (h : fd ∈ d.srv.clientFds) :
    feedWith d fd (.attached (d.inbox fd)) = feedOf d := funext fun x => by
  by_cases hx : x = fd <;> simp [feedWith, feedOf, hx, h]

namespace Feeds

variable {d₁ d₂ d₃ : Daemon}

theorem refl (d : Daemon) : Feeds d d := Monitor.Moves.refl _ d

theorem trans (h₁ : Feeds d₁ d₂) (h₂ : Feeds d₂ d₃) : Feeds d₁ d₃ := Monitor.Moves.trans h₁ h₂

theorem quiet {new : List Event} (h : d₂.log = d₁.log ++ new)
    (hq : ∀ e ∈ new, ∀ fd, e.fedBy fd = none) (hc : d₂.srv.clientFds = d₁.srv.clientFds)
    (hi : d₂.inbox = d₁.inbox) : Feeds d₁ d₂ :=
  (Monitor.Moves.quiet h hq).congr_right fun fd => by simp [feedOf, hc, hi]

theorem emit {e : Event} (he : ∀ fd, e.fedBy fd = none) (d : Daemon) : Feeds d (d.emit e) :=
  quiet rfl (by simpa using he) rfl rfl

end Feeds

theorem recvFrame_feeds {fd : Int} {ok : Bool} (σ τ : Feed)
    (hτ : σ.next (.recv (d.recvFrame fd ok).1) = some τ) :
    fanIn.Moves (feedWith d fd σ) (feedWith (d.recvFrame fd ok).2 fd τ) d (d.recvFrame fd ok).2 := by
  refine ⟨[.recv fd (d.recvFrame fd ok).1], Daemon.recvFrame_log d fd ok, fun x => ?_⟩
  rcases eq_or_ne x fd with rfl | hx
  · simp [feedWith, Event.fedBy, hτ]
  · simp [feedWith, feedOf, Event.fedBy, hx, Ne.symm hx, Daemon.recvFrame_inbox_of_ne d ok hx]

theorem serverRemoveClient_feeds' {i : Nat} (σ : Feed) (hσ : σ.next .removed = some .idle)
    (hn : d.srv.clientFds.Nodup) (hi : i < d.srv.clientFds.length) :
    fanIn.Moves (feedWith d (d.srv.clientFds.getD i 0) σ) (feedOf (serverRemoveClient d i)) d
      (serverRemoveClient d i) := by
  have hms : ∀ fd, fd ∈ swapRemove d.srv.clientFds i ↔ _ := fun _ => mem_swapRemove hi hn
  refine ⟨[.remove i (d.srv.clientFds.getD i 0) d.srv.clientFds.length], rfl, fun fd => ?_⟩
  generalize d.srv.clientFds.getD i 0 = x at *
  rcases eq_or_ne fd x with rfl | hfd
  · simp [feedWith, feedOf, Event.fedBy, hσ, hms]
  · simp [feedWith, feedOf, Event.fedBy, hms, hfd, Ne.symm hfd]

theorem getD_mem {l : List Int} {i : Nat} (hi : i < l.length) : l.getD i 0 ∈ l :=
  List.getD_eq_getElem _ 0 hi ▸ List.getElem_mem hi

theorem serverRemoveClient_feeds {i : Nat} (hn : d.srv.clientFds.Nodup)
    (hi : i < d.srv.clientFds.length) : Feeds d (serverRemoveClient d i) := by
  have h := serverRemoveClient_feeds' _ (Feed.next_attached_removed (d.inbox (d.srv.clientFds.getD i 0)))
    hn hi
  rwa [feedWith_listed (getD_mem hi)] at h

/-! ### The broadcast and the PTY step -/

theorem broadcastLoop_feeds (f : Frame) (ok : Nat → Bool) :
    ∀ (i : Nat) (d : Daemon), d.srv.clientFds.Nodup → i ≤ d.srv.clientFds.length →
      Feeds d (broadcastLoop f ok i d)
  | 0, d, _, _ => Feeds.refl d
  | i + 1, d, hn, hi => by
    have h1 : Feeds d (d.emit (.send (d.srv.clientFds.getD i 0) f (ok i))) :=
      Feeds.emit (fun _ => by rfl) d
    simp only [broadcastLoop]
    split
    · exact h1.trans (broadcastLoop_feeds f ok i _ hn (by simp only [Daemon.emit_srv]; omega))
    · exact (h1.trans (serverRemoveClient_feeds hn hi)).trans (broadcastLoop_feeds f ok i _
        ((perm_swapRemove hi).nodup_iff.1 hn).of_cons (by simp; omega))

theorem ptyPhase_feeds (env : IterEnv) (rev : Nat → Revents) (hn : d.srv.clientFds.Nodup) :
    Feeds d (ptyPhase env rev d) := by
  have h1 : Feeds d (ptyOutput env (rev 1) d) := by
    unfold ptyOutput
    split_ifs
    · split
      · split_ifs
        · exact Feeds.refl d
        · exact (Feeds.emit (fun _ => by rfl) d).trans (broadcastLoop_feeds _ _ _ _ hn le_rfl)
      all_goals exact Feeds.refl d
    · exact Feeds.refl d
  simp only [ptyPhase]
  split_ifs
  · exact h1.trans (Feeds.refl _)
  · exact h1

/-! ### The client-input loop -/

theorem dispatch_feeds {i : Nat} (hn : d.srv.clientFds.Nodup) (hi : i < d.srv.clientFds.length)
    (f : Frame) :
    fanIn.Moves (feedWith d (d.srv.clientFds.getD i 0) (Feed.afterRecv f (d.inbox (d.srv.clientFds.getD i 0))))
      (feedOf (dispatch i (d.srv.clientFds.getD i 0) f d)) d (dispatch i (d.srv.clientFds.getD i 0) f d) := by
  have hx := getD_mem hi
  have hquiet (h1 : ¬(f.type = MSG_DATA ∧ f.payload ≠ [])) (h2 : f.type ≠ MSG_DETACH) :
      feedWith d (d.srv.clientFds.getD i 0) (Feed.afterRecv f (d.inbox (d.srv.clientFds.getD i 0))) =
        feedOf d := by
    rw [Feed.afterRecv_of_quiet h1 h2, feedWith_listed hx]
  unfold dispatch
  split_ifs with h1 h2 h3 h4 h5
  · rw [Feed.afterRecv_of_data h1 h2]
    refine ⟨[.ptyWrite (d.srv.clientFds.getD i 0) f.payload], rfl, fun y => ?_⟩
    generalize d.srv.clientFds.getD i 0 = x at *
    rcases eq_or_ne y x with rfl | hy
    · simp [feedWith, feedOf, Event.fedBy, hx]
    · simp [feedWith, feedOf, Event.fedBy, hy, Ne.symm hy]
  · rw [hquiet (fun h => h2 h.2) (by rw [h1]; decide)]
    exact Feeds.refl d
  · rw [hquiet (fun h => h1 h.1) (by rw [h3]; decide)]
    exact Feeds.emit (fun _ => by rfl) d
  · rw [hquiet (fun h => h1 h.1) (by rw [h3]; decide)]
    exact Feeds.refl d
  · rw [Feed.afterRecv_of_detach h5]
    exact serverRemoveClient_feeds' _ rfl hn hi
  · rw [hquiet (fun h => h1 h.1) h5]
    exact Feeds.refl d

theorem inputRecv_feeds {i : Nat} (hn : d.srv.clientFds.Nodup) (hi : i < d.srv.clientFds.length)
    (ok : Bool) :
    Feeds d (onRecv i (d.srv.clientFds.getD i 0) (d.recvFrame (d.srv.clientFds.getD i 0) ok)) := by
  have hx := getD_mem hi
  have hin := Daemon.recvFrame_inbox_self d (d.srv.clientFds.getD i 0) ok
  have hsrv := Daemon.recvFrame_srv d (d.srv.clientFds.getD i 0) ok
  unfold Feeds
  rw [← feedWith_listed hx]
  cases hr : (d.recvFrame (d.srv.clientFds.getD i 0) ok).1 with
  | none =>
    have h1 := recvFrame_feeds (.attached (d.inbox (d.srv.clientFds.getD i 0)))
      (.leaving (d.inbox (d.srv.clientFds.getD i 0))) (by rw [hr]; simp)
    have h2 := serverRemoveClient_feeds' (.leaving (d.inbox (d.srv.clientFds.getD i 0)))
      (d := (d.recvFrame (d.srv.clientFds.getD i 0) ok).2) rfl (by rwa [hsrv]) (by rwa [hsrv])
    rw [hsrv] at h2
    rw [onRecv_of_none hr]
    exact h1.trans h2
  | some f =>
    rw [hr, Option.toList_some, List.singleton_append] at hin
    have h1 := recvFrame_feeds (.attached (d.inbox (d.srv.clientFds.getD i 0)))
      (Feed.afterRecv f ((d.recvFrame (d.srv.clientFds.getD i 0) ok).2.inbox
        (d.srv.clientFds.getD i 0))) (by rw [hr, hin]; simp)
    have h2 := dispatch_feeds (d := (d.recvFrame (d.srv.clientFds.getD i 0) ok).2) (by rwa [hsrv])
      (by rwa [hsrv]) f
    rw [hsrv] at h2
    rw [onRecv_of_some hr]
    exact h1.trans h2

theorem inputStep_feeds (env : IterEnv) (fds : List PollFd) {i : Nat}
    (hn : d.srv.clientFds.Nodup) (hi : i < d.srv.clientFds.length) :
    Feeds d (inputStep env fds i d) := by
  have h1 : Feeds d (d.emit (.consult (2 + i) fds.length (fds[2 + i]?.map PollFd.fd)
      (d.srv.clientFds.getD i 0))) := Feeds.emit (fun _ => by rfl) d
  simp only [inputStep]
  split_ifs
  · exact h1.trans (inputRecv_feeds (d := d.emit _) hn hi _)
  · exact h1.trans (serverRemoveClient_feeds hn hi)
  · exact h1

theorem inputLoop_feeds (env : IterEnv) (fds : List PollFd) :
    ∀ (i : Nat) (d : Daemon), TableInv d → i ≤ d.srv.clientFds.length →
      Feeds d (inputLoop env fds i d)
  | 0, d, _, _ => Feeds.refl d
  | i + 1, _, h, hi =>
    have hs := inputStep_tableInv env fds h hi
    (inputStep_feeds env fds h.nodup hi).trans (inputLoop_feeds env fds i _ hs.1 hs.2)

/-! ### Admission -/

theorem accept_feeds (c : Incoming) (hc : c.fd ∉ d.srv.clientFds) :
    fanIn.Moves (feedOf d) (feedWith (d.accept c) c.fd (.handshake c.frames)) d (d.accept c) := by
  refine ⟨[.accepted c.fd c.frames], rfl, fun y => ?_⟩
  rcases eq_or_ne y c.fd with rfl | hy
  · simp [feedWith, feedOf, Event.fedBy, hc]
  · simp [feedWith, feedOf, Event.fedBy, hy, Ne.symm hy, Daemon.accept_inbox]

theorem reject_feeds {fd : Int} (σ : Feed) (hσ : σ.next .rejected = some .idle)
    (hl : fd ∉ d.srv.clientFds) :
    fanIn.Moves (feedWith d fd σ) (feedOf (d.reject fd)) d (d.reject fd) := by
  refine ⟨[.rejected fd], rfl, fun y => ?_⟩
  rcases eq_or_ne y fd with rfl | hy
  · simp [feedWith, feedOf, Event.fedBy, hσ, hl]
  · simp [feedWith, feedOf, Event.fedBy, hy, Ne.symm hy]

theorem admitClient_feeds {fd : Int} {h : Frame} (hl : fd ∉ d.srv.clientFds)
    (hh : h.type = MSG_HELLO ∧ h.payload.length = 4) (hn : d.srv.clientFds.length < MAX_CLIENTS) :
    fanIn.Moves (feedWith d fd (.hello h (d.inbox fd))) (feedOf (admitClient d fd h)) d
      (admitClient d fd h) := by
  refine ⟨[.winsize (unpackWinsize h.payload).1 (unpackWinsize h.payload).2,
    .admitted fd h d.srv.clientFds.length], by simp [admitClient], fun y => ?_⟩
  rcases eq_or_ne y fd with rfl | hy
  · simp [feedWith, feedOf, Event.fedBy, admitClient, hh, hn]
  · simp [feedWith, feedOf, Event.fedBy, admitClient, hy, Ne.symm hy]

theorem onHello_feeds {fd : Int} (hl : fd ∉ d.srv.clientFds)
    (hn : d.srv.clientFds.length < MAX_CLIENTS) (ok : Bool) :
    fanIn.Moves (feedWith d fd (.handshake (d.inbox fd))) (feedOf (onHello fd (d.recvFrame fd ok))) d
      (onHello fd (d.recvFrame fd ok)) := by
  have hin := Daemon.recvFrame_inbox_self d fd ok
  have hsrv := Daemon.recvFrame_srv d fd ok
  cases hr : (d.recvFrame fd ok).1 with
  | none =>
    have h1 := recvFrame_feeds (.handshake (d.inbox fd)) .refused (by rw [hr]; simp)
    have h2 := reject_feeds (d := (d.recvFrame fd ok).2) .refused rfl (by rwa [hsrv])
    rw [onHello_of_none hr]
    exact h1.trans h2
  | some h =>
    rw [hr, Option.toList_some, List.singleton_append] at hin
    have h1 := recvFrame_feeds (.handshake (d.inbox fd))
      (.hello h ((d.recvFrame fd ok).2.inbox fd)) (by rw [hr, hin]; simp)
    by_cases hh : h.type = MSG_HELLO ∧ h.payload.length = 4
    · have h2 := admitClient_feeds (d := (d.recvFrame fd ok).2) (by rwa [hsrv]) hh (by rwa [hsrv])
      rw [onHello_of_some hr, if_pos hh]
      exact h1.trans h2
    · have h2 := reject_feeds (d := (d.recvFrame fd ok).2)
        (.hello h ((d.recvFrame fd ok).2.inbox fd)) rfl (by rwa [hsrv])
      rw [onHello_of_some hr, if_neg hh]
      exact h1.trans h2

theorem acceptPhase_feeds (env : IterEnv) (rev : Nat → Revents) (h : TableInv d)
    (hfresh : FreshAccept env d) : Feeds d (acceptPhase env rev d) := by
  unfold acceptPhase
  split_ifs
  · split
    · exact Feeds.refl d
    · rename_i c hc
      have hl : c.fd ∉ d.srv.clientFds := fun hm => hfresh c hc (h.listed_open _ hm)
      have h1 := accept_feeds c hl
      dsimp only
      split_ifs with hn
      · exact h1.trans (reject_feeds (d := d.accept c) _ (Feed.next_handshake_rejected c.frames) hl)
      · have h2 := onHello_feeds (d := d.accept c) hl (by simpa using hn) env.helloOk
        rw [Daemon.accept_inbox_self] at h2
        exact h1.trans h2
  · exact Feeds.refl d

/-! ### Whole runs -/

theorem iteration_feeds (env : IterEnv) (h : TableInv d) (hfresh : FreshAccept env d) :
    Feeds d (iteration env d) := by
  unfold iteration
  split
  · rename_i rev _
    have h1 := acceptPhase_tableInv env rev h hfresh
    exact ((acceptPhase_feeds env rev h hfresh).trans (ptyPhase_feeds env rev h1.nodup)).trans
      (inputLoop_feeds env _ _ _ (ptyPhase_tableInv env rev h1) le_rfl)
  · exact Feeds.refl d

theorem step_feeds (h : TableInv d) (s : Step) (ha : s.Allowed d) : Feeds d (d.step s) := by
  cases s with
  | iter env => exact iteration_feeds env h ha.2
  | child ev =>
    obtain ⟨hc, -, -, -, -, -, hlog, -⟩ := step_child_eq d ev
    refine Feeds.quiet (hlog.trans (List.append_nil _).symm) (by simp) hc ?_
    simp only [Daemon.step]
    split
    · simp only [serverSigchld]
      split_ifs
      · split <;> rfl
      · rfl
    · rfl
  | sigterm => exact Feeds.refl d

theorem serverInit_feedInv (name cmd : String) (ptyMaster child listenFd created pid : Int) :
    FeedInv (serverInit name cmd ptyMaster child listenFd created pid) := fun _ => by
  simp [feedOf, serverInit]

/-- **In every reachable state every connection's observations are accepted**, and leave it
attached, with its `inbox` unread, exactly while it is listed. -/
theorem feedInv_reachable (h : Reachable d) : FeedInv d :=
  (h.induction (P := fun d => TableInv d ∧ FeedInv d)
    (fun name cmd ptyMaster child listenFd created pid hne =>
      ⟨serverInit_tableInv name cmd child created pid hne,
        serverInit_feedInv name cmd ptyMaster child listenFd created pid⟩)
    fun _ s h ha => ⟨step_tableInv h.1 s ha, Monitor.Holds.of_moves h.2 (step_feeds h.1 s ha)⟩).2

/-! ### What reaches the PTY -/

theorem writesOf_append (v w : List Fed) : writesOf (v ++ w) = writesOf v ++ writesOf w := by
  induction v with
  | nil => rfl
  | cons x v ih => cases x <;> simp [writesOf, ih]

theorem feedOf_atRest (d : Daemon) (fd : Int) : (feedOf d fd).AtRest := by
  unfold feedOf; split <;> trivial

theorem Feed.next_accepted {σ σ' : Feed} {fs : List Frame} (h : σ.next (.accepted fs) = some σ') :
    σ = .idle ∧ σ' = .handshake fs := by
  cases σ
  case idle => obtain ⟨_, ⟨⟩, rfl⟩ := Feed.next_idle_eq h; exact ⟨rfl, rfl⟩
  all_goals first | cases h | (rename_i l; cases l <;> cases h)

/-- What the connection accepted on `fd` observes on the way in, with `post` the calls after its
`accept`, up to its close. -/
def inputOf (fd : Int) (post : List Event) : List Fed := untilClosed (observe Event.fedBy fd post)

/-- What reaches the PTY from one connection, whose peer sends `frames`, with `life` its
observations up to its close. -/
structure FedExactly (frames : List Frame) (life : List Fed) : Prop where
  /-- the frames read are the first ones its peer sent, each once, in order -/
  in_order : recvdOf life <+: frames
  /-- the payloads written are the non-empty `DATA` payloads of the frames read after the first -/
  writes : writesOf life = dataPayloads (recvdOf life).tail
  /-- no frame is read after a `DETACH` -/
  detach_last : ∀ f ∈ (recvdOf life).tail.dropLast, f.type ≠ MSG_DETACH
  /-- anything written comes after a well-formed `HELLO`, admitted with fewer than `MAX_CLIENTS`
  clients attached -/
  admitted : writesOf life ≠ [] → ∃ hello n, frames.head? = some hello ∧ hello.type = MSG_HELLO ∧
    hello.payload.length = 4 ∧ n < MAX_CLIENTS ∧ Fed.admitted hello n ∈ life

/-- Fan-in over a log: each connection's life is `FedExactly`, and every write to the PTY is one
of the writes of the connection it is made for. -/
structure FanInExact (d : Daemon) : Prop where
  connections : ∀ fd frames pre post, d.log = pre ++ .accepted fd frames :: post →
    FedExactly frames (inputOf fd post)
  writes_owned : ∀ src p pre post, d.log = pre ++ .ptyWrite src p :: post →
    ∃ frames pre₁ mid, pre = pre₁ ++ .accepted src frames :: mid ∧
      p ∈ writesOf (inputOf src (mid ++ .ptyWrite src p :: post))

theorem fedExactly_of_reachable (h : Reachable d) {fd : Int} {frames : List Frame}
    {pre post : List Event} (hlog : d.log = pre ++ .accepted fd frames :: post) :
    FedExactly frames (inputOf fd post) := by
  have hrun : runSteps Feed.next .idle (observe Event.fedBy fd d.log) = some (feedOf d fd) :=
    feedInv_reachable h fd
  rw [hlog, show observe Event.fedBy fd (pre ++ .accepted fd frames :: post) =
      observe Event.fedBy fd pre ++ .accepted frames :: observe Event.fedBy fd post by
    simp [Event.fedBy], runSteps_append] at hrun
  obtain ⟨σ, -, hσ⟩ := Option.bind_eq_some.1 hrun
  obtain ⟨σ', hx, hw⟩ := Option.bind_eq_some.1 hσ
  obtain ⟨-, rfl⟩ := Feed.next_accepted hx
  obtain ⟨h1, h2, h3, h4⟩ := Feed.life_of_handshake ⟨_, hw, feedOf_atRest d fd⟩
  exact ⟨h1, h2, h3, h4⟩

theorem write_owned_of_reachable (h : Reachable d) {src : Int} {p : List UInt8}
    {pre post : List Event} (hlog : d.log = pre ++ .ptyWrite src p :: post) :
    ∃ frames pre₁ mid, pre = pre₁ ++ .accepted src frames :: mid ∧
      p ∈ writesOf (inputOf src (mid ++ .ptyWrite src p :: post)) := by
  have hrun : runSteps Feed.next .idle (observe Event.fedBy src d.log) = some (feedOf d src) :=
    feedInv_reachable h src
  rw [hlog, observe_append, runSteps_append] at hrun
  obtain ⟨σ, hpre, hσ⟩ := Option.bind_eq_some.1 hrun
  have hne : σ ≠ .idle := by
    rintro rfl
    simp only [observe_cons, Event.fedBy, if_true] at hσ
    cases hσ
  rcases Feed.last_accepted _ _ _ hpre hne with ⟨hidle, -⟩ | ⟨v₀, fs, v', hv, hu⟩
  · exact absurd rfl hidle
  obtain ⟨L₁, L₂, rfl, hL₂⟩ := observe_eq_accepted hv
  refine ⟨fs, L₁, L₂, rfl, ?_⟩
  rw [inputOf, observe_append, hL₂, untilClosed_append hu, writesOf_append]
  simp [Event.fedBy, untilClosed, writesOf]

/-- **Fan-in is exact.** In every reachable state, the frames the daemon read from a connection
are the first ones its peer sent, in order; the payloads it wrote to the PTY for it are the
non-empty `DATA` payloads among them after the first, whole, in order and each once; no frame is
read after a `DETACH` or the connection's close; anything written comes after a well-formed
`HELLO` admitted with fewer than `MAX_CLIENTS` clients attached; and every write to the PTY is
one of the writes of the connection it is made for. -/
theorem fanin_exact (h : Reachable d) : FanInExact d :=
  ⟨fun _ _ _ _ hlog => fedExactly_of_reachable h hlog,
    fun _ _ _ _ hlog => write_owned_of_reachable h hlog⟩

/-- An iteration in which `accept` returns a connection on descriptor `5` whose peer sends `HELLO`
and the `DATA` frame of `ls` and a newline. -/
def lsTypedAccept : IterEnv :=
  ⟨.ready fun j => if j = 0 then ⟨true, false, false⟩ else Revents.none,
    some ⟨5, [Msg.toFrame (.hello 80 24), ⟨MSG_DATA, [108, 115, 10]⟩]⟩, true, .eagain,
    fun _ => true, fun _ => true, Revents.none⟩

/-- An iteration in which the first client's connection is readable. -/
def lsRead : IterEnv :=
  ⟨.ready fun j => if j = 2 then ⟨true, false, false⟩ else Revents.none, none, true, .eagain,
    fun _ => true, fun _ => true, Revents.none⟩

/-- The daemon admits the connection of `lsTypedAccept`, then reads its `DATA` frame. -/
def lsTyped : Daemon :=
  ((serverInit "s" "" 4 100 3 0 50).step (.iter lsTypedAccept)).step (.iter lsRead)

theorem lsTyped_reachable : Reachable lsTyped :=
  have h : Reachable ((serverInit "s" "" 4 100 3 0 50).step (.iter lsTypedAccept)) :=
    (serverInit_reachable "s" "" 100 0 50 (by decide)).step
      ⟨rfl, fun c hc => by cases Option.some.inj hc; decide⟩
  h.step ⟨rfl, fun _ hc => nomatch hc⟩

theorem fanin_exact_lsTyped :
    Reachable lsTyped ∧
      lsTyped.log = [] ++ .accepted 5 [Msg.toFrame (.hello 80 24), ⟨MSG_DATA, [108, 115, 10]⟩] ::
        lsTyped.log.tail ∧
      writesOf (inputOf 5 lsTyped.log.tail) = [[108, 115, 10]] ∧ FanInExact lsTyped :=
  ⟨lsTyped_reachable, by decide, by decide, fanin_exact lsTyped_reachable⟩

end GhostlySession
