import GhostlySession.Server.Sends
import GhostlySession.Server.Scan
import GhostlySession.Server.Monitor

/-!
# Fan-out: what each client receives

The connection on a descriptor `fd` sees of the daemon's log its own admission, the sends to it
and its removal, and every chunk the PTY produced and the exit code broadcast at shutdown
(`view`). The automaton `Fan` reads such a view: a chunk or the exit code produced while the
client is attached makes a frame owed to it, and the next thing it sees must be the send of that
frame; a failed send must be followed by its removal; after `EXIT` nothing follows.

`Fan.run_seg` reads the frames off an accepted view: after an admission and up to the removal,
the frames sent are the `DATA` frames of the chunks produced in between, then possibly `EXIT`,
every send but the last succeeded, and without a removal the sequence is whole. The daemon's runs
are accepted (`fanInv_reachable`), so its clients receive exactly that (`fanout_exact`).
-/

namespace GhostlySession

/-! ### What a connection sees -/

/-- An event as the connection on one descriptor sees it. -/
inductive Seen
  | admitted
  | chunk (bytes : List UInt8)
  | exit (code : UInt8)
  | sent (f : Frame) (ok : Bool)
  | removed
  deriving DecidableEq, Repr

/-- What the connection on `fd` sees of an event. -/
def Event.seenBy (fd : Int) : Event → Option Seen
  | .admitted fd' _ _ => if fd' = fd then some .admitted else none
  | .ptyRead b => some (.chunk b)
  | .exitBroadcast code => some (.exit code)
  | .send fd' f ok => if fd' = fd then some (.sent f ok) else none
  | .remove _ fd' _ => if fd' = fd then some .removed else none
  | _ => none

/-- What the connection on `fd` sees of a log. -/
def view (fd : Int) (log : List Event) : List Seen := observe Event.seenBy fd log

@[simp] theorem view_nil (fd : Int) : view fd [] = [] := rfl

@[simp] theorem view_append (fd : Int) (l l' : List Event) :
    view fd (l ++ l') = view fd l ++ view fd l' := observe_append _ _ _ _

@[simp] theorem view_cons (fd : Int) (e : Event) (l : List Event) :
    view fd (e :: l) = (e.seenBy fd).toList ++ view fd l := observe_cons _ _ _ _

/-- The sends of a view, with their results. -/
def sentOf : List Seen → List (Frame × Bool)
  | [] => []
  | .sent f ok :: v => (f, ok) :: sentOf v
  | _ :: v => sentOf v

/-- The chunks of a view. -/
def chunksOf : List Seen → List (List UInt8)
  | [] => []
  | .chunk b :: v => b :: chunksOf v
  | _ :: v => chunksOf v

/-- The exit codes of a view. -/
def exitsOf : List Seen → List UInt8
  | [] => []
  | .exit e :: v => e :: exitsOf v
  | _ :: v => exitsOf v

/-- A view up to the connection's removal. -/
def untilRemoved : List Seen → List Seen
  | [] => []
  | .removed :: _ => []
  | x :: v => x :: untilRemoved v

/-- The `DATA` frame of a chunk. -/
def dataFrame (b : List UInt8) : Frame := ⟨MSG_DATA, b⟩

/-- The `EXIT` frame of an exit code. -/
def exitFrame (e : UInt8) : Frame := ⟨MSG_EXIT, [e]⟩

/-! ### The automaton -/

/-- Where a connection stands. -/
inductive Fan
  /-- not in the table -/
  | detached
  /-- in the table, owed nothing -/
  | attached
  /-- in the table, and the send of `f` is owed -/
  | owed (f : Frame)
  /-- its send failed, and its removal is owed -/
  | failed
  /-- it was sent `EXIT` -/
  | closed
  deriving DecidableEq, Repr

/-- Where a send that completed leaves the connection: `EXIT` closes it. -/
def Fan.afterSend (f : Frame) : Fan := if f.type = MSG_EXIT then .closed else .attached

/-- One event; `none` where the connection must not see it. -/
def Fan.next : Fan → Seen → Option Fan
  | .detached, .admitted => some .attached
  | .detached, .chunk _ | .detached, .exit _ => some .detached
  | .attached, .chunk b => some (.owed (dataFrame b))
  | .attached, .exit e => some (.owed (exitFrame e))
  | .attached, .removed | .failed, .removed => some .detached
  | .owed f, .sent g ok =>
    if g = f then some (if ok then Fan.afterSend f else .failed) else none
  | _, _ => none

/-- The fan-out monitor: the connection's view, read by `Fan`. -/
def fanOut : Monitor Fan Seen := ⟨Event.seenBy, Fan.next⟩

@[simp] theorem fanOut_run (fd : Int) (σ : Fan) (l : List Event) :
    fanOut.run fd σ l = runSteps Fan.next σ (view fd l) := rfl

@[simp] theorem Fan.next_detached_admitted : Fan.detached.next .admitted = some .attached := rfl

@[simp] theorem Fan.next_attached_removed : Fan.attached.next .removed = some .detached := rfl

@[simp] theorem Fan.next_failed_removed : Fan.failed.next .removed = some .detached := rfl

@[simp] theorem Fan.next_owed_sent (f g : Frame) (ok : Bool) :
    (Fan.owed f).next (.sent g ok) =
      if g = f then some (if ok then Fan.afterSend f else .failed) else none := rfl

@[simp] theorem Fan.next_closed (x : Seen) : Fan.closed.next x = none := by cases x <;> rfl

/-! ### What one event can do, from each state -/

section Inversion

variable {x : Seen} {σ : Fan}

theorem Fan.next_attached_eq (h : Fan.attached.next x = some σ) :
    (∃ b, x = .chunk b ∧ σ = .owed (dataFrame b)) ∨ (∃ e, x = .exit e ∧ σ = .owed (exitFrame e)) ∨
      (x = .removed ∧ σ = .detached) := by
  cases x <;> cases h
  exacts [.inl ⟨_, rfl, rfl⟩, .inr (.inl ⟨_, rfl, rfl⟩), .inr (.inr ⟨rfl, rfl⟩)]

theorem Fan.next_owed_eq {f : Frame} (h : (Fan.owed f).next x = some σ) :
    ∃ ok, x = .sent f ok ∧ σ = if ok then Fan.afterSend f else .failed := by
  cases x with
  | sent g ok =>
    rw [Fan.next_owed_sent] at h
    split at h
    · cases h
      exact ⟨ok, by rw [‹g = f›], rfl⟩
    · cases h
  | _ => cases h

theorem Fan.next_failed_eq (h : Fan.failed.next x = some σ) : x = .removed ∧ σ = .detached := by
  cases x <;> cases h
  exact ⟨rfl, rfl⟩

end Inversion

/-- The frame still owed in a state. -/
def Fan.pending : Fan → List Frame
  | .owed f => [f]
  | _ => []

/-- A view the automaton accepts from `σ` and that ends where nothing is owed. -/
def Fan.Ends (σ : Fan) (v : List Seen) : Prop := ∃ τ, runSteps Fan.next σ v = some τ ∧ (τ = .closed ∨ τ = .detached)

theorem mem_dropLast_cons {α : Type} {a x : α} {l : List α} (h : x ∈ (a :: l).dropLast) :
    x = a ∨ x ∈ l.dropLast := by
  cases l with
  | nil => simp at h
  | cons b l => simpa [List.dropLast_cons₂] using h

theorem Fan.ends_nil {σ : Fan} (h : Fan.Ends σ []) : σ = .closed ∨ σ = .detached := by
  obtain ⟨τ, h, hτ⟩ := h
  cases h
  exact hτ

theorem Fan.ends_next {σ : Fan} {x : Seen} {v : List Seen} (h : Fan.Ends σ (x :: v)) :
    ∃ σ', σ.next x = some σ' ∧ Fan.Ends σ' v := by
  obtain ⟨τ, h, hτ⟩ := h
  simp only [runSteps_cons] at h
  cases hx : σ.next x with
  | none => simp [hx] at h
  | some σ' => exact ⟨σ', rfl, τ, by simpa [hx] using h, hτ⟩

theorem Fan.run_closed {v : List Seen} {τ : Fan} (h : runSteps Fan.next .closed v = some τ) :
    v = [] ∧ τ = .closed := by
  cases v with
  | nil => exact ⟨rfl, (Option.some.inj h).symm⟩
  | cons x v => simp at h

theorem Fan.ends_owed_exit {f : Frame} {v : List Seen} (h : Fan.Ends (.owed f) v)
    (hf : f.type = MSG_EXIT) : ∃ ok, untilRemoved v = [.sent f ok] := by
  rcases v with _ | ⟨x, w⟩
  · exact absurd (Fan.ends_nil h) (by simp)
  obtain ⟨σ, hx, hw⟩ := Fan.ends_next h
  obtain ⟨ok, rfl, rfl⟩ := Fan.next_owed_eq hx
  refine ⟨ok, ?_⟩
  cases ok
  · simp only [Bool.false_eq_true, if_false] at hw
    rcases w with _ | ⟨y, w⟩
    · exact absurd (Fan.ends_nil hw) (by simp)
    obtain ⟨_, hy, -⟩ := Fan.ends_next hw
    obtain ⟨rfl, -⟩ := Fan.next_failed_eq hy
    rfl
  · obtain ⟨τ, hτ, -⟩ := hw
    rw [if_pos rfl, Fan.afterSend, if_pos hf] at hτ
    obtain ⟨rfl, -⟩ := Fan.run_closed hτ
    rfl

/-- **What an accepted view says about a connection.** From a state in which the connection is
in the table, up to its removal: the frames sent are the owed frame, then the `DATA` frames of the
chunks, then possibly `EXIT`; every send but the last succeeded; and when the view never removes
it, every send succeeded and the last was `EXIT`. -/
theorem Fan.run_seg : ∀ (v : List Seen) (σ : Fan), σ ≠ .detached → σ ≠ .closed → Fan.Ends σ v →
    (sentOf (untilRemoved v)).map Prod.fst =
        σ.pending ++ (chunksOf (untilRemoved v)).map dataFrame ++
          (exitsOf (untilRemoved v)).map exitFrame ∧
      (∀ x ∈ (sentOf (untilRemoved v)).dropLast, x.2 = true) ∧
      (Seen.removed ∉ v → (∀ x ∈ sentOf v, x.2 = true) ∧
        ∃ f, (sentOf v).getLast? = some (f, true) ∧ f.type = MSG_EXIT)
  | [], σ, hd, hc, h => absurd (Fan.ends_nil h) (by simp [hd, hc])
  | x :: w, σ, hd, hc, h => by
    obtain ⟨σ', hx, hw⟩ := Fan.ends_next h
    cases σ with
    | detached => exact absurd rfl hd
    | closed => exact absurd rfl hc
    | attached =>
      rcases Fan.next_attached_eq hx with ⟨b, rfl, rfl⟩ | ⟨e, rfl, rfl⟩ | ⟨rfl, -⟩
      · obtain ⟨h1, h2, h3⟩ := Fan.run_seg w (.owed (dataFrame b)) nofun nofun hw
        exact ⟨h1, h2, fun hr => h3 (hr ∘ List.mem_cons_of_mem _)⟩
      · obtain ⟨ok, hs⟩ := Fan.ends_owed_exit hw rfl
        obtain ⟨-, -, h3⟩ := Fan.run_seg w (.owed (exitFrame e)) nofun nofun hw
        refine ⟨?_, ?_, fun hr => h3 (hr ∘ List.mem_cons_of_mem _)⟩ <;>
          simp only [sentOf, hs, List.map_cons, List.map_nil, Fan.pending, chunksOf, List.append_nil,
            exitsOf, List.nil_append, List.dropLast_single, List.not_mem_nil, false_implies,
            implies_true]
      · simp only [sentOf, List.map_nil, Fan.pending, chunksOf, List.append_nil, exitsOf,
          List.dropLast_nil, List.not_mem_nil, false_implies, implies_true, List.mem_cons, true_or,
          not_true_eq_false, Prod.forall, Bool.forall_bool, Bool.false_eq_true, imp_false, and_true,
          and_self]
    | owed f =>
      obtain ⟨ok, rfl, rfl⟩ := Fan.next_owed_eq hx
      cases ok
      · simp only [Bool.false_eq_true, if_false] at hw
        rcases w with _ | ⟨y, w⟩
        · exact absurd (Fan.ends_nil hw) (by simp)
        obtain ⟨_, hy, -⟩ := Fan.ends_next hw
        obtain ⟨rfl, -⟩ := Fan.next_failed_eq hy
        simp only [sentOf, List.map_cons, List.map_nil, Fan.pending, chunksOf, List.singleton_append,
          exitsOf, List.dropLast_single, List.not_mem_nil, false_implies, implies_true, List.mem_cons,
          reduceCtorEq, true_or, or_true, not_true_eq_false, forall_eq_or_imp, Bool.false_eq_true,
          Prod.forall, Bool.forall_bool, imp_false, and_true, false_and, imp_self, and_self,
          not_false_eq_true]
      rw [if_pos rfl] at hw
      by_cases hex : f.type = MSG_EXIT
      · rw [Fan.afterSend, if_pos hex] at hw
        obtain ⟨rfl, -⟩ := Fan.run_closed hw.choose_spec.1
        simp only [sentOf, List.map_cons, List.map_nil, Fan.pending, chunksOf, List.singleton_append,
          exitsOf, List.dropLast_single, List.not_mem_nil, false_implies, implies_true,
          List.mem_singleton, reduceCtorEq, not_false_eq_true, forall_eq, List.getLast?_singleton,
          Option.some.injEq, Prod.mk.injEq, and_true, exists_eq_left', hex, and_self, imp_self]
      rw [Fan.afterSend, if_neg hex] at hw
      obtain ⟨h1, h2, h3⟩ := Fan.run_seg w .attached nofun nofun hw
      refine ⟨congrArg (f :: ·) h1, fun y hy => ?_, fun hr => ?_⟩
      · rcases mem_dropLast_cons hy with rfl | hy
        · rfl
        · exact h2 y hy
      · obtain ⟨h3a, g', hg', hgt⟩ := h3 (hr ∘ List.mem_cons_of_mem _)
        refine ⟨List.forall_mem_cons.2 ⟨rfl, h3a⟩, g', ?_, hgt⟩
        rw [sentOf, List.getLast?_cons, hg']
        rfl
    | failed =>
      obtain ⟨rfl, -⟩ := Fan.next_failed_eq hx
      simp only [sentOf, List.map_nil, Fan.pending, chunksOf, List.append_nil, exitsOf,
        List.dropLast_nil, List.not_mem_nil, false_implies, implies_true, List.mem_cons, true_or,
        not_true_eq_false, Prod.forall, Bool.forall_bool, Bool.false_eq_true, imp_false, and_true,
        and_self]

/-! ### How the daemon's operations move the connections -/

/-- The state of the connection on `fd`: `σ` while it is listed in `d`'s table, `detached`
otherwise. -/
def listed (d : Daemon) (σ : Fan) (fd : Int) : Fan := if fd ∈ d.srv.clientFds then σ else .detached

/-- Every connection's view is accepted, and leaves it attached exactly while it is listed. -/
def FanInv (d : Daemon) : Prop := fanOut.Holds .detached (listed d .attached) d

theorem listed_congr {d d' : Daemon} (h : d'.srv.clientFds = d.srv.clientFds) (σ : Fan) :
    listed d' σ = listed d σ := by
  funext fd
  simp [listed, h]

theorem mem_swapRemove {l : List Int} {i : Nat} (hi : i < l.length) (hn : l.Nodup) {fd : Int} :
    fd ∈ swapRemove l i ↔ fd ∈ l ∧ fd ≠ l.getD i 0 := by
  have hp := perm_swapRemove hi
  have hn' := List.nodup_cons.1 (hp.nodup_iff.1 hn)
  rw [hp.mem_iff, List.mem_cons]
  constructor
  · exact fun h => ⟨.inr h, fun e => hn'.1 (e ▸ h)⟩
  · rintro ⟨h | h, hne⟩
    · exact absurd h hne
    · exact h

theorem getD_not_mem_take {l : List Int} {i : Nat} (hi : i < l.length) (hn : l.Nodup) :
    l.getD i 0 ∉ l.take i := by
  rw [← List.take_append_drop i l, List.nodup_append] at hn
  rw [List.getD_eq_getElem _ 0 hi]
  exact fun hm => hn.2.2 hm (by rw [List.drop_eq_getElem_cons hi]; exact List.mem_cons_self _ _)

theorem mem_take_succ_iff {l : List Int} {i : Nat} (hi : i < l.length) {fd : Int} :
    fd ∈ l.take (i + 1) ↔ fd ∈ l.take i ∨ fd = l.getD i 0 := by
  rw [List.take_succ, List.getElem?_eq_getElem hi, List.mem_append, Option.toList_some,
    List.mem_singleton, List.getD_eq_getElem _ 0 hi]

/-! ### The broadcast -/

/-- The connections during the broadcast of `f` from `d`, with indices `i - 1` down to `0` still
to go: those are owed `f`, and the rest of the table has had its send. -/
def bcState (d : Daemon) (f : Frame) (i : Nat) (fd : Int) : Fan :=
  if fd ∈ d.srv.clientFds.take i then .owed f else listed d (Fan.afterSend f) fd

theorem broadcastLoop_moves_succ (f : Frame) (ok : Nat → Bool) {i : Nat} {d : Daemon}
    (hn : d.srv.clientFds.Nodup) (hi : i < d.srv.clientFds.length) :
    fanOut.Moves (bcState d f (i + 1))
      (bcState (if ok i then d.emit (.send (d.srv.clientFds.getD i 0) f (ok i))
        else serverRemoveClient (d.emit (.send (d.srv.clientFds.getD i 0) f (ok i))) i) f i)
      d (if ok i then d.emit (.send (d.srv.clientFds.getD i 0) f (ok i))
        else serverRemoveClient (d.emit (.send (d.srv.clientFds.getD i 0) f (ok i))) i) := by
  have hx : d.srv.clientFds.getD i 0 ∈ d.srv.clientFds :=
    List.getD_eq_getElem _ 0 hi ▸ List.getElem_mem hi
  have hxt := getD_not_mem_take hi hn
  have hmt : ∀ fd, fd ∈ d.srv.clientFds.take (i + 1) ↔ _ := fun _ => mem_take_succ_iff hi
  have hms : ∀ fd, fd ∈ swapRemove d.srv.clientFds i ↔ _ := fun _ => mem_swapRemove hi hn
  have hl := serverRemoveClient_log (d.emit (.send (d.srv.clientFds.getD i 0) f false)) i
  simp only [Daemon.emit_srv] at hl
  rw [← swapRemove_take hi] at hxt
  generalize d.srv.clientFds.getD i 0 = x at *
  cases hok : ok i
  · refine ⟨[.send x f false, .remove i x d.srv.clientFds.length],
      by simp only [Bool.false_eq_true, if_false, hl, Daemon.emit_log, List.append_assoc]; rfl,
      fun fd => ?_⟩
    rcases eq_or_ne fd x with rfl | hfd
    · simp [bcState, listed, view, Event.seenBy, hmt, hms, hxt]
    · simp [bcState, listed, view, Event.seenBy, hmt, swapRemove_take hi, hms, hfd,
        Ne.symm hfd]
  · refine ⟨[.send x f true], rfl, fun fd => ?_⟩
    rcases eq_or_ne fd x with rfl | hfd
    · simp [bcState, listed, view, Event.seenBy, hmt, swapRemove_take hi ▸ hxt, hx]
    · simp [bcState, listed, view, Event.seenBy, hmt, hfd, Ne.symm hfd]

theorem broadcastLoop_moves (f : Frame) (ok : Nat → Bool) :
    ∀ (i : Nat) (d : Daemon), d.srv.clientFds.Nodup → i ≤ d.srv.clientFds.length →
      fanOut.Moves (bcState d f i) (listed (broadcastLoop f ok i d) (Fan.afterSend f)) d
        (broadcastLoop f ok i d)
  | 0, d, _, _ => (Monitor.Moves.refl _ d).congr_right fun fd => by simp [bcState, broadcastLoop]
  | i + 1, d, hn, hi => by
    have hs := broadcastLoop_moves_succ f ok hn hi
    have hn' : (if ok i then d.emit (.send (d.srv.clientFds.getD i 0) f (ok i))
        else serverRemoveClient (d.emit (.send (d.srv.clientFds.getD i 0) f (ok i))) i).srv.clientFds.Nodup ∧
        i ≤ (if ok i then d.emit (.send (d.srv.clientFds.getD i 0) f (ok i))
        else serverRemoveClient (d.emit (.send (d.srv.clientFds.getD i 0) f (ok i))) i).srv.clientFds.length := by
      split
      · exact ⟨hn, by simp only [Daemon.emit_srv]; omega⟩
      · exact ⟨(perm_swapRemove hi).nodup_iff.1 hn |>.of_cons, by simp; omega⟩
    exact hs.trans (broadcastLoop_moves f ok i _ hn'.1 hn'.2)

/-- **`server_broadcast` sends `f` to every client once**: each listed connection, owed `f`, has
it sent, and stays listed exactly when the send completed. -/
theorem serverBroadcast_moves (f : Frame) (ok : Nat → Bool) {d : Daemon}
    (hn : d.srv.clientFds.Nodup) :
    fanOut.Moves (listed d (.owed f)) (listed (serverBroadcast f ok d) (Fan.afterSend f)) d
      (serverBroadcast f ok d) := by
  have h := broadcastLoop_moves f ok _ d hn le_rfl
  rwa [show bcState d f d.srv.clientFds.length = listed d (.owed f) from funext fun fd => by
    by_cases hfd : fd ∈ d.srv.clientFds <;> simp [bcState, listed, hfd]] at h

/-! ### The loop keeps every connection attached exactly while it is listed -/

/-- `d'` leaves every connection attached and owed nothing while it lists it, and detached
otherwise, when `d` did. -/
def Keeps (d d' : Daemon) : Prop := fanOut.Moves (listed d .attached) (listed d' .attached) d d'

namespace Keeps

variable {d₁ d₂ d₃ : Daemon}

theorem refl (d : Daemon) : Keeps d d := Monitor.Moves.refl _ d

theorem trans (h₁ : Keeps d₁ d₂) (h₂ : Keeps d₂ d₃) : Keeps d₁ d₃ := Monitor.Moves.trans h₁ h₂

theorem quiet {new : List Event} (h : d₂.log = d₁.log ++ new)
    (hq : ∀ e ∈ new, ∀ fd, e.seenBy fd = none) (hc : d₂.srv.clientFds = d₁.srv.clientFds) :
    Keeps d₁ d₂ :=
  (Monitor.Moves.quiet h hq).congr_right fun fd => by rw [listed_congr hc]

theorem emit {e : Event} (he : ∀ fd, e.seenBy fd = none) (d : Daemon) : Keeps d (d.emit e) :=
  quiet rfl (by simpa using he) rfl

end Keeps

theorem FanInv.of_keeps {d d' : Daemon} (h : FanInv d) (hk : Keeps d d') : FanInv d' :=
  h.of_moves hk

theorem Daemon.stop_keeps (d : Daemon) : Keeps d d.stop := Keeps.refl d

theorem recvFrame_keeps (d : Daemon) (fd : Int) (ok : Bool) : Keeps d (d.recvFrame fd ok).2 :=
  Keeps.quiet (Daemon.recvFrame_log d fd ok) (by simp [Event.seenBy]) (by simp)

theorem serverRemoveClient_keeps {d : Daemon} {i : Nat} (hn : d.srv.clientFds.Nodup)
    (hi : i < d.srv.clientFds.length) : Keeps d (serverRemoveClient d i) := by
  have hx : d.srv.clientFds.getD i 0 ∈ d.srv.clientFds :=
    List.getD_eq_getElem _ 0 hi ▸ List.getElem_mem hi
  have hms : ∀ fd, fd ∈ swapRemove d.srv.clientFds i ↔ _ := fun _ => mem_swapRemove hi hn
  refine ⟨[.remove i (d.srv.clientFds.getD i 0) d.srv.clientFds.length], rfl, fun fd => ?_⟩
  generalize d.srv.clientFds.getD i 0 = x at *
  rcases eq_or_ne fd x with rfl | hfd
  · simp [listed, view, Event.seenBy, hms, hx]
  · simp [listed, view, Event.seenBy, hms, hfd, Ne.symm hfd]

/-! ### The client-input loop -/

variable {d : Daemon}

theorem dispatch_keeps {i : Nat} (hn : d.srv.clientFds.Nodup) (hi : i < d.srv.clientFds.length)
    (fd : Int) (f : Frame) : Keeps d (dispatch i fd f d) := by
  unfold dispatch
  split_ifs <;> first
    | exact Keeps.emit (fun _ => by rfl) d
    | exact Keeps.refl d
    | exact serverRemoveClient_keeps hn hi

theorem onRecv_keeps {i : Nat} {fd : Int} {p : Option Frame × Daemon}
    (hn : p.2.srv.clientFds.Nodup) (hi : i < p.2.srv.clientFds.length) :
    Keeps p.2 (onRecv i fd p) := by
  obtain ⟨_ | f, d⟩ := p
  · exact serverRemoveClient_keeps hn hi
  · exact dispatch_keeps hn hi fd f

theorem inputStep_keeps (env : IterEnv) (fds : List PollFd) {i : Nat}
    (hn : d.srv.clientFds.Nodup) (hi : i < d.srv.clientFds.length) :
    Keeps d (inputStep env fds i d) := by
  have h1 : Keeps d (d.emit (.consult (2 + i) fds.length (fds[2 + i]?.map PollFd.fd)
      (d.srv.clientFds.getD i 0))) := Keeps.emit (fun _ => by rfl) d
  simp only [inputStep]
  split_ifs
  · exact (h1.trans (recvFrame_keeps _ _ _)).trans (onRecv_keeps (by simpa using hn) (by simpa using hi))
  · exact h1.trans (serverRemoveClient_keeps hn hi)
  · exact h1

theorem inputLoop_keeps (env : IterEnv) (fds : List PollFd) :
    ∀ (i : Nat) (d : Daemon), TableInv d → i ≤ d.srv.clientFds.length →
      Keeps d (inputLoop env fds i d)
  | 0, d, _, _ => Keeps.refl d
  | i + 1, _, h, hi =>
    have hs := inputStep_tableInv env fds h hi
    (inputStep_keeps env fds h.nodup hi).trans (inputLoop_keeps env fds i _ hs.1 hs.2)

/-! ### Admission -/

theorem admitClient_keeps {fd : Int} (hl : fd ∉ d.srv.clientFds) (f : Frame) :
    Keeps d (admitClient d fd f) := by
  refine ⟨[.winsize (unpackWinsize f.payload).1 (unpackWinsize f.payload).2,
    .admitted fd f d.srv.clientFds.length], by simp [admitClient], fun fd' => ?_⟩
  rcases eq_or_ne fd' fd with rfl | hfd
  · simp [admitClient, listed, view, Event.seenBy, hl]
  · simp [admitClient, listed, view, Event.seenBy, hfd, Ne.symm hfd]

theorem accept_keeps (d : Daemon) (c : Incoming) : Keeps d (d.accept c) :=
  Keeps.quiet (Daemon.accept_log d c) (by simp [Event.seenBy]) rfl

theorem reject_keeps (d : Daemon) (fd : Int) : Keeps d (d.reject fd) :=
  Keeps.quiet (Daemon.reject_log d fd) (by simp [Event.seenBy]) rfl

theorem onHello_keeps {fd : Int} {p : Option Frame × Daemon} (hl : fd ∉ p.2.srv.clientFds) :
    Keeps p.2 (onHello fd p) := by
  obtain ⟨_ | f, d⟩ := p
  · exact reject_keeps d fd
  · simp only [onHello]
    split_ifs
    · exact admitClient_keeps hl f
    · exact reject_keeps d fd

theorem acceptPhase_keeps (env : IterEnv) (rev : Nat → Revents) (h : TableInv d)
    (hfresh : FreshAccept env d) : Keeps d (acceptPhase env rev d) := by
  unfold acceptPhase
  split_ifs
  · split
    · exact Keeps.refl d
    · rename_i c hc
      have hl : c.fd ∉ d.srv.clientFds := fun hm => hfresh c hc (h.listed_open _ hm)
      dsimp only
      split_ifs
      · exact (accept_keeps d c).trans (reject_keeps _ _)
      · exact ((accept_keeps d c).trans (recvFrame_keeps _ _ _)).trans (onHello_keeps (by simpa using hl))
  · exact Keeps.refl d

/-! ### The PTY read and its broadcast -/

theorem emit_owes {e : Event} {x : Seen} {g : Frame} (hx : ∀ fd, e.seenBy fd = some x)
    (ha : Fan.attached.next x = some (.owed g)) (hd : Fan.detached.next x = some .detached)
    (d : Daemon) : fanOut.Moves (listed d .attached) (listed (d.emit e) (.owed g)) d (d.emit e) :=
  ⟨[e], rfl, fun fd => by
    by_cases h : fd ∈ d.srv.clientFds <;> simp [view, hx, listed, h, ha, hd]⟩

theorem ptyOutput_keeps (env : IterEnv) (r : Revents) (hn : d.srv.clientFds.Nodup) :
    Keeps d (ptyOutput env r d) := by
  unfold ptyOutput
  split_ifs
  · split
    · split_ifs
      · exact Daemon.stop_keeps d
      · rename_i avail _ _
        have h := (emit_owes (e := .ptyRead (avail.take BUF_SIZE)) (fun _ => rfl) rfl rfl d).trans
          (serverBroadcast_moves (dataFrame (avail.take BUF_SIZE)) env.sendOk hn)
        rwa [show Fan.afterSend (dataFrame (avail.take BUF_SIZE)) = .attached by
          simp [Fan.afterSend, dataFrame, MSG_DATA, MSG_EXIT]] at h
    all_goals exact Keeps.refl d
  · exact Keeps.refl d

theorem ptyPhase_keeps (env : IterEnv) (rev : Nat → Revents) (hn : d.srv.clientFds.Nodup) :
    Keeps d (ptyPhase env rev d) := by
  simp only [ptyPhase]
  split_ifs
  · exact (ptyOutput_keeps env _ hn).trans (Daemon.stop_keeps _)
  · exact ptyOutput_keeps env _ hn

/-! ### Whole runs -/

theorem iteration_keeps (env : IterEnv) (h : TableInv d) (hfresh : FreshAccept env d) :
    Keeps d (iteration env d) := by
  unfold iteration
  split
  · rename_i rev _
    have h1 := acceptPhase_tableInv env rev h hfresh
    exact ((acceptPhase_keeps env _ h hfresh).trans (ptyPhase_keeps env _ h1.nodup)).trans
      (inputLoop_keeps env _ _ _ (ptyPhase_tableInv env _ h1) le_rfl)
  · exact Keeps.refl d

theorem step_keeps (h : TableInv d) (s : Step) (ha : s.Allowed d) : Keeps d (d.step s) := by
  cases s with
  | iter env => exact iteration_keeps env h ha.2
  | child ev =>
    obtain ⟨hc, -, -, -, -, -, hlog, -⟩ := step_child_eq d ev
    exact Keeps.quiet (hlog.trans (List.append_nil _).symm) (by simp) hc
  | sigterm => exact Daemon.stop_keeps d

theorem serverInit_fanInv (name cmd : String) (ptyMaster child listenFd created pid : Int) :
    FanInv (serverInit name cmd ptyMaster child listenFd created pid) := fun _ => by
  simp [listed, serverInit, view]

/-- **In every reachable state every connection's view is accepted**, and leaves it attached and
owed nothing exactly while it is listed. -/
theorem fanInv_reachable (h : Reachable d) : FanInv d :=
  (h.induction (P := fun d => TableInv d ∧ FanInv d)
    (fun name cmd ptyMaster child listenFd created pid hne =>
      ⟨serverInit_tableInv name cmd child created pid hne,
        serverInit_fanInv name cmd ptyMaster child listenFd created pid⟩)
    fun _ s h ha => ⟨step_tableInv h.1 s ha, h.2.of_keeps (step_keeps h.1 s ha)⟩).2

/-! ### Shutdown, and what each client receives -/

theorem Fan.afterSend_exitFrame (e : UInt8) : Fan.afterSend (exitFrame e) = .closed := if_pos rfl

theorem exitBroadcast_moves (ok : Nat → Bool) (hn : d.srv.clientFds.Nodup) :
    fanOut.Moves (listed d .attached) (listed (exitBroadcast ok d) .closed) d (exitBroadcast ok d) := by
  have h := (emit_owes (e := .exitBroadcast (exitByte d.srv.childExitCode)) (fun _ => rfl) rfl rfl
    d).trans (serverBroadcast_moves (exitFrame (exitByte d.srv.childExitCode)) ok hn)
  rwa [Fan.afterSend_exitFrame] at h

theorem exitBroadcast_view (h : Reachable d) (s : Shutdown) (ok : Nat → Bool) (fd : Int) :
    runSteps Fan.next .detached (view fd (exitBroadcast ok (d.afterKill s)).log) =
      some (listed (exitBroadcast ok (d.afterKill s)) .closed fd) := by
  have hf := fanInv_reachable h
  have hf : FanInv (d.afterKill s) := hf
  exact Monitor.Holds.of_moves hf (exitBroadcast_moves ok (tableInv_reachable h).nodup) fd

theorem exitsOf_append (v w : List Seen) : exitsOf (v ++ w) = exitsOf v ++ exitsOf w := by
  induction v with
  | nil => rfl
  | cons x v ih => cases x <;> simp [exitsOf, ih]

theorem exitsOf_untilRemoved_sublist (v : List Seen) :
    (exitsOf (untilRemoved v)).Sublist (exitsOf v) := by
  induction v with
  | nil => exact List.Sublist.slnil
  | cons x v ih => cases x <;> simp [untilRemoved, exitsOf, ih]

theorem untilRemoved_eq_self {v : List Seen} (h : Seen.removed ∉ v) : untilRemoved v = v := by
  induction v with
  | nil => rfl
  | cons x v ih =>
    rw [List.mem_cons, not_or] at h
    cases x <;> simp_all [untilRemoved]

theorem exitsOf_view_eq_nil {fd : Int} {L : List Event} (h : ∀ e ∈ L, ∀ c, e ≠ .exitBroadcast c) :
    exitsOf (view fd L) = [] := by
  induction L with
  | nil => rfl
  | cons e L ih =>
    rw [view_cons, exitsOf_append, ih fun e' he' => h e' (List.mem_cons_of_mem _ he')]
    have he := h e (List.mem_cons_self _ _)
    cases e <;> simp only [Event.seenBy] <;> (try split_ifs) <;> first | rfl | exact absurd rfl (he _)

theorem exitBroadcast_log (ok : Nat → Bool) (d : Daemon) :
    ∃ rest, (exitBroadcast ok d).log = d.log ++ .exitBroadcast (exitByte d.srv.childExitCode) :: rest ∧
      ∀ e ∈ rest, ∀ c, e ≠ .exitBroadcast c := by
  have hA : Appends (Event.SendsFrame ⟨MSG_EXIT, [exitByte d.srv.childExitCode]⟩)
      (d.emit (.exitBroadcast (exitByte d.srv.childExitCode))) (exitBroadcast ok d) :=
    broadcastLoop_appends _ _ _ _
  obtain ⟨rest, hr, hrest⟩ := hA
  exact ⟨rest, by simp [hr], fun e he => (hrest e he).2⟩

theorem exitBroadcast_exits (h : Reachable d) (s : Shutdown) (ok : Nat → Bool) (fd : Int) :
    exitsOf (view fd (exitBroadcast ok (d.afterKill s)).log) = [exitByte s.exitCode] := by
  obtain ⟨rest, hr, hrest⟩ := exitBroadcast_log ok (d.afterKill s)
  have hd : exitsOf (view fd (d.afterKill s).log) = [] :=
    exitsOf_view_eq_nil fun e he => (sends_data_reachable h e he).2
  rw [hr, view_append, view_cons, exitsOf_append, exitsOf_append, hd, exitsOf_view_eq_nil hrest]
  rfl

/-- What the connection admitted on `fd`, with `post` the calls after its admission, sees up to
its removal. -/
def lifeOf (fd : Int) (post : List Event) : List Seen := untilRemoved (view fd post)

theorem Fan.ends_after_admitted {v w : List Seen} {τ : Fan}
    (h : runSteps Fan.next .detached (v ++ .admitted :: w) = some τ) (hτ : τ = .closed ∨ τ = .detached) :
    Fan.Ends .attached w := by
  rw [runSteps_append] at h
  obtain ⟨σ, -, h⟩ := Option.bind_eq_some.1 h
  cases σ with
  | detached => exact ⟨τ, h, hτ⟩
  | _ => cases h

/-- **Fan-out is exact.** In a run that ends with the `EXIT` broadcast, the client admitted on
`fd` is sent, up to its removal, the `DATA` frames of the chunks the PTY produced while it was
listed, in order, then the `EXIT` frame of the exit code if it is still listed at shutdown; every
send but the last completed; and a client that is never removed receives all of them, ending with
`EXIT`. -/
theorem fanout_exact (h : Reachable d) (s : Shutdown) (ok : Nat → Bool) {fd : Int}
    {hello : Frame} {n : Nat} {pre post : List Event}
    (hlog : (exitBroadcast ok (d.afterKill s)).log = pre ++ .admitted fd hello n :: post) :
    (sentOf (lifeOf fd post)).map Prod.fst =
        (chunksOf (lifeOf fd post)).map dataFrame ++ (exitsOf (lifeOf fd post)).map exitFrame ∧
      (exitsOf (lifeOf fd post)).Sublist [exitByte s.exitCode] ∧
      (∀ x ∈ (sentOf (lifeOf fd post)).dropLast, x.2 = true) ∧
      (Seen.removed ∉ view fd post →
        (∀ x ∈ sentOf (lifeOf fd post), x.2 = true) ∧
          exitsOf (lifeOf fd post) = [exitByte s.exitCode]) := by
  have hv : view fd (pre ++ .admitted fd hello n :: post) = view fd pre ++ .admitted :: view fd post :=
    by simp [view, Event.seenBy]
  have hrun := exitBroadcast_view h s ok fd
  have hex := exitBroadcast_exits h s ok fd
  rw [hlog, hv] at hrun hex
  have hτ : listed (exitBroadcast ok (d.afterKill s)) .closed fd = .closed ∨
      listed (exitBroadcast ok (d.afterKill s)) .closed fd = .detached := by
    unfold listed; split <;> simp
  obtain ⟨h1, h2, h3⟩ := Fan.run_seg _ _ (by simp) (by simp) (Fan.ends_after_admitted hrun hτ)
  have hsub : (exitsOf (lifeOf fd post)).Sublist [exitByte s.exitCode] :=
    (exitsOf_untilRemoved_sublist _).trans
      (hex ▸ by rw [exitsOf_append]; exact List.sublist_append_right _ _)
  refine ⟨by simpa [Fan.pending] using h1, hsub, h2, fun hr => ?_⟩
  obtain ⟨hok, f, hlast, hf⟩ := h3 hr
  rw [lifeOf] at hsub ⊢
  rw [untilRemoved_eq_self hr] at h1 hsub ⊢
  refine ⟨hok, (List.sublist_singleton.1 hsub).resolve_left fun hnil => ?_⟩
  have hmem : f ∈ (sentOf (view fd post)).map Prod.fst :=
    List.mem_map_of_mem _ (List.mem_of_getLast?_eq_some hlast)
  rw [h1, hnil] at hmem
  obtain ⟨b, -, rfl⟩ := List.mem_map.1 (by simpa [Fan.pending] using hmem)
  exact absurd hf (show MSG_DATA ≠ MSG_EXIT by decide)

/-- An iteration in which the PTY prints `hi`. -/
def ptyHi : IterEnv :=
  ⟨.ready fun j => if j = 1 then ⟨true, false, false⟩ else Revents.none, none, true,
    .bytes [104, 105], fun _ => true, fun _ => true, Revents.none⟩

/-- The daemon that admitted its first client sends it the PTY's `hi`. -/
def hiSession : Daemon := oneClient.step (.iter ptyHi)

/-- What follows the first client's admission in the run of `hiSession` to the end of its `EXIT`
broadcast, with exit code `7`. -/
def hiAfterAdmission : List Event :=
  [.consult 2 2 none 5, .ptyRead [104, 105], .send 5 ⟨MSG_DATA, [104, 105]⟩ true,
    .consult 2 3 (some 5) 5, .exitBroadcast 7, .send 5 ⟨MSG_EXIT, [7]⟩ true]

theorem hiSession_reachable : Reachable hiSession :=
  oneClient_reachable.step ⟨rfl, fun _ hc => nomatch hc⟩

theorem fanout_exact_hiSession :
    Reachable hiSession ∧
      (exitBroadcast (fun _ => true) (hiSession.afterKill (Shutdown.start 100 7 .running))).log =
        [.accepted 5 [⟨MSG_HELLO, [0, 80, 0, 24]⟩], .recv 5 (some ⟨MSG_HELLO, [0, 80, 0, 24]⟩),
          .winsize 80 24] ++ .admitted 5 ⟨MSG_HELLO, [0, 80, 0, 24]⟩ 0 :: hiAfterAdmission ∧
      (sentOf (lifeOf 5 hiAfterAdmission)).map Prod.fst = [⟨MSG_DATA, [104, 105]⟩, ⟨MSG_EXIT, [7]⟩] ∧
      ((sentOf (lifeOf 5 hiAfterAdmission)).map Prod.fst =
          (chunksOf (lifeOf 5 hiAfterAdmission)).map dataFrame ++
            (exitsOf (lifeOf 5 hiAfterAdmission)).map exitFrame ∧
        (exitsOf (lifeOf 5 hiAfterAdmission)).Sublist
          [exitByte (Shutdown.start 100 7 .running).exitCode] ∧
        (∀ x ∈ (sentOf (lifeOf 5 hiAfterAdmission)).dropLast, x.2 = true) ∧
        (Seen.removed ∉ view 5 hiAfterAdmission →
          (∀ x ∈ sentOf (lifeOf 5 hiAfterAdmission), x.2 = true) ∧
            exitsOf (lifeOf 5 hiAfterAdmission) = [exitByte (Shutdown.start 100 7 .running).exitCode])) := by
  have hlog : (exitBroadcast (fun _ => true) (hiSession.afterKill (Shutdown.start 100 7 .running))).log =
      [.accepted 5 [⟨MSG_HELLO, [0, 80, 0, 24]⟩], .recv 5 (some ⟨MSG_HELLO, [0, 80, 0, 24]⟩),
        .winsize 80 24] ++ .admitted 5 ⟨MSG_HELLO, [0, 80, 0, 24]⟩ 0 :: hiAfterAdmission := by decide
  exact ⟨hiSession_reachable, hlog, by decide, fanout_exact hiSession_reachable _ _ hlog⟩

end GhostlySession
