import GhostlySession.Server.State

/-!
# Per-connection monitors over the daemon's log

Fan-out and fan-in are properties of one client connection at a time. A `Monitor` says what the
connection on a descriptor observes of each call in the log (`observe`) and gives an automaton with
partial steps over those observations (`runSteps`); a log is admissible for the connection when the
automaton accepts what it observes.

An operation `Moves` the connections from states `σ` to states `σ'` when the calls it appends take
each connection's automaton from `σ fd` to `σ' fd`. Moves compose (`Moves.trans`), so an invariant
of the form "every connection's observations are accepted and end in a state read off the daemon"
(`Monitor.Holds`) is proved once per operation of the loop and carried over whole runs
(`Monitor.Holds.of_moves`).
-/

namespace GhostlySession

variable {S O : Type}

/-- An automaton with partial steps, run over a list of observations. -/
def runSteps (next : S → O → Option S) : S → List O → Option S
  | σ, [] => some σ
  | σ, x :: xs => (next σ x).bind (runSteps next · xs)

@[simp] theorem runSteps_nil (next : S → O → Option S) (σ : S) : runSteps next σ [] = some σ := rfl

@[simp] theorem runSteps_cons (next : S → O → Option S) (σ : S) (x : O) (xs : List O) :
    runSteps next σ (x :: xs) = (next σ x).bind (runSteps next · xs) := rfl

theorem runSteps_append (next : S → O → Option S) (σ : S) (v w : List O) :
    runSteps next σ (v ++ w) = (runSteps next σ v).bind (runSteps next · w) := by
  induction v generalizing σ with
  | nil => rfl
  | cons x v ih => cases h : next σ x <;> simp [h, ih]

/-- What the connection on `fd` observes of a log, through `see`. -/
def observe (see : Int → Event → Option O) (fd : Int) (log : List Event) : List O :=
  log.filterMap (see fd)

@[simp] theorem observe_nil (see : Int → Event → Option O) (fd : Int) : observe see fd [] = [] := rfl

@[simp] theorem observe_cons (see : Int → Event → Option O) (fd : Int) (e : Event) (l : List Event) :
    observe see fd (e :: l) = (see fd e).toList ++ observe see fd l := by
  simp only [observe, List.filterMap_cons]
  cases see fd e <;> rfl

@[simp] theorem observe_append (see : Int → Event → Option O) (fd : Int) (l l' : List Event) :
    observe see fd (l ++ l') = observe see fd l ++ observe see fd l' := List.filterMap_append _ _ _

/-- A per-connection monitor: what a connection observes of a call, and the automaton reading the
observations. -/
structure Monitor (S O : Type) where
  see : Int → Event → Option O
  next : S → O → Option S

namespace Monitor

variable (M : Monitor S O)

/-- The connection on `fd` from state `σ`, through the calls `l`. -/
def run (fd : Int) (σ : S) (l : List Event) : Option S := runSteps M.next σ (observe M.see fd l)

theorem run_append (fd : Int) (σ : S) (l l' : List Event) :
    M.run fd σ (l ++ l') = (M.run fd σ l).bind (M.run fd · l') := by
  simp only [run, observe_append, runSteps_append]

/-- Every connection's observations of `d`'s log are accepted from `σ₀`, and leave it in `σ fd`. -/
def Holds (σ₀ : S) (σ : Int → S) (d : Daemon) : Prop := ∀ fd, M.run fd σ₀ d.log = some (σ fd)

/-- `d'` appends calls to `d`'s log that move every connection from `σ fd` to `σ' fd`. -/
def Moves (σ σ' : Int → S) (d d' : Daemon) : Prop :=
  ∃ new, d'.log = d.log ++ new ∧ ∀ fd, M.run fd (σ fd) new = some (σ' fd)

variable {M} {σ₁ σ₂ σ₃ : Int → S} {d₁ d₂ d₃ : Daemon}

theorem Moves.refl (σ : Int → S) (d : Daemon) : M.Moves σ σ d d := ⟨[], by simp, fun _ => rfl⟩

theorem Moves.trans (h₁ : M.Moves σ₁ σ₂ d₁ d₂) (h₂ : M.Moves σ₂ σ₃ d₂ d₃) : M.Moves σ₁ σ₃ d₁ d₃ := by
  obtain ⟨n₁, e₁, p₁⟩ := h₁
  obtain ⟨n₂, e₂, p₂⟩ := h₂
  exact ⟨n₁ ++ n₂, by rw [e₂, e₁, List.append_assoc], fun fd => by
    rw [run_append, p₁, Option.some_bind, p₂]⟩

theorem Moves.quiet {σ : Int → S} {new : List Event} (h : d₂.log = d₁.log ++ new)
    (hq : ∀ e ∈ new, ∀ fd, M.see fd e = none) : M.Moves σ σ d₁ d₂ :=
  ⟨new, h, fun fd => by
    rw [run, show observe M.see fd new = [] from List.filterMap_eq_nil_iff.2 fun e he => hq e he fd]
    rfl⟩

theorem Moves.congr_right (h : M.Moves σ₁ σ₂ d₁ d₂) (he : ∀ fd, σ₂ fd = σ₃ fd) :
    M.Moves σ₁ σ₃ d₁ d₂ :=
  let ⟨n, e, p⟩ := h
  ⟨n, e, fun fd => (p fd).trans (congrArg some (he fd))⟩

theorem Holds.of_moves {σ₀ : S} (h : M.Holds σ₀ σ₁ d₁) (hm : M.Moves σ₁ σ₂ d₁ d₂) :
    M.Holds σ₀ σ₂ d₂ := by
  obtain ⟨new, e, p⟩ := hm
  intro fd
  rw [e, run_append, h fd, Option.some_bind, p fd]

end Monitor

end GhostlySession
