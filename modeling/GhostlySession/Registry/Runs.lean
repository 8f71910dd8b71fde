import GhostlySession.Registry

/-!
# The registry over whole runs

The registry model runs the commands and the daemons of one name step by step, in any
interleaving. Over whole runs:

* `commands_wait_free`: no command ever waits for another process, and none takes more than 33
  steps, whatever runs beside it. Each step of a command lowers the rank of its own entry
  (`World.invStep_cases`, `Inv.rank`) and no other step touches that entry (`World.step_budget`);
  the bound is `cmd_open`'s when a daemon binds while it cleans up: its own check and cleanup,
  then `cmd_create`'s, the fork, and the parent's twenty polls for `N.sock`.
* `orphan_forever`: a daemon binds `N.sock` once, in its start-up, so once it has bound and
  `N.sock` is no longer bound to it, no schedule binds the socket to it again
  (`World.run_orphaned`); the first daemon of `registry_race` stays unreachable.
* `sequential_registry`: used one thing at a time (`World.use`: a command run alone to its end,
  then the start-up of the daemon it forked; or a daemon's shutdown), the registry keeps the
  invariant `RegistryOk` that `registry_race` breaks, and refines the atomic `Registry`: at most
  one live session, started by `cmd_create` or `cmd_open` only when there is none, ended by
  `cmd_kill` or its daemon's exit. A command's steps touch only its own entry
  (`World.invStep_last`), so each use is computed from the files and the daemons alone
  (`World.alone_live`, `World.alone_fork`, `World.alone_kill_live`, `World.startup`), and one use
  keeps the world `Settled` (`Settled.use`).
-/

namespace GhostlySession

/-! ### Every command finishes, whatever runs beside it -/

/-- The steps a command has left once `cleanup_session_files` is done: the fork and the polls for
`cmd_create`, all of `cmd_create` for `cmd_open`. -/
def Command.afterCleanRank : Command → Nat
  | .cmdCreate => 21
  | .cmdOpen => 27
  | _ => 0

/-- The most steps a command has left at its probe of the pid. -/
def Command.probeRank : Command → Nat
  | .cmdCreate => 25
  | .cmdOpen => 31
  | .cmdKill => 16
  | .enumerateSessions => 4

/-- The most steps a command at `pc` has left. -/
def Inv.rank : Inv → Nat
  | .check c => c.probeRank + 2
  | .readPid c => c.probeRank + 1
  | .probe c _ => c.probeRank
  | .clean c k => 2 - k + 1 + c.afterCleanRank
  | .fork => 21
  | .poll n => 19 - n + 1
  | .term _ => 15
  | .wait _ n => 9 - n + 5
  | .nine _ => 4
  | .done => 0

/-- **What one step of a command does to the commands in progress**: it moves its own entry to
one of lower rank and leaves the others. -/
theorem World.invStep_cases {w w' : World} {i : Nat} (h : w.invStep i = some w') :
    ∃ pc pc', w.invs[i]? = some pc ∧ w'.invs = w.invs.set i pc' ∧ pc'.rank < pc.rank := by
  cases hpc : w.invs[i]? with
  | none => simp only [World.invStep, hpc] at h; cases h
  | some pc =>
    refine ⟨pc, ?_⟩
    cases pc <;> simp only [World.invStep, hpc, Option.some.injEq, reduceCtorEq] at h <;> subst h <;>
      refine ⟨_, rfl, rfl, ?_⟩
    case check c =>
      split_ifs
      · simp only [Inv.rank]; omega
      · cases c <;> decide
    case probe c p => split_ifs <;> cases c <;> simp only [Inv.rank, World.onLive] <;> decide
    case clean c k =>
      split_ifs
      · simp only [Inv.rank]; omega
      · cases c <;> simp only [Inv.rank, World.afterClean, Command.afterCleanRank,
          Command.probeRank] <;> omega
    case wait p n => split_ifs <;> simp only [Inv.rank, Command.afterCleanRank] <;> omega
    case poll n => split_ifs <;> simp only [Inv.rank] <;> omega
    all_goals simp only [Inv.rank, Command.afterCleanRank]; omega

theorem World.daemonStep_invs {w w' : World} {k : Nat} (h : w.daemonStep k = some w') :
    w'.invs = w.invs := by
  unfold World.daemonStep at h
  split at h <;> (try split at h) <;> cases h <;> rfl

/-- Has bound its listening socket, or exited. -/
def DaemonPc.pastBind : DaemonPc → Bool
  | .start | .unlinked => false
  | _ => true

/-- Daemon `k` has passed its `bind`, and `N.sock` is not bound to it. -/
def World.Orphaned (w : World) (k : Nat) : Prop :=
  w.daemons[k]?.any DaemonPc.pastBind = true ∧ w.files.sock ≠ some (k + 1)

instance (w : World) (k : Nat) : Decidable (w.Orphaned k) :=
  inferInstanceAs (Decidable (_ ∧ _))

theorem World.sigterm_pastBind (pc : DaemonPc) : (World.sigterm pc).pastBind = true := by
  cases pc <;> rfl

theorem SessionFiles.unlink_sock (fs : SessionFiles) (j : Nat) :
    (fs.unlink j).sock = fs.sock ∨ (fs.unlink j).sock = none := by
  match j with
  | 0 => exact .inr rfl
  | 1 => exact .inl rfl
  | _ + 2 => exact .inl rfl

theorem any_pastBind_set {d : List DaemonPc} {j k : Nat} {pc : DaemonPc}
    (hpc : pc.pastBind = true ∨ j ≠ k) (h : d[k]?.any DaemonPc.pastBind = true) :
    (d.set j pc)[k]?.any DaemonPc.pastBind = true := by
  rw [List.getElem?_set]
  split_ifs with e hlt
  · subst e
    exact hpc.resolve_right (· rfl)
  · rw [List.getElem?_eq_none (by omega)] at h; cases h
  · exact h

theorem any_pastBind_modify {d : List DaemonPc} {n k : Nat} {f : DaemonPc → DaemonPc}
    (hf : ∀ pc, (f pc).pastBind = true) (h : d[k]?.any DaemonPc.pastBind = true) :
    (d.modify f n)[k]?.any DaemonPc.pastBind = true := by
  rw [List.getElem?_modify]
  cases hk : d[k]? with
  | none => rw [hk] at h; cases h
  | some pc =>
    rw [hk] at h
    simp only [Option.map_eq_map, Option.map_some', Option.any_some]
    split_ifs
    exacts [hf pc, h]

theorem World.Orphaned.mono {w w' : World} {k : Nat} (ho : w.Orphaned k)
    (hd : w.daemons[k]?.any DaemonPc.pastBind = true →
      w'.daemons[k]?.any DaemonPc.pastBind = true)
    (hs : w'.files.sock = w.files.sock ∨ w'.files.sock = none) : w'.Orphaned k := by
  refine ⟨hd ho.1, ?_⟩
  rcases hs with hs | hs <;> rw [hs]
  exacts [ho.2, nofun]

theorem World.invStep_orphaned {w w' : World} {i k : Nat} (h : w.invStep i = some w')
    (ho : w.Orphaned k) : w'.Orphaned k := by
  cases hpc : w.invs[i]? with
  | none => simp only [World.invStep, hpc] at h; cases h
  | some pc =>
    cases pc <;> simp only [World.invStep, hpc, Option.some.injEq, reduceCtorEq] at h <;> subst h
    case clean c j => exact ho.mono id (SessionFiles.unlink_sock _ _)
    case fork =>
      refine ho.mono (fun hk => ?_) (.inl rfl)
      have : k < w.daemons.length := by
        by_contra hn
        rw [List.getElem?_eq_none (by omega)] at hk
        cases hk
      rwa [List.getElem?_append_left this]
    case term p => exact ho.mono (any_pastBind_modify World.sigterm_pastBind) (.inl rfl)
    case nine p => exact ho.mono (any_pastBind_modify fun _ => rfl) (.inl rfl)
    all_goals exact ho

theorem World.daemonStep_orphaned {w w' : World} {j k : Nat} (h : w.daemonStep j = some w')
    (ho : w.Orphaned k) : w'.Orphaned k := by
  cases hd : w.daemons[j]? with
  | none => simp only [World.daemonStep, hd] at h; cases h
  | some pc =>
    have hne : pc.pastBind = false → j ≠ k := fun hpc e => by
      have := ho.1
      rw [← e, hd, Option.any_some, hpc] at this
      cases this
    cases pc <;> simp only [World.daemonStep, hd, Option.some.injEq, reduceCtorEq] at h
    case start =>
      subst h
      exact ho.mono (any_pastBind_set (.inr (hne rfl))) (.inr rfl)
    case unlinked =>
      split_ifs at h <;> cases h
      · refine ⟨any_pastBind_set (.inr (hne rfl)) ho.1, ?_⟩
        exact fun e => hne rfl (Nat.succ.inj (Option.some.inj e))
      · exact ho.mono (any_pastBind_set (.inr (hne rfl))) (.inl rfl)
    case cleanup j' =>
      subst h
      exact ho.mono (any_pastBind_set (.inl (by split_ifs <;> rfl))) (SessionFiles.unlink_sock _ _)
    all_goals subst h; exact ho.mono (any_pastBind_set (.inl rfl)) (.inl rfl)

theorem World.run_orphaned : ∀ {w w' : World} {ls : List Label} {k : Nat}, w.Orphaned k →
    w.run ls = some w' → w'.Orphaned k
  | _, _, [], _, ho, h => by cases h; exact ho
  | w, w', l :: ls, k, ho, h => by
    obtain ⟨v, hv, hrest⟩ := Option.bind_eq_some.1 h
    refine World.run_orphaned ?_ hrest
    cases l with
    | spawn c => cases hv; exact ho
    | inv i => exact World.invStep_orphaned hv ho
    | daemon j => exact World.daemonStep_orphaned hv ho

/-- **A daemon that has lost `N.sock` never gets it back.** Once daemon `k` has passed its `bind`
and `N.sock` is not bound to it (another daemon's `create_listen_socket` unlinked and rebound the
path, or a cleanup removed it), no schedule binds `N.sock` to it again: for the rest of its life
no client can reach it. -/
theorem orphan_forever {w w' : World} {k : Nat} {ls : List Label} (ho : w.Orphaned k)
    (h : w.run ls = some w') : w'.files.sock ≠ some (k + 1) :=
  (World.run_orphaned ho h).2

/-- After `raceSchedule` the first daemon is orphaned, and stays so when the second one exits and
removes the files. -/
theorem orphan_forever_after_race :
    (⟨⟨some 2, some 2, some 2⟩, [.serving, .serving], [.done, .done]⟩ : World).Orphaned 0 ∧
      (⟨⟨some 2, some 2, some 2⟩, [.serving, .serving], [.done, .done]⟩ : World).run
          [.daemon 1, .daemon 1, .daemon 1, .daemon 1] =
        some ⟨⟨none, none, none⟩, [.serving, .dead], [.done, .done]⟩ ∧
      (⟨⟨none, none, none⟩, [.serving, .dead], [.done, .done]⟩ : World).files.sock ≠ some (0 + 1) :=
  have ho : (⟨⟨some 2, some 2, some 2⟩, [.serving, .serving], [.done, .done]⟩ : World).Orphaned 0 := by
    decide
  have h : (⟨⟨some 2, some 2, some 2⟩, [.serving, .serving], [.done, .done]⟩ : World).run
      [.daemon 1, .daemon 1, .daemon 1, .daemon 1] =
      some ⟨⟨none, none, none⟩, [.serving, .dead], [.done, .done]⟩ := by decide
  ⟨ho, h, orphan_forever ho h⟩

/-! ### One command at a time -/

/-- The label `l` taken again and again until it cannot move, at most `n` times. -/
def World.repeat (w : World) (l : Label) : Nat → World
  | 0 => w
  | n + 1 => match w.step l with
    | some w' => w'.repeat l n
    | none => w

/-- What users do with the registry, one thing at a time. -/
inductive Use
  /-- a user runs a command, which runs to its end with nothing else moving; then the daemon it
  forked, if any, starts up -/
  | command (c : Command)
  /-- the loop of daemon `k` ends, and its shutdown runs to its end -/
  | exit (k : Nat)
  deriving DecidableEq, Repr

/-- A use run alone: a command's steps are at most 33 (`commands_wait_free`), a daemon's start-up
and its shutdown 4 each. -/
def World.use (w : World) : Use → World
  | .command c =>
    (({ w with invs := w.invs ++ [c.start] } : World).repeat (.inv w.invs.length) 33).repeat
      (.daemon w.daemons.length) 4
  | .exit k => w.repeat (.daemon k) 4

/-- The session a user finds under the name: `N.sock` is there, and the pid in `N.pid` is
alive. -/
def World.live (w : World) : Option Nat :=
  if w.files.sock.isSome then w.files.pid.filter w.alive else none

/-- The registry as its users see it: the live session under the name, if any, and how many
daemons were started so far, so that the next one gets the pid `started + 1`. -/
structure Registry where
  live : Option Nat
  started : Nat
  deriving DecidableEq, Repr

/-- One use of the registry, done atomically: `cmd_create` and `cmd_open` start a session when
there is none, `cmd_kill` and the exit of the session's daemon end it, and nothing else changes
it. -/
def Registry.use (r : Registry) : Use → Registry
  | .command .cmdCreate | .command .cmdOpen =>
    if r.live.isSome then r else ⟨some (r.started + 1), r.started + 1⟩
  | .command .cmdKill => { r with live := none }
  | .command .enumerateSessions => r
  | .exit k => if r.live = some (k + 1) then { r with live := none } else r

/-- What a world shows its users. -/
def World.abs (w : World) : Registry := ⟨w.live, w.daemons.length⟩

/-- Nothing in progress: every command done, every daemon serving or exited, and a serving
daemon's three files its own. Files of exited daemons may be left over. -/
structure Settled (w : World) : Prop where
  invs : ∀ pc ∈ w.invs, pc = .done
  daemons : ∀ d ∈ w.daemons, d = .serving ∨ d = .dead
  files : ∀ k, w.daemons[k]? = some .serving → w.files = ⟨some (k + 1), some (k + 1), some (k + 1)⟩

theorem World.repeat_of_step {w w' : World} {l : Label} (h : w.step l = some w') (n : Nat) :
    w.repeat l (n + 1) = w'.repeat l n := by
  rw [World.repeat, h]

theorem World.repeat_of_stuck {w : World} {l : Label} (h : w.step l = none) :
    ∀ n, w.repeat l n = w
  | 0 => rfl
  | _ + 1 => by rw [World.repeat, h]

theorem World.invStep_last (f : SessionFiles) (d : List DaemonPc) (l : List Inv) (pc : Inv) :
    (⟨f, d, l ++ [pc]⟩ : World).invStep l.length =
      ((⟨f, d, [pc]⟩ : World).invStep 0).map fun v => ⟨v.files, v.daemons, l ++ v.invs⟩ := by
  cases pc <;> simp only [World.invStep, World.setInv, World.signal, World.alive,
    List.getElem?_concat_length, List.getElem?_cons_zero, List.set_append_right _ _ (le_refl _),
    Nat.sub_self, List.set_cons_zero, Option.map_some', Option.map_none']

theorem World.daemonStep_frame (f : SessionFiles) (d : List DaemonPc) (l : List Inv) (k : Nat) :
    (⟨f, d, l⟩ : World).daemonStep k =
      ((⟨f, d, []⟩ : World).daemonStep k).map fun v => ⟨v.files, v.daemons, l⟩ := by
  simp only [World.daemonStep, World.setDaemon]
  split <;> (try split) <;> rfl

theorem World.repeat_inv_last (l : List Inv) : ∀ (n : Nat) (f : SessionFiles) (d : List DaemonPc)
    (pc : Inv), (⟨f, d, l ++ [pc]⟩ : World).repeat (.inv l.length) n =
      let v := (⟨f, d, [pc]⟩ : World).repeat (.inv 0) n; ⟨v.files, v.daemons, l ++ v.invs⟩
  | 0, _, _, _ => rfl
  | n + 1, f, d, pc => by
    cases h : (⟨f, d, [pc]⟩ : World).invStep 0 with
    | none =>
      rw [World.repeat_of_stuck (by simp only [World.step, World.invStep_last, h, Option.map_none']),
        World.repeat_of_stuck (by simpa only [World.step] using h)]
    | some v =>
      obtain ⟨_, pc', -, hv, -⟩ := World.invStep_cases h
      obtain ⟨fv, dv, iv⟩ := v
      cases hv
      have h1 : (⟨f, d, l ++ [pc]⟩ : World).step (.inv l.length) = some ⟨fv, dv, l ++ [pc']⟩ := by
        simp only [World.step, World.invStep_last, h, Option.map_some']
      have h2 : (⟨f, d, [pc]⟩ : World).step (.inv 0) = some ⟨fv, dv, [pc']⟩ := h
      rw [World.repeat_of_step h1, World.repeat_of_step h2, World.repeat_inv_last l n]

theorem World.repeat_daemon_frame (l : List Inv) (k : Nat) : ∀ (n : Nat) (f : SessionFiles)
    (d : List DaemonPc), (⟨f, d, l⟩ : World).repeat (.daemon k) n =
      let v := (⟨f, d, []⟩ : World).repeat (.daemon k) n; ⟨v.files, v.daemons, l⟩
  | 0, _, _ => rfl
  | n + 1, f, d => by
    cases h : (⟨f, d, []⟩ : World).daemonStep k with
    | none =>
      rw [World.repeat_of_stuck (by simp only [World.step, World.daemonStep_frame, h,
        Option.map_none']), World.repeat_of_stuck (by simpa only [World.step] using h)]
    | some v =>
      obtain ⟨fv, dv, iv⟩ := v
      cases World.daemonStep_invs h
      have h1 : (⟨f, d, l⟩ : World).step (.daemon k) = some ⟨fv, dv, l⟩ := by
        simp only [World.step, World.daemonStep_frame, h, Option.map_some']
      rw [World.repeat_of_step h1, World.repeat_of_step (by exact h), World.repeat_daemon_frame l k n]

theorem World.use_command (w : World) (c : Command) :
    w.use (.command c) =
      let v := (⟨w.files, w.daemons, [c.start]⟩ : World).repeat (.inv 0) 33
      let u := (⟨v.files, v.daemons, []⟩ : World).repeat (.daemon w.daemons.length) 4
      ⟨u.files, u.daemons, w.invs ++ v.invs⟩ := by
  rw [World.use, World.repeat_inv_last, World.repeat_daemon_frame]

@[simp] theorem World.alive_mk (w : World) (f : SessionFiles) (l : List Inv) (p : Nat) :
    World.alive ⟨f, w.daemons, l⟩ p = w.alive p := rfl

/-- **The start-up of a forked daemon**: `unlink`, `bind`, `N.pid`, `N.info`, and it serves. -/
theorem World.startup (f : SessionFiles) (d : List DaemonPc) :
    (⟨f, d ++ [.start], []⟩ : World).repeat (.daemon d.length) 4 =
      ⟨⟨some (d.length + 1), some (d.length + 1), some (d.length + 1)⟩, d ++ [.serving], []⟩ := by
  simp only [World.repeat, World.step, World.daemonStep, World.setDaemon,
    List.getElem?_concat_length, List.set_append_right _ _ (le_refl _), Nat.sub_self,
    List.set_cons_zero, Option.isNone_none, if_true]

theorem World.alone_live {c : Command} (hc : c ≠ .cmdKill) (w : World)
    (hs : w.files.sock.isSome = true) (ha : w.alive (w.files.pid.getD 0) = true) :
    (⟨w.files, w.daemons, [c.start]⟩ : World).repeat (.inv 0) 33 = ⟨w.files, w.daemons, [.done]⟩ := by
  cases c <;> first | exact absurd rfl hc |
    simp [World.repeat, World.step, World.invStep, World.setInv, Command.start, hs, ha, World.onLive]

theorem World.repeat_add (w : World) (l : Label) (a b : Nat) :
    w.repeat l (a + b) = (w.repeat l a).repeat l b := by
  induction a generalizing w with
  | zero => rw [Nat.zero_add]; rfl
  | succ a ih =>
    rw [Nat.add_right_comm]
    cases h : w.step l with
    | none => rw [World.repeat_of_stuck h, World.repeat_of_stuck h, World.repeat_of_stuck h]
    | some w' => rw [World.repeat_of_step h, World.repeat_of_step h, ih]

theorem World.repeat_done (f : SessionFiles) (d : List DaemonPc) (n : Nat) :
    (⟨f, d, [.done]⟩ : World).repeat (.inv 0) n = ⟨f, d, [.done]⟩ :=
  World.repeat_of_stuck (show (⟨f, d, [.done]⟩ : World).step (.inv 0) = none from rfl) n

theorem World.repeat_poll {f : SessionFiles} (hs : f.sock = none) (d : List DaemonPc) (m : Nat) :
    ∀ n, n < 20 → (⟨f, d, [.poll n]⟩ : World).repeat (.inv 0) (20 - n + m) = ⟨f, d, [.done]⟩
  | n, hn => by
    have h : (⟨f, d, [.poll n]⟩ : World).step (.inv 0) =
        some ⟨f, d, [if n + 1 < 20 then .poll (n + 1) else .done]⟩ := by
      simp [World.step, World.invStep, World.setInv, hs]
    rw [show 20 - n + m = 19 - n + m + 1 by omega, World.repeat_of_step h]
    split_ifs with h'
    · rw [show 19 - n + m = 20 - (n + 1) + m by omega]
      exact World.repeat_poll hs d m (n + 1) h'
    · exact World.repeat_done f d _
termination_by n => 20 - n

theorem World.repeat_fork {f : SessionFiles} (hs : f.sock = none) (d : List DaemonPc) (m : Nat) :
    (⟨f, d, [.fork]⟩ : World).repeat (.inv 0) (21 + m) = ⟨f, d ++ [.start], [.done]⟩ := by
  rw [show 21 + m = 20 - 0 + m + 1 by omega, World.repeat_of_step (by rfl)]
  exact World.repeat_poll hs _ m 0 (by decide)

theorem World.step_check_create {f : SessionFiles} (hs : f.sock = none) (d : List DaemonPc) :
    (⟨f, d, [.check .cmdCreate]⟩ : World).step (.inv 0) = some ⟨f, d, [.fork]⟩ := by
  simp [World.step, World.invStep, World.setInv, World.onMissing, hs]

theorem World.alone_missing {c : Command} (hc : c = .cmdCreate ∨ c = .cmdOpen) (w : World)
    (hs : w.files.sock = none) :
    (⟨w.files, w.daemons, [c.start]⟩ : World).repeat (.inv 0) 33 =
      ⟨w.files, w.daemons ++ [.start], [.done]⟩ := by
  rcases hc with rfl | rfl
  · rw [show Command.cmdCreate.start = .check .cmdCreate from rfl, show 33 = 21 + 11 + 1 from rfl,
      World.repeat_of_step (World.step_check_create hs _)]
    exact World.repeat_fork hs _ _
  · have h : (⟨w.files, w.daemons, [.check .cmdOpen]⟩ : World).step (.inv 0) =
        some ⟨w.files, w.daemons, [.check .cmdCreate]⟩ := by
      simp [World.step, World.invStep, World.setInv, World.onMissing, hs]
    rw [show Command.cmdOpen.start = .check .cmdOpen from rfl, show 33 = 21 + 10 + 1 + 1 from rfl,
      World.repeat_of_step h,
      World.repeat_of_step (World.step_check_create hs _)]
    exact World.repeat_fork hs _ _

theorem World.alone_stale {c : Command} (hc : c = .cmdCreate ∨ c = .cmdOpen) (w : World)
    (hs : w.files.sock.isSome = true) (ha : w.alive (w.files.pid.getD 0) = false) :
    (⟨w.files, w.daemons, [c.start]⟩ : World).repeat (.inv 0) 33 =
      ⟨⟨none, none, none⟩, w.daemons ++ [.start], [.done]⟩ := by
  have hclean : ∀ c', (⟨w.files, w.daemons, [.check c']⟩ : World).repeat (.inv 0) 6 =
      ⟨⟨none, none, none⟩, w.daemons, [World.afterClean c']⟩ := fun _ => by
    simp [World.repeat, World.step, World.invStep, World.setInv, hs, ha, SessionFiles.unlink]
  rcases hc with rfl | rfl
  · rw [show Command.cmdCreate.start = .check .cmdCreate from rfl, show 33 = 6 + (21 + 6) from rfl,
      World.repeat_add, hclean]
    exact World.repeat_fork rfl _ _
  · rw [show Command.cmdOpen.start = .check .cmdOpen from rfl,
      show 33 = 6 + (21 + 5 + 1) from rfl, World.repeat_add, hclean,
      show World.afterClean .cmdOpen = .check .cmdCreate from rfl,
      World.repeat_of_step (@World.step_check_create ⟨none, none, none⟩ rfl _)]
    exact World.repeat_fork rfl _ _

theorem World.alone_fork {c : Command} (hc : c = .cmdCreate ∨ c = .cmdOpen) (w : World)
    (ha : ∀ p, w.alive p = false) :
    ∃ f, (⟨w.files, w.daemons, [c.start]⟩ : World).repeat (.inv 0) 33 =
      ⟨f, w.daemons ++ [.start], [.done]⟩ := by
  cases hs : w.files.sock with
  | none => exact ⟨_, World.alone_missing hc w hs⟩
  | some _ => exact ⟨_, World.alone_stale hc w (by simp [hs]) (ha _)⟩

theorem World.alone_enumerate (w : World) (ha : w.alive (w.files.pid.getD 0) = false) :
    (⟨w.files, w.daemons, [Command.enumerateSessions.start]⟩ : World).repeat (.inv 0) 33 =
      ⟨if w.files.sock.isSome then ⟨none, none, none⟩ else w.files, w.daemons, [.done]⟩ := by
  cases hs : w.files.sock.isSome <;>
    simp [World.repeat, World.step, World.invStep, World.setInv, Command.start, hs, ha,
      World.afterClean, World.onMissing, SessionFiles.unlink]

theorem World.alone_kill_dead (w : World) (ha : w.alive (w.files.pid.getD 0) = false) :
    (⟨w.files, w.daemons, [Command.cmdKill.start]⟩ : World).repeat (.inv 0) 33 =
      ⟨⟨none, none, none⟩, w.daemons, [.done]⟩ := by
  simp [World.repeat, World.step, World.invStep, World.setInv, Command.start, ha,
    World.afterClean, SessionFiles.unlink]

/-- **`cmd_kill` of a serving daemon that does not exit by itself**: `SIGTERM` ends its loop, the
ten polls find it alive, `SIGKILL` kills it, and `cmd_kill` removes the three files, in 17
steps. -/
theorem World.alone_kill_live (w : World) {p : Nat} (hp : w.files.pid = some p) (hp0 : 0 < p)
    (hk : w.daemons[p - 1]? = some .serving) :
    (⟨w.files, w.daemons, [Command.cmdKill.start]⟩ : World).repeat (.inv 0) 33 =
      ⟨⟨none, none, none⟩, (w.daemons.modify World.sigterm (p - 1)).modify (fun _ => .dead) (p - 1),
        [.done]⟩ := by
  simp [World.repeat, World.step, World.invStep, World.setInv, World.signal, Command.start, hp,
    hp0, hk, World.alive, World.onLive, World.sigterm, World.afterClean, SessionFiles.unlink]

theorem World.daemonStep_of_length_le {w : World} {k : Nat} (h : w.daemons.length ≤ k) :
    w.daemonStep k = none := by
  simp only [World.daemonStep, List.getElem?_eq_none h]

theorem World.repeat_daemon_of_length_le {w : World} {k : Nat} (h : w.daemons.length ≤ k)
    (n : Nat) : w.repeat (.daemon k) n = w :=
  World.repeat_of_stuck (show w.step (.daemon k) = none from World.daemonStep_of_length_le h) n

@[simp] theorem World.live_mk (w : World) (l : List Inv) : World.live ⟨w.files, w.daemons, l⟩ = w.live :=
  rfl

/-- **The shutdown of a serving daemon**: its loop ends, and `cleanup_session_files` removes the
three files. -/
theorem World.exit_serving (w : World) {k : Nat} (hk : w.daemons[k]? = some .serving) :
    w.use (.exit k) = ⟨⟨none, none, none⟩, w.daemons.set k .dead, w.invs⟩ := by
  simp [World.use, World.repeat, World.step, World.daemonStep, World.setDaemon, hk,
    List.getElem?_set_self', List.set_set, SessionFiles.unlink]

theorem World.exit_of_not_serving {w : World} (hw : Settled w) {k : Nat}
    (hk : w.daemons[k]? ≠ some .serving) : w.use (.exit k) = w := by
  refine World.repeat_of_stuck ?_ 4
  cases hd : w.daemons[k]? with
  | none => simp only [World.step, World.daemonStep, hd]
  | some d =>
    rcases hw.daemons d (List.getElem?_mem hd) with rfl | rfl
    · exact absurd hd hk
    · simp only [World.step, World.daemonStep, hd]

theorem Settled.alive_iff {w : World} (hw : Settled w) {p : Nat} :
    w.alive p = true ↔ 0 < p ∧ w.daemons[p - 1]? = some .serving := by
  simp only [World.alive, Bool.and_eq_true, decide_eq_true_eq]
  refine and_congr_right fun _ => ?_
  cases hd : w.daemons[p - 1]? with
  | none => simp
  | some d => rcases hw.daemons d (List.getElem?_mem hd) with rfl | rfl <;> decide

theorem Settled.live_eq_some {w : World} (hw : Settled w) {p : Nat} :
    w.live = some p ↔ 0 < p ∧ w.daemons[p - 1]? = some .serving := by
  constructor
  · intro h
    unfold World.live at h
    split_ifs at h
    cases hpid : w.files.pid with
    | none => rw [hpid] at h; cases h
    | some q =>
      rw [hpid] at h
      simp only [Option.filter] at h
      split_ifs at h with ha
      cases h
      exact hw.alive_iff.1 ha
  · rintro ⟨hp, hk⟩
    have hf := hw.files _ hk
    rw [Nat.sub_add_cancel hp] at hf
    simp [World.live, hf, hw.alive_iff, hp, hk]

theorem World.live_fork (d : List DaemonPc) (l : List Inv) :
    World.live ⟨⟨some (d.length + 1), some (d.length + 1), some (d.length + 1)⟩, d ++ [.serving], l⟩ =
      some (d.length + 1) := by
  simp [World.live, World.alive, Option.filter, List.getElem?_concat_length]

theorem Settled.dead_of_live_none {w : World} (hw : Settled w) (hl : w.live = none) :
    ∀ x ∈ w.daemons, x = .dead := by
  intro x hx
  obtain ⟨k, hk⟩ := List.mem_iff_getElem?.1 hx
  rcases hw.daemons x hx with rfl | rfl
  · have := hw.live_eq_some.2 ⟨Nat.succ_pos k, by simpa using hk⟩
    rw [hl] at this
    cases this
  · rfl

theorem Settled.dead_of_ne {w : World} (hw : Settled w) {j : Nat}
    (hj : w.daemons[j]? = some .serving) {k : Nat} (hk : k ≠ j) {x : DaemonPc}
    (hx : w.daemons[k]? = some x) : x = .dead := by
  rcases hw.daemons x (List.getElem?_mem hx) with rfl | rfl
  · have := (hw.files _ hx).symm.trans (hw.files _ hj)
    simp only [SessionFiles.mk.injEq, Option.some.injEq, Nat.add_right_cancel_iff, and_self] at this
    exact absurd this hk
  · rfl

theorem Settled.of_dead {f : SessionFiles} {d : List DaemonPc} {l : List Inv}
    (hl : ∀ pc ∈ l, pc = .done) (hd : ∀ x ∈ d, x = .dead) : Settled ⟨f, d, l⟩ :=
  ⟨hl, fun x hx => .inr (hd x hx), fun _ hk => nomatch hd _ (List.getElem?_mem hk)⟩

theorem Settled.invs_done {w : World} (hw : Settled w) : ∀ pc ∈ w.invs ++ [.done], pc = .done :=
  fun pc h => (List.mem_append.1 h).elim (hw.invs pc) List.mem_singleton.1

theorem Settled.alive_eq_false {w : World} (hd : ∀ x ∈ w.daemons, x = .dead) (p : Nat) :
    w.alive p = false := by
  simp only [World.alive]
  cases h : w.daemons[p - 1]? with
  | none => simp
  | some x => rw [hd x (List.getElem?_mem h)]; simp

theorem Settled.fork {w : World} (hw : Settled w) (hd : ∀ x ∈ w.daemons, x = .dead) :
    Settled ⟨⟨some (w.daemons.length + 1), some (w.daemons.length + 1), some (w.daemons.length + 1)⟩,
      w.daemons ++ [.serving], w.invs ++ [.done]⟩ := by
  refine ⟨hw.invs_done, fun x hx => ?_, fun k hk => ?_⟩
  · rcases List.mem_append.1 hx with hx | hx
    · exact hw.daemons x hx
    · exact .inl (List.mem_singleton.1 hx)
  · rcases lt_trichotomy k w.daemons.length with hlt | rfl | hlt
    · rw [List.getElem?_append_left hlt] at hk
      cases hd _ (List.getElem?_mem hk)
    · rfl
    · rw [List.getElem?_eq_none (by simp only [List.length_append, List.length_singleton]; omega)]
        at hk
      cases hk

/-- **Used one thing at a time, the registry is the atomic one.** From any settled world (one
with leftover files of exited daemons included), a command run alone to its end, with the start-up
of the daemon it forks, or the shutdown of a daemon, leaves a settled world, and does to what users
see what `Registry.use` says: one live session at most, started by `cmd_create` or `cmd_open` only
when there is none, ended by `cmd_kill` or its daemon's exit. -/
theorem Settled.use {w : World} (hw : Settled w) (u : Use) :
    Settled (w.use u) ∧ (w.use u).abs = w.abs.use u := by
  cases u with
  | exit k =>
    by_cases hk : w.daemons[k]? = some .serving
    · have hl : w.live = some (k + 1) := hw.live_eq_some.2 ⟨Nat.succ_pos k, hk⟩
      rw [World.exit_serving w hk]
      refine ⟨Settled.of_dead hw.invs fun x hx => ?_, ?_⟩
      · obtain ⟨j, hj⟩ := List.mem_iff_getElem?.1 hx
        by_cases e : k = j
        · subst e
          rw [List.getElem?_set_self', hk] at hj
          cases hj
          rfl
        · rw [List.getElem?_set_ne e] at hj
          exact hw.dead_of_ne hk (Ne.symm e) hj
      · simp only [World.abs, Registry.use, hl, if_true, List.length_set]
        rfl
    · rw [World.exit_of_not_serving hw hk]
      refine ⟨hw, ?_⟩
      simp only [World.abs, Registry.use]
      split_ifs with hl
      · exact absurd (by simpa using (hw.live_eq_some.1 hl).2) hk
      · rfl
  | command c =>
    rw [World.use_command]
    cases hl : w.live with
    | some p =>
      obtain ⟨hp, hk⟩ := hw.live_eq_some.1 hl
      have hf := hw.files _ hk
      rw [Nat.sub_add_cancel hp] at hf
      by_cases hc : c = .cmdKill
      · subst hc
        rw [World.alone_kill_live w (by rw [hf]) hp hk]
        dsimp only
        rw [World.repeat_daemon_of_length_le (by simp)]
        refine ⟨Settled.of_dead hw.invs_done fun x hx => ?_, ?_⟩
        · obtain ⟨j, hj⟩ := List.mem_iff_getElem?.1 hx
          rw [List.getElem?_modify, List.getElem?_modify] at hj
          by_cases e : p - 1 = j
          · subst e; simp [hk] at hj; exact hj.symm
          · cases hx' : w.daemons[j]? with
            | none => simp [hx'] at hj
            | some y =>
              simp only [hx', e, if_false, Option.map_eq_map, Option.map_some', Option.some.injEq] at hj
              exact hj ▸ hw.dead_of_ne hk (Ne.symm e) hx'
        · simp [World.abs, World.live, Registry.use, hl]
      · have ha : w.alive (w.files.pid.getD 0) = true := by
          rw [hf]; exact hw.alive_iff.2 ⟨hp, hk⟩
        rw [World.alone_live hc w (by rw [hf]; rfl) ha]
        dsimp only
        rw [World.repeat_daemon_of_length_le le_rfl]
        refine ⟨⟨hw.invs_done, hw.daemons, hw.files⟩, ?_⟩
        cases c <;> first | exact absurd rfl hc | simp [World.abs, Registry.use, hl]
    | none =>
      have hd := hw.dead_of_live_none hl
      have ha := Settled.alive_eq_false hd
      by_cases hc : c = .cmdCreate ∨ c = .cmdOpen
      · obtain ⟨f, hf⟩ := World.alone_fork hc w ha
        rw [hf]
        dsimp only
        rw [World.startup]
        refine ⟨hw.fork hd, ?_⟩
        rcases hc with rfl | rfl <;> simp [World.abs, Registry.use, hl, World.live_fork]
      · cases c with
        | cmdKill =>
          rw [World.alone_kill_dead w (ha _)]
          dsimp only
          rw [World.repeat_daemon_of_length_le le_rfl]
          exact ⟨Settled.of_dead hw.invs_done hd, by simp [World.abs, Registry.use]; rfl⟩
        | enumerateSessions =>
          rw [World.alone_enumerate w (ha _)]
          dsimp only
          rw [World.repeat_daemon_of_length_le le_rfl]
          refine ⟨Settled.of_dead hw.invs_done hd, ?_⟩
          split_ifs
          · simp [World.abs, Registry.use, hl]; rfl
          · simp [World.abs, Registry.use, hl]
        | _ => exact absurd (by simp) hc


theorem Settled.empty : Settled World.empty :=
  ⟨nofun, nofun, fun _ h => nomatch h⟩

theorem Settled.registryOk {w : World} (hw : Settled w) : RegistryOk w := by
  intro k hk hreg
  rw [List.getD_eq_getElem?_getD, List.getElem?_eq_getElem hk, Option.getD_some] at hreg
  have hks : w.daemons[k]? = some .serving := by
    rw [List.getElem?_eq_getElem hk]
    rcases hw.daemons _ (List.getElem_mem hk) with h | h <;> rw [h] at hreg ⊢
    cases hreg
  have hf := hw.files k hks
  refine ⟨fun j hj hjk => ?_, by rw [hf], by rw [hf], by rw [hf]; rfl⟩
  rw [List.getD_eq_getElem?_getD, List.getElem?_eq_getElem hj, Option.getD_some,
    hw.dead_of_ne hks hjk (List.getElem?_eq_getElem hj)]
  rfl

theorem Settled.foldl_use : ∀ (us : List Use) {w : World}, Settled w →
    Settled (us.foldl World.use w) ∧ (us.foldl World.use w).abs = us.foldl Registry.use w.abs
  | [], _, hw => ⟨hw, rfl⟩
  | u :: us, w, hw => by
    obtain ⟨h1, h2⟩ := hw.use u
    rw [List.foldl_cons, List.foldl_cons, ← h2]
    exact Settled.foldl_use us h1

/-- **One use at a time, the registry keeps its invariant and is the atomic one.** From any
settled world, the empty one or one with files left by exited daemons, after any sequence of uses
each run alone, a registered daemon is the only running one and the three files are its own
(`RegistryOk`, which `registry_race` breaks when two `cmd_create` overlap), and users see what the
atomic `Registry` shows after the same uses. -/
theorem sequential_registry {w : World} (hw : Settled w) (us : List Use) :
    RegistryOk (us.foldl World.use w) ∧ (us.foldl World.use w).abs = us.foldl Registry.use w.abs :=
  have h := Settled.foldl_use us hw
  ⟨h.1.registryOk, h.2⟩

/-- Two `cmd_create` one after the other from the empty registry: the second finds the first
session live. -/
theorem sequential_registry_two_creates :
    Settled World.empty ∧
      (RegistryOk ([.command .cmdCreate, .command .cmdCreate].foldl World.use World.empty) ∧
        ([.command .cmdCreate, .command .cmdCreate].foldl World.use World.empty).abs =
          [.command .cmdCreate, .command .cmdCreate].foldl Registry.use World.empty.abs) :=
  ⟨Settled.empty, sequential_registry Settled.empty _⟩

end GhostlySession
