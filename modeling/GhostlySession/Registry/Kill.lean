import GhostlySession.Registry.Runs

/-!
# `cmd_kill` against its session, in any interleaving

`cmd_kill` reads `N.pid`, probes the pid, sends `SIGTERM`, polls ten times, sends `SIGKILL`, and
runs `cleanup_session_files`. Beside it the session's daemon runs its shutdown (the three
`unlink`s of `run_server`'s end), and other `cmd_kill`s and `enumerate_sessions` may probe the
same pid and clean the same files.

`kill_ends_session`: started against the live session of a settled world, a `cmd_kill` that has
finished, in any interleaving with the daemons and with `cmd_kill`s and `enumerate_sessions`, has
left no file of the name, and no daemon of the name serves. Nothing forks while the commands run
(`cmd_create` and `cmd_open` are left out), so the daemon of the session is the only one not
exited, and every step only removes: a file, or the daemon's serving (`KillInv.of_shrinks`).
The invariant `KillInv` says where each command may stand while that happens (`Inv.KillSafe`):
its probe reads the session's pid, or no pid once the daemon has stopped serving, its signals go
to that pid, and its cleanup starts only once the daemon has stopped serving; and where the
`cmd_kill` stands (`Inv.KillAt`): after its `i`-th `unlink`, the first `i` files are gone.
-/

namespace GhostlySession

/-! ### Files that only go -/

theorem SessionFiles.unlink_comm (f : SessionFiles) (j m : Nat) :
    (f.unlink j).unlink m = (f.unlink m).unlink j := by
  rcases j with _ | _ | j <;> rcases m with _ | _ | m <;> rfl

theorem SessionFiles.unlink_idem (f : SessionFiles) (j : Nat) : (f.unlink j).unlink j = f.unlink j := by
  rcases j with _ | _ | j <;> rfl

theorem SessionFiles.unlink_pid (f : SessionFiles) (j : Nat) :
    (f.unlink j).pid = f.pid ∨ (f.unlink j).pid = none := by
  rcases j with _ | _ | j
  exacts [.inl rfl, .inr rfl, .inl rfl]

/-- Whether the daemon with pid `p` serves. -/
def World.serves (v : World) (p : Nat) : Bool := v.daemons[p - 1]? == some .serving

/-! ### The invariant -/

section

variable (p : Nat)

/-- A command that does not fork, at `pc`, while the session with pid `p` goes: a probe reads `p`,
or `0` once the daemon has stopped serving; a signal goes to `p`; a cleanup runs once the daemon
has stopped serving. `serving` says whether it still serves. -/
def Inv.KillSafe (serving : Bool) : Inv → Prop
  | .check c | .readPid c => c = .cmdKill ∨ c = .enumerateSessions
  | .probe c q => (c = .cmdKill ∨ c = .enumerateSessions) ∧ (q = p ∨ q = 0 ∧ serving = false)
  | .clean c _ => (c = .cmdKill ∨ c = .enumerateSessions) ∧ serving = false
  | .fork | .poll _ => False
  | .term q | .wait q _ | .nine q => q = p
  | .done => True

/-- Where the `cmd_kill` of the session stands: on its way, or done, with the three files gone
and the daemon no longer serving. -/
def Inv.KillAt (f : SessionFiles) (serving : Bool) : Inv → Prop
  | .readPid c | .probe c _ => c = .cmdKill
  | .term _ | .wait _ _ | .nine _ => True
  | .clean c j => c = .cmdKill ∧ ∀ m < j, f.unlink m = f
  | .done => f = ⟨none, none, none⟩ ∧ serving = false
  | .check _ | .fork | .poll _ => False

/-- **The invariant of a `cmd_kill` of the session with pid `p`**, the `i`-th command, while no
command forks: `N.pid` holds `p` or is gone, and gone only once the daemon has stopped serving;
the daemon `p` serves, shuts down or has exited, and every other daemon has exited; every
command in progress is `KillSafe`, and the `cmd_kill` is `KillAt` its point. -/
structure KillInv (i : Nat) (v : World) : Prop where
  pos : 0 < p
  pid : v.files.pid = none ∨ v.files.pid = some p
  pidGone : v.files.pid = none → v.serves p = false
  target : v.daemons[p - 1]? = some .serving ∨ (∃ j, v.daemons[p - 1]? = some (.cleanup j)) ∨
    v.daemons[p - 1]? = some .dead
  others : ∀ j d, j ≠ p - 1 → v.daemons[j]? = some d → d = .dead
  invs : ∀ pc ∈ v.invs, pc.KillSafe p (v.serves p)
  kill : ∃ pc, v.invs[i]? = some pc ∧ pc.KillAt v.files (v.serves p)

variable {p}

theorem Inv.KillSafe.mono {pc : Inv} {b b' : Bool} (h : pc.KillSafe p b) (hb : b' = true → b = true) :
    pc.KillSafe p b' := by
  have hb' : b = false → b' = false := fun e => by cases b' <;> simp_all
  cases pc <;> simp only [Inv.KillSafe] at h ⊢
  case probe c q => exact ⟨h.1, h.2.imp_right fun h => ⟨h.1, hb' h.2⟩⟩
  case clean c j => exact ⟨h.1, hb' h.2⟩
  all_goals exact h

theorem Inv.KillAt.mono {pc : Inv} {f f' : SessionFiles} {b b' : Bool} (h : pc.KillAt f b)
    (hf : f' = f ∨ ∃ m, f' = f.unlink m) (hb : b' = true → b = true) : pc.KillAt f' b' := by
  have hb' : b = false → b' = false := fun e => by cases b' <;> simp_all
  cases pc <;> simp only [Inv.KillAt] at h ⊢
  case clean c j =>
    refine ⟨h.1, fun m hm => ?_⟩
    rcases hf with rfl | ⟨m', rfl⟩
    · exact h.2 m hm
    · rw [SessionFiles.unlink_comm, h.2 m hm]
  case done =>
    refine ⟨?_, hb' h.2⟩
    rcases hf with rfl | ⟨m', rfl⟩
    · exact h.1
    · rw [h.1]; rcases m' with _ | _ | m' <;> rfl
  all_goals exact h

theorem World.serves_eq_false {v : World} (hp : 0 < p) (ha : v.alive p = false) : v.serves p = false := by
  cases hd : v.daemons[p - 1]? with
  | none => simp [World.serves, hd]
  | some d => cases d <;> simp_all [World.alive, World.serves]

theorem SessionFiles.unlink_gone {f : SessionFiles} {k : Nat} (hm : ∀ m < k, f.unlink m = f) :
    ∀ m < k + 1, (f.unlink k).unlink m = f.unlink k := by
  intro m hm'
  rcases Nat.lt_succ_iff_lt_or_eq.1 hm' with hlt | rfl
  · rw [SessionFiles.unlink_comm, hm m hlt]
  · exact f.unlink_idem m

theorem SessionFiles.unlink_all {f : SessionFiles} {k : Nat} (hk : 2 ≤ k)
    (hm : ∀ m < k, f.unlink m = f) : f.unlink k = ⟨none, none, none⟩ := by
  obtain ⟨s, q, n⟩ := f
  have h0 := hm 0 (by omega)
  have h1 := hm 1 (by omega)
  simp only [SessionFiles.unlink, SessionFiles.mk.injEq] at h0 h1
  rcases k with _ | _ | k
  · omega
  · omega
  · simp only [SessionFiles.unlink, SessionFiles.mk.injEq]
    exact ⟨h0.1.symm, h1.2.1.symm, trivial⟩

/-! ### What each step keeps -/

variable {i : Nat} {v v' : World}

/-- **Steps that only remove.** A step that leaves the commands as they are, at most removes one
file (and `N.pid` only once the daemon has stopped serving), and at most moves the daemon `p`
into its shutdown or ends it, keeps the invariant. -/
theorem KillInv.of_shrinks (hI : KillInv p i v) (hinvs : v'.invs = v.invs)
    (hf : v'.files = v.files ∨ ∃ m, v'.files = v.files.unlink m)
    (hg : v'.files.pid = none → v.files.pid = none ∨ v'.serves p = false)
    (hd : ∀ j, j ≠ p - 1 → v'.daemons[j]? = v.daemons[j]?)
    (ht : v'.daemons[p - 1]? = v.daemons[p - 1]? ∨ v'.daemons[p - 1]? = some .dead ∨
      ∃ j, v'.daemons[p - 1]? = some (.cleanup j)) : KillInv p i v' := by
  have hs : v'.serves p = true → v.serves p = true := by
    rcases ht with h | h | ⟨j, h⟩ <;> simp [World.serves, h]
  have hs' : v.serves p = false → v'.serves p = false := fun e => by
    cases h : v'.serves p <;> simp_all
  refine ⟨hI.pos, ?_, ?_, ?_, fun j d hj hd' => hI.others j d hj (hd j hj ▸ hd'), ?_, ?_⟩
  · rcases hf with h | ⟨m, h⟩ <;> rw [h]
    · exact hI.pid
    · exact (v.files.unlink_pid m).elim (· ▸ hI.pid) .inl
  · intro h
    exact (hg h).elim (fun h => hs' (hI.pidGone h)) id
  · rcases ht with h | h | ⟨j, h⟩ <;> rw [h]
    exacts [hI.target, .inr (.inr rfl), .inr (.inl ⟨j, rfl⟩)]
  · rw [hinvs]
    exact fun pc hpc => (hI.invs pc hpc).mono hs
  · obtain ⟨pc, hpc, hk⟩ := hI.kill
    exact ⟨pc, hinvs ▸ hpc, hk.mono hf hs⟩

/-- **A command moves on.** Setting a command's entry to a `KillSafe` one, which is also `KillAt`
when it is the `cmd_kill`, keeps the invariant. -/
theorem KillInv.setInv {j : Nat} {pc : Inv} (hI : KillInv p i v) (hs : pc.KillSafe p (v.serves p))
    (hk : j = i → pc.KillAt v.files (v.serves p)) : KillInv p i (v.setInv j pc) := by
  refine ⟨hI.pos, hI.pid, hI.pidGone, hI.target, hI.others, ?_, ?_⟩
  · intro pc' hpc'
    rcases List.mem_or_eq_of_mem_set hpc' with h | rfl
    exacts [hI.invs pc' h, hs]
  · obtain ⟨pc', hpc', hk'⟩ := hI.kill
    by_cases hji : j = i
    · subst hji
      refine ⟨pc, ?_, hk rfl⟩
      simp only [World.setInv, List.getElem?_set, if_true]
      rw [if_pos (List.getElem?_eq_some_iff.1 hpc').1]
    · exact ⟨pc', by simpa only [World.setInv, List.getElem?_set_ne hji] using hpc', hk'⟩

theorem KillInv.spawn {c : Command} (hI : KillInv p i v) (hc : c = .cmdKill ∨ c = .enumerateSessions) :
    KillInv p i { v with invs := v.invs ++ [c.start] } := by
  refine ⟨hI.pos, hI.pid, hI.pidGone, hI.target, hI.others, ?_, ?_⟩
  · intro pc hpc
    rcases List.mem_append.1 hpc with h | h
    · exact hI.invs pc h
    · rw [List.mem_singleton.1 h]
      rcases hc with rfl | rfl
      exacts [.inl rfl, .inr rfl]
  · obtain ⟨pc, hpc, hk⟩ := hI.kill
    exact ⟨pc, by rw [List.getElem?_append_left (List.getElem?_eq_some_iff.1 hpc).1, hpc], hk⟩

theorem KillInv.exists_target (hI : KillInv p i v) : ∃ d, v.daemons[p - 1]? = some d := by
  rcases hI.target with h | ⟨_, h⟩ | h <;> exact ⟨_, h⟩

theorem KillInv.lt (hI : KillInv p i v) : p - 1 < v.daemons.length :=
  hI.exists_target.elim fun _ h => (List.getElem?_eq_some_iff.1 h).1

theorem KillInv.daemonStep {k : Nat} (hI : KillInv p i v) (h : v.daemonStep k = some v') :
    KillInv p i v' := by
  by_cases hk : k = p - 1
  · subst hk
    have hne : ∀ j, j ≠ p - 1 → ∀ d : DaemonPc, (v.daemons.set (p - 1) d)[j]? = v.daemons[j]? :=
      fun j hj d => List.getElem?_set_ne (Ne.symm hj)
    have hset : ∀ d : DaemonPc, (v.daemons.set (p - 1) d)[p - 1]? = some d :=
      fun d => List.getElem?_set_self hI.lt
    rcases hI.target with hd | ⟨j, hd⟩ | hd <;>
      simp only [World.daemonStep, hd, Option.some.injEq, reduceCtorEq] at h <;> subst h
    · exact hI.of_shrinks rfl (.inl rfl) .inl (fun j hj => hne j hj _)
        (.inr (.inr ⟨0, hset _⟩))
    · refine hI.of_shrinks rfl (.inr ⟨j, rfl⟩) (fun _ => .inr ?_) (fun j hj => hne j hj _) ?_ <;>
        split_ifs <;> simp [World.serves, World.setDaemon, hset]
  · cases hd : v.daemons[k]? with
    | none => simp only [World.daemonStep, hd, reduceCtorEq] at h
    | some d =>
      rw [hI.others k d hk hd] at hd
      simp only [World.daemonStep, hd, reduceCtorEq] at h

theorem KillInv.signal {f : DaemonPc → DaemonPc} (hI : KillInv p i v)
    (hf : ∀ d, f d = d ∨ f d = .dead ∨ ∃ j, f d = .cleanup j) : KillInv p i (v.signal p f) := by
  obtain ⟨d, hd⟩ := hI.exists_target
  refine hI.of_shrinks rfl (.inl rfl) .inl (fun j hj => ?_) ?_
  · simp [World.signal, List.getElem?_modify, Ne.symm hj]
  · simp only [World.signal, List.getElem?_modify, if_true, hd, Option.map_eq_map, Option.map_some']
    rcases hf d with h | h | ⟨j, h⟩ <;> rw [h]
    exacts [.inl rfl, .inr (.inl rfl), .inr (.inr ⟨j, rfl⟩)]

theorem World.sigterm_cases (d : DaemonPc) :
    World.sigterm d = d ∨ World.sigterm d = .dead ∨ ∃ j, World.sigterm d = .cleanup j := by
  cases d
  case serving => exact .inr (.inr ⟨0, rfl⟩)
  case cleanup j => exact .inl rfl
  case dead => exact .inl rfl
  all_goals exact .inr (.inl rfl)

theorem KillInv.serves_kill9 (hI : KillInv p i v) : (v.signal p fun _ => .dead).serves p = false := by
  obtain ⟨d, hd⟩ := hI.exists_target
  simp [World.serves, World.signal, List.getElem?_modify, hd]

theorem KillInv.invStep {j : Nat} (hI : KillInv p i v) (h : v.invStep j = some v') :
    KillInv p i v' := by
  cases hpc : v.invs[j]? with
  | none => simp only [World.invStep, hpc, reduceCtorEq] at h
  | some pc =>
    have hs := hI.invs pc (List.getElem?_mem hpc)
    have hk : j = i → pc.KillAt v.files (v.serves p) := by
      rintro rfl
      obtain ⟨pc', hpc', hk⟩ := hI.kill
      rw [hpc, Option.some.injEq] at hpc'
      exact hpc' ▸ hk
    cases pc <;> simp only [World.invStep, hpc, Option.some.injEq, reduceCtorEq] at h <;> subst h
    case check c =>
      refine hI.setInv ?_ fun e => absurd (hk e) id
      split_ifs
      · exact hs
      · rcases hs with rfl | rfl <;> trivial
    case readPid c =>
      refine hI.setInv ⟨hs, ?_⟩ hk
      rcases hI.pid with h | h <;> rw [h]
      exacts [.inr ⟨rfl, hI.pidGone h⟩, .inl rfl]
    case probe c q =>
      split_ifs with ha
      · have hq : q = p := hs.2.resolve_right fun ⟨h0, _⟩ => by simp [h0, World.alive] at ha
        subst hq
        rcases hs.1 with rfl | rfl
        exacts [hI.setInv rfl fun _ => trivial, hI.setInv trivial fun e => absurd (hk e) nofun]
      · refine hI.setInv ⟨hs.1, ?_⟩ fun e => ⟨hk e, fun m hm => absurd hm (Nat.not_lt_zero m)⟩
        rcases hs.2 with rfl | ⟨_, h⟩
        · exact World.serves_eq_false hI.pos (Bool.eq_false_iff.2 ha)
        · exact h
    case clean c k =>
      have hv : KillInv p i { v with files := v.files.unlink k } :=
        hI.of_shrinks rfl (.inr ⟨k, rfl⟩) (fun _ => .inr hs.2) (fun _ _ => rfl) (.inl rfl)
      refine hv.setInv (j := j) ?_ fun e => ?_
      · split_ifs
        · exact hs
        · rcases hs.1 with rfl | rfl <;> trivial
      · obtain ⟨rfl, hm⟩ := hk e
        split_ifs with hk3
        · exact ⟨rfl, SessionFiles.unlink_gone hm⟩
        · exact ⟨SessionFiles.unlink_all (by omega) hm, hs.2⟩
    case fork => exact hs.elim
    case poll => exact hs.elim
    case term q =>
      subst hs
      exact (hI.signal World.sigterm_cases).setInv rfl fun _ => trivial
    case wait q n =>
      subst hs
      refine hI.setInv ?_ fun _ => ?_ <;> split_ifs with ha
      · exact ⟨.inl rfl, World.serves_eq_false hI.pos (by simpa using ha)⟩
      · exact rfl
      · exact rfl
      · exact ⟨rfl, fun m hm => absurd hm (Nat.not_lt_zero m)⟩
      all_goals trivial
    case nine q =>
      subst hs
      exact (hI.signal fun _ => .inr (.inl rfl)).setInv ⟨.inl rfl, hI.serves_kill9⟩
        fun _ => ⟨rfl, fun m hm => absurd hm (Nat.not_lt_zero m)⟩

theorem KillInv.step {l : Label} (hI : KillInv p i v)
    (hl : ∀ c, l = .spawn c → c = .cmdKill ∨ c = .enumerateSessions) (h : v.step l = some v') :
    KillInv p i v' := by
  cases l with
  | spawn c => cases h; exact hI.spawn (hl c rfl)
  | inv j => exact hI.invStep h
  | daemon k => exact hI.daemonStep h

theorem KillInv.run : ∀ {v v' : World} {ls : List Label}, KillInv p i v →
    (∀ c, .spawn c ∈ ls → c = .cmdKill ∨ c = .enumerateSessions) → v.run ls = some v' →
    KillInv p i v'
  | _, _, [], hI, _, h => by cases h; exact hI
  | _, _, l :: ls, hI, hls, h => by
    obtain ⟨u, hu, hrest⟩ := Option.bind_eq_some.1 h
    refine KillInv.run (hI.step (fun c e => hls c (e ▸ List.mem_cons_self _ _)) hu)
      (fun c hc => hls c (List.mem_cons_of_mem _ hc)) hrest

theorem KillInv.start {w : World} (hw : Settled w) (hl : w.live = some p) :
    KillInv p w.invs.length { w with invs := w.invs ++ [Command.cmdKill.start] } := by
  obtain ⟨hp, hd⟩ := hw.live_eq_some.1 hl
  have hf := hw.files _ hd
  rw [Nat.sub_add_cancel hp] at hf
  refine ⟨hp, .inr (by rw [hf]), fun h => absurd (hf ▸ h) nofun, .inl hd,
    fun j d hj h => hw.dead_of_ne hd hj h, fun pc hpc => ?_, ⟨_, List.getElem?_concat_length .., rfl⟩⟩
  rcases List.mem_append.1 hpc with h | h
  · rw [hw.invs pc h]; trivial
  · rw [List.mem_singleton.1 h]; exact .inl rfl

/-- **`cmd_kill` ends the session, whatever runs beside it.** Started against the live session
`p` of a settled world, a `cmd_kill` that has finished, in any interleaving with the daemons and
with other `cmd_kill`s and `enumerate_sessions`, has left no file of the name, and no daemon of
the name serves: the session's daemon has exited or is in its shutdown. -/
theorem kill_ends_session {w w' : World} (hw : Settled w) {p : Nat} (hl : w.live = some p)
    {ls : List Label} (hls : ∀ c, .spawn c ∈ ls → c = .cmdKill ∨ c = .enumerateSessions)
    (h : World.run { w with invs := w.invs ++ [Command.cmdKill.start] } ls = some w')
    (hd : w'.invs[w.invs.length]? = some .done) :
    w'.files = ⟨none, none, none⟩ ∧ ∀ k : Nat, w'.daemons[k]? ≠ some DaemonPc.serving := by
  have hI := (KillInv.start hw hl).run hls h
  obtain ⟨pc, hpc, hk⟩ := hI.kill
  rw [hd, Option.some.injEq] at hpc
  subst hpc
  obtain ⟨hfiles, hs⟩ := hk
  refine ⟨hfiles, fun k hk => ?_⟩
  by_cases hkp : k = p - 1
  · subst hkp
    simp [World.serves, hk] at hs
  · exact absurd (hI.others k _ hkp hk) nofun

end

/-- `cmd_kill` of the session `cmd_create` started, beside an `enumerate_sessions` that probes
the daemon before the `SIGTERM`, finds it gone after its shutdown, and runs
`cleanup_session_files` step for step with the `cmd_kill`. -/
def killBesideEnumerate : List Label :=
  [.inv 1, .spawn .enumerateSessions, .inv 2, .inv 2, .inv 1, .inv 1, .daemon 0, .daemon 0,
    .daemon 0, .inv 2, .inv 1, .inv 2, .inv 1, .inv 2, .inv 1, .inv 2, .inv 1]

theorem kill_ends_session_beside_enumerate :
    (World.empty.use (.command .cmdCreate)).live = some 1 ∧
      World.run { World.empty.use (.command .cmdCreate) with
        invs := (World.empty.use (.command .cmdCreate)).invs ++ [Command.cmdKill.start] }
        killBesideEnumerate = some ⟨⟨none, none, none⟩, [.dead], [.done, .done, .done]⟩ ∧
      (⟨none, none, none⟩ : SessionFiles) = ⟨none, none, none⟩ ∧
        ∀ k : Nat, ([.dead] : List DaemonPc)[k]? ≠ some DaemonPc.serving := by
  have hl : (World.empty.use (.command .cmdCreate)).live = some 1 := by decide
  have h : World.run { World.empty.use (.command .cmdCreate) with
      invs := (World.empty.use (.command .cmdCreate)).invs ++ [Command.cmdKill.start] }
      killBesideEnumerate = some ⟨⟨none, none, none⟩, [.dead], [.done, .done, .done]⟩ := by decide
  exact ⟨hl, h, kill_ends_session (Settled.empty.use _).1 hl
    (fun c hc => by simp [killBesideEnumerate] at hc; exact .inr hc) h rfl⟩

end GhostlySession
