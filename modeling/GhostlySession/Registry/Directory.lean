import GhostlySession.Registry.Enumerate
import GhostlySession.Registry.Runs

/-!
# The registry model's files as a directory

The registry model keeps a name's files as whose they are (`SessionFiles`); `enumerate_sessions`
over bytes reads a directory (`Files`). `SessionFiles.dir` is the directory the model's files
stand for: `N.sock` when the socket is bound, `N.pid` as `write_pid_file` wrote the pid, and
`N.info` as the daemon wrote it.

`enumerate_refines_registry`: over that directory, in any order of the entries `readdir`
returns, the scan of `Registry/Enumerate` lists exactly the live session the model shows its
users (`World.live`, the `live` of `World.abs`), and leaves the directory of the world the model's
`enumerate_sessions`, run alone, leaves (`World.use_enumerate_files`). So the two levels agree:
the pid the model probes is the one `read_pid_file` reads (`readPidFile_dir`), and the files
the model's cleanup removes are the paths `cleanup_session_files` unlinks
(`SessionFiles.unlinkAll_dir`).
-/

namespace GhostlySession

theorem World.use_enumerate_files (w : World) :
    (w.use (.command .enumerateSessions)).files =
      if w.files.sock.isSome && !w.alive (w.files.pid.getD 0) then ⟨none, none, none⟩ else w.files := by
  rw [World.use_command]
  cases hs : w.files.sock.isSome <;> cases ha : w.alive (w.files.pid.getD 0) <;>
    simp [World.repeat, World.step, World.invStep, World.setInv, Command.start, hs, ha,
      World.afterClean, World.onMissing, World.onLive, SessionFiles.unlink, World.daemonStep]

/-! ### The directory a world stands for -/

/-- The socket directory under the name `name`, with the files `f` says are there: the socket
(no content), `N.pid` as `write_pid_file` wrote the pid, and `N.info` as the daemon `k` wrote it,
`info k`. -/
def SessionFiles.dir (uid : UInt32) (name : List UInt8) (info : Nat → List UInt8)
    (f : SessionFiles) : Files := fun q =>
  if q = socketPath uid name then f.sock.map fun _ => []
  else if q = pidPath uid name then f.pid.map fun p => pidFileText p
  else if q = infoPath uid name then f.info.map info
  else none

section

variable {uid : UInt32} {name : List UInt8} {info : Nat → List UInt8}

theorem SessionFiles.dir_pid (f : SessionFiles) :
    f.dir uid name info (pidPath uid name) = f.pid.map fun p => pidFileText p := by
  have h : pidPath uid name ≠ socketPath uid name := fun e => nomatch (@FileKind.path_inj uid name name .pid .sock e).2
  simp [SessionFiles.dir, h]

theorem SessionFiles.dir_info (f : SessionFiles) :
    f.dir uid name info (infoPath uid name) = f.info.map info := by
  have h : infoPath uid name ≠ socketPath uid name := fun e => nomatch (@FileKind.path_inj uid name name .info .sock e).2
  have h' : infoPath uid name ≠ pidPath uid name := fun e => nomatch (@FileKind.path_inj uid name name .info .pid e).2
  simp [SessionFiles.dir, h, h']

theorem SessionFiles.unlinkAll_dir (f : SessionFiles) :
    unlinkAll (f.dir uid name info) (cleanupSessionFiles uid name) =
      SessionFiles.dir uid name info ⟨none, none, none⟩ := by
  funext q
  by_cases hq : q ∈ cleanupSessionFiles uid name
  · rw [unlinkAll, if_pos hq]
    simp only [cleanupSessionFiles, List.mem_cons, List.mem_singleton, List.not_mem_nil, or_false] at hq
    rcases hq with rfl | rfl | rfl <;> simp [SessionFiles.dir]
  · rw [unlinkAll_of_not_mem hq]
    simp only [cleanupSessionFiles, List.mem_cons, List.mem_singleton, List.not_mem_nil, or_false,
      not_or] at hq
    simp [SessionFiles.dir, hq.1, hq.2.1, hq.2.2]

theorem readPidFile_dir {f : SessionFiles} (h : f.pid.getD 0 < 2 ^ 31) :
    readPidFile (f.pid.map fun p => pidFileText p) = ((f.pid.getD 0 : Nat) : Int) := by
  cases hp : f.pid with
  | none => rfl
  | some p =>
    rw [hp, Option.getD_some] at h
    exact readPidFile_pidFileText (by omega) (by omega)

end

theorem enumerateLoop_unique {uid : UInt32} {alive : Int → Bool} {a : List UInt8} :
    ∀ {es : List (List UInt8)} {fs : Files}, es.Nodup → (∀ x ∈ es, x ≠ a → sessionOfEntry x = none) →
      enumerateLoop uid alive es fs =
        if a ∈ es then ((scanEntry uid alive fs a).1.toList, unlinkAll fs (scanEntry uid alive fs a).2)
        else ([], fs)
  | [], _, _, _ => rfl
  | x :: es, fs, hnd, hx => by
    obtain ⟨hnot, hnd⟩ := List.nodup_cons.1 hnd
    by_cases hxa : x = a
    · subst hxa
      have hrest : ∀ y ∈ es, y ≠ x → sessionOfEntry y = none :=
        fun y hy _ => hx y (List.mem_cons_of_mem _ hy) fun e => hnot (e ▸ hy)
      rw [enumerateLoop, enumerateLoop_unique hnd hrest, if_neg hnot, if_pos (List.mem_cons_self _ _),
        List.append_nil]
    · have hs : scanEntry uid alive fs x = (none, []) := by
        simp only [scanEntry, hx x (List.mem_cons_self _ _) hxa]
      rw [enumerateLoop, enumerateLoop_unique hnd fun y hy => hx y (List.mem_cons_of_mem _ hy), hs,
        unlinkAll_nil]
      simp only [List.mem_cons, Ne.symm hxa, false_or, Option.toList_none, List.nil_append]

theorem scanEntry_dir {uid : UInt32} {name : List UInt8} (hn : validSessionName name)
    (info : Nat → List UInt8) {w : World} (hpid : w.files.pid.getD 0 < 2 ^ 31) :
    scanEntry uid (fun z => w.alive z.toNat) (w.files.dir uid name info) (name ++ ascii ".sock") =
      if w.alive (w.files.pid.getD 0) then
        (some (sessionEntry name (w.files.pid.map fun p => pidFileText p) (w.files.info.map info)), [])
      else (none, cleanupSessionFiles uid name) := by
  have hprobe : (0 < ((w.files.pid.getD 0 : Nat) : Int) &&
      w.alive ((w.files.pid.getD 0 : Nat) : Int).toNat) = w.alive (w.files.pid.getD 0) := by
    simp only [Int.toNat_ofNat, World.alive, Nat.cast_pos, Bool.decide_and, Bool.and_self_left]
  simp only [scanEntry, sessionOfEntry_eq_some.2 ⟨hn, rfl⟩, SessionFiles.dir_pid,
    SessionFiles.dir_info]
  rw [show (sessionEntry name (w.files.pid.map fun p => pidFileText p) (w.files.info.map info)).pid =
    readPidFile (w.files.pid.map fun p => pidFileText p) from rfl, readPidFile_dir hpid, hprobe]

/-! ### The scan refines the registry's `enumerate_sessions` -/

/-- **`enumerate_sessions` over the bytes does what the registry model's does.** Take any world,
the directory its files stand for under a valid name, and the entries `readdir` returns in any
order: distinct, `N.sock` among them exactly when the socket is bound, and no other entry a
session's socket (`.`, `..`, `N.pid`, `N.info` or anything else); the pid in `N.pid` is a `pid_t`,
below `2^31`. The scan, with `process_alive`
the world's liveness, lists exactly the world's live session, with what `N.pid` and `N.info`
hold, and leaves the directory of the world that the registry model's `enumerate_sessions`, run
alone, leaves. -/
theorem enumerate_refines_registry {uid : UInt32} {name : List UInt8} (hn : validSessionName name)
    (info : Nat → List UInt8) (w : World) (hpid : w.files.pid.getD 0 < 2 ^ 31)
    {es : List (List UInt8)} (hnd : es.Nodup) (hsock : name ++ ascii ".sock" ∈ es ↔ w.files.sock.isSome)
    (hes : ∀ x ∈ es, (sessionOfEntry x).isSome → x = name ++ ascii ".sock") :
    enumerateLoop uid (fun z => w.alive z.toNat) es (w.files.dir uid name info) =
      ((w.live.map fun p : Nat => sessionEntry name (some (pidFileText p)) (w.files.info.map info)).toList,
        (w.use (.command .enumerateSessions)).files.dir uid name info) := by
  rw [enumerateLoop_unique hnd fun x hx hne => Option.not_isSome_iff_eq_none.1 fun h => hne (hes x hx h),
    World.use_enumerate_files]
  cases hs : w.files.sock.isSome
  · rw [if_neg fun h => by simpa [hs] using hsock.1 h]
    simp [World.live, hs]
  · rw [if_pos (hsock.2 hs), scanEntry_dir hn _ hpid]
    cases ha : w.alive (w.files.pid.getD 0)
    · have hl : w.live = none := by
        cases hp : w.files.pid <;> simp_all [World.live, Option.filter]
      simp [hl, SessionFiles.unlinkAll_dir]
    · obtain ⟨p, hp⟩ : ∃ p, w.files.pid = some p := by
        cases hp : w.files.pid <;> simp_all [World.alive]
      have hl : w.live = some p := by
        simp only [hp, Option.getD_some] at ha
        simp [World.live, hs, hp, Option.filter, ha]
      simp [hl, hp, unlinkAll_nil]

/-- What `readdir` may return after `cmd_create a`: `.`, `..` and the three files, in an order
that puts `N.info` before the socket. -/
def createdEntries : List (List UInt8) :=
  [ascii ".", ascii "..", ascii "a.info", ascii "a.sock", ascii "a.pid"]

theorem enumerate_refines_registry_created :
    validSessionName (ascii "a") = true ∧
      (World.empty.use (.command .cmdCreate)).files.pid.getD 0 < 2 ^ 31 ∧
      createdEntries.Nodup ∧
      (ascii "a" ++ ascii ".sock" ∈ createdEntries ↔
        (World.empty.use (.command .cmdCreate)).files.sock.isSome) ∧
      (∀ x ∈ createdEntries,
        (sessionOfEntry x).isSome → x = ascii "a" ++ ascii ".sock") ∧
      enumerateLoop 1000 (fun z => (World.empty.use (.command .cmdCreate)).alive z.toNat)
          createdEntries
          ((World.empty.use (.command .cmdCreate)).files.dir 1000 (ascii "a")
            fun k => infoText k 0 0 (ascii "bash")) =
        (((World.empty.use (.command .cmdCreate)).live.map fun p : Nat =>
            sessionEntry (ascii "a") (some (pidFileText p))
              ((World.empty.use (.command .cmdCreate)).files.info.map fun k =>
                infoText k 0 0 (ascii "bash"))).toList,
          ((World.empty.use (.command .cmdCreate)).use (.command .enumerateSessions)).files.dir 1000
            (ascii "a") fun k => infoText k 0 0 (ascii "bash")) := by
  have hn : validSessionName (ascii "a") = true := by decide
  have hpid : (World.empty.use (.command .cmdCreate)).files.pid.getD 0 < 2 ^ 31 := by decide
  have hnd : createdEntries.Nodup := by decide
  have hsock : ascii "a" ++ ascii ".sock" ∈ createdEntries ↔
      (World.empty.use (.command .cmdCreate)).files.sock.isSome := by decide
  have hes : ∀ x ∈ createdEntries,
      (sessionOfEntry x).isSome → x = ascii "a" ++ ascii ".sock" := by decide
  exact ⟨hn, hpid, hnd, hsock, hes, enumerate_refines_registry hn _ _ hpid hnd hsock hes⟩

end GhostlySession
