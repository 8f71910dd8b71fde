import GhostlySession.Registry.ListJson

/-!
# `enumerate_sessions` over the files it reads

`enumerate_sessions` takes the entries `readdir` returns one at a time. For an entry `N.sock`
with `N` valid (`sessionOfEntry`) it reads `N.pid` (`read_pid_file`) and `N.info` (the parser of
`Registry/InfoText`) into a `SessionInfo` (`sessionEntry`); it keeps the session when the pid is
positive and alive, and otherwise unlinks the session's three files before it goes on
(`scanEntry` for one entry, `enumerateLoop` for the loop, over the directory as a map from paths
to contents).

* `readPidFile_pidFileText`, `sessionEntry_written`: what the daemon writes, `N.pid` and `N.info`,
  is read back, within the bounds of the info file's round trip.
* `scanEntry_cases`, `enumerateLoop_eq`: a turn skips, lists or cleans up, and a cleanup unlinks
  only its own name's files (`FileKind.path_inj`), so over distinct entries the loop is each
  entry's turn on the directory as it was when the scan began.
* `created_session_listed`: a session whose files its daemon wrote, with a live pid, is listed
  with its pid, client count, creation time and command.
* `enumerateLoop_wellFormed`, `cmdList_json_iff`: every listed session has a valid name and a
  command without NUL, so `cmd_list --json` prints a JSON text exactly when every listed command is
  valid UTF-8 with no control byte other than the three `json_escape` escapes.
-/

namespace GhostlySession

/-! ### The files of a session -/

/-- `write_pid_file`: `fprintf(f, "%d\n", pid)`. -/
def pidFileText (pid : Int) : List UInt8 := signedDecimal pid ++ ascii "\n"

/-- `read_pid_file`: `0` when the file does not open; otherwise `fscanf(f, "%d", &pid)`, which
skips white space, reads a sign and digits with `strtol` and stores the value in an `int`, as
`atoi` does, and leaves `0` when there are none. -/
def readPidFile : Option (List UInt8) → Int
  | none => 0
  | some text => atoi text

/-- The entry `enumerate_sessions` builds for the session `name` from `N.pid` and `N.info`: the
defaults `0`, `0` and `bash` stand for what the info file does not set, all of it when the file
does not open. -/
def sessionEntry (name : List UInt8) (pidFile infoFile : Option (List UInt8)) : SessionInfo :=
  let f := (infoFile.map readInfoFile).getD .init
  ⟨name, readPidFile pidFile, f.clients, f.created, f.command⟩

theorem readPidFile_pidFileText {pid : Int} (h : -2 ^ 31 ≤ pid) (h' : pid < 2 ^ 31) :
    readPidFile (some (pidFileText pid)) = pid :=
  atoi_signedDecimal h h' []

/-- **What the daemon writes is what the scan reads.** The entry of `N.pid` and `N.info` as
`run_server` writes them holds the daemon's pid and the fields it recorded, for a pid and a client
count that fit in an `int`, a creation time that fits in a `long`, and a command of at most 507
bytes with no newline, no NUL and no trailing `\r`. -/
theorem sessionEntry_written {name cmd : List UInt8} {pid clients created : Int}
    (hpid : -2 ^ 31 ≤ pid ∧ pid < 2 ^ 31) (hcl : -2 ^ 31 ≤ clients ∧ clients < 2 ^ 31)
    (hcr : -2 ^ 63 ≤ created ∧ created < 2 ^ 63)
    (hnl : '\n'.toUInt8 ∉ cmd) (h0 : 0 ∉ cmd) (hlast : ∀ b ∈ cmd.getLast?, b ≠ '\r'.toUInt8)
    (hlen : cmd.length ≤ 507) :
    sessionEntry name (some (pidFileText pid)) (some (infoText pid clients created cmd)) =
      ⟨name, pid, clients, created, cmd⟩ := by
  simp only [sessionEntry, Option.map_some', Option.getD_some, readPidFile_pidFileText hpid.1 hpid.2,
    readInfoFile_infoText (by omega : pid.natAbs ≤ 2 ^ 63) hcl hcr hnl h0 hlast hlen]

/-! ### The scan -/

/-- The socket directory, as a map from paths to contents. -/
abbrev Files := List UInt8 → Option (List UInt8)

/-- `unlink(path)` of each path in turn. -/
def unlinkAll (fs : Files) (paths : List (List UInt8)) : Files :=
  fun q => if q ∈ paths then none else fs q

theorem unlinkAll_of_not_mem {fs : Files} {paths : List (List UInt8)} {q : List UInt8}
    (h : q ∉ paths) : unlinkAll fs paths q = fs q :=
  if_neg h

theorem unlinkAll_nil (fs : Files) : unlinkAll fs [] = fs :=
  funext fun _ => unlinkAll_of_not_mem (List.not_mem_nil _)

theorem unlinkAll_unlinkAll (fs : Files) (ps qs : List (List UInt8)) :
    unlinkAll (unlinkAll fs ps) qs = unlinkAll fs (ps ++ qs) := by
  funext q
  by_cases hq : q ∈ qs <;> by_cases hp : q ∈ ps <;> simp [unlinkAll, hp, hq]

/-- One turn of `enumerate_sessions`' loop on the entry `fname`, in the directory `fs`: the session
it lists, if any, and the paths it unlinks. An entry that is not a valid name's socket is
skipped; the session of a pid that is positive and alive (`process_alive`) is listed; any other
has its three files unlinked by `cleanup_session_files`. -/
def scanEntry (uid : UInt32) (alive : Int → Bool) (fs : Files) (fname : List UInt8) :
    Option SessionInfo × List (List UInt8) :=
  match sessionOfEntry fname with
  | none => (none, [])
  | some name =>
    let si := sessionEntry name (fs (pidPath uid name)) (fs (infoPath uid name))
    if 0 < si.pid && alive si.pid then (some si, []) else (none, cleanupSessionFiles uid name)

/-- `enumerate_sessions`' loop over the entries `readdir` returns: the sessions it lists, in order,
and the directory it leaves, each turn reading the directory the turns before it left. -/
def enumerateLoop (uid : UInt32) (alive : Int → Bool) :
    List (List UInt8) → Files → List SessionInfo × Files
  | [], fs => ([], fs)
  | fname :: rest, fs =>
    let r := scanEntry uid alive fs fname
    let t := enumerateLoop uid alive rest (unlinkAll fs r.2)
    (r.1.toList ++ t.1, t.2)

theorem path_not_mem_cleanup {uid : UInt32} {name name' : List UInt8} (k : FileKind)
    (h : name' ≠ name) : k.path uid name' ∉ cleanupSessionFiles uid name := by
  simp only [cleanupSessionFiles, List.mem_cons, List.mem_singleton, List.not_mem_nil, or_false]
  rintro (e | e | e)
  exacts [h (@FileKind.path_inj _ _ _ k .sock e).1, h (@FileKind.path_inj _ _ _ k .pid e).1,
    h (@FileKind.path_inj _ _ _ k .info e).1]

theorem sessionOfEntry_inj {fname fname' name : List UInt8} (h : sessionOfEntry fname = some name)
    (h' : sessionOfEntry fname' = some name) : fname = fname' :=
  (sessionOfEntry_eq_some.1 h).2.trans (sessionOfEntry_eq_some.1 h').2.symm

theorem scanEntry_congr {uid : UInt32} {alive : Int → Bool} {fs fs' : Files} {fname : List UInt8}
    (h : ∀ name, sessionOfEntry fname = some name →
      ∀ k : FileKind, fs' (k.path uid name) = fs (k.path uid name)) :
    scanEntry uid alive fs' fname = scanEntry uid alive fs fname := by
  unfold scanEntry
  cases hs : sessionOfEntry fname with
  | none => rfl
  | some name => simp only [show pidPath uid name = FileKind.pid.path uid name from rfl,
      show infoPath uid name = FileKind.info.path uid name from rfl, h name hs]

/-- **What one turn can do**: skip the entry, list its session, or unlink its session's files. -/
theorem scanEntry_cases (uid : UInt32) (alive : Int → Bool) (fs : Files) (fname : List UInt8) :
    (sessionOfEntry fname = none ∧ scanEntry uid alive fs fname = (none, [])) ∨
      ∃ name, sessionOfEntry fname = some name ∧
      (scanEntry uid alive fs fname =
          (some (sessionEntry name (fs (pidPath uid name)) (fs (infoPath uid name))), []) ∨
        scanEntry uid alive fs fname = (none, cleanupSessionFiles uid name)) := by
  unfold scanEntry
  cases sessionOfEntry fname with
  | none => exact .inl ⟨rfl, rfl⟩
  | some name =>
    refine .inr ⟨name, rfl, ?_⟩
    dsimp only
    split
    · exact .inl rfl
    · exact .inr rfl

/-- **The scan, exactly.** Over distinct entries, from a directory `fs'` that agrees with `fs` on
the files of the entries' sessions, `enumerate_sessions` lists the sessions each entry gives in
`fs`, and leaves `fs'` with the files of the stale ones unlinked: a cleanup never reaches another
session's files, so no turn sees what an earlier one did. -/
theorem enumerateLoop_eq {uid : UInt32} {alive : Int → Bool} {fs : Files} :
    ∀ {entries : List (List UInt8)} {fs' : Files}, entries.Nodup →
      (∀ fname ∈ entries, ∀ name, sessionOfEntry fname = some name →
        ∀ k : FileKind, fs' (k.path uid name) = fs (k.path uid name)) →
      enumerateLoop uid alive entries fs' =
        (entries.filterMap fun f => (scanEntry uid alive fs f).1,
          unlinkAll fs' (entries.flatMap fun f => (scanEntry uid alive fs f).2))
  | [], fs', _, _ => by rw [enumerateLoop, List.filterMap_nil, List.flatMap_nil, unlinkAll_nil]
  | fname :: rest, fs', hnd, hag => by
    obtain ⟨hnot, hnd⟩ := List.nodup_cons.1 hnd
    have hr := @scanEntry_congr uid alive fs fs' fname (hag fname (List.mem_cons_self _ _))
    have hrest : ∀ f ∈ rest, ∀ name, sessionOfEntry f = some name → ∀ k : FileKind,
        unlinkAll fs' (scanEntry uid alive fs fname).2 (k.path uid name) = fs (k.path uid name) := by
      intro f hf name hs k
      rw [← hag f (List.mem_cons_of_mem _ hf) name hs k]
      refine unlinkAll_of_not_mem ?_
      rcases scanEntry_cases uid alive fs fname with ⟨-, e⟩ | ⟨name', hs', e | e⟩ <;> rw [e]
      · exact List.not_mem_nil _
      · exact List.not_mem_nil _
      · exact path_not_mem_cleanup k fun e => hnot (sessionOfEntry_inj hs' (e ▸ hs) ▸ hf)
    rw [enumerateLoop, hr, enumerateLoop_eq hnd hrest, unlinkAll_unlinkAll, List.filterMap_cons,
      List.flatMap_cons]
    cases (scanEntry uid alive fs fname).1 <;> rfl

/-- **A session just created is listed.** When `N.sock` is among distinct entries, `N.pid` and
`N.info` hold what the daemon wrote, and its pid, a `pid_t`, is alive, `enumerate_sessions` lists
`N` with the daemon's pid and the client count, creation time and command it recorded. -/
theorem created_session_listed {uid : UInt32} {alive : Int → Bool} {fs : Files}
    {entries : List (List UInt8)} {name cmd : List UInt8} {pid clients created : Int}
    (hnd : entries.Nodup) (hn : validSessionName name) (he : name ++ ascii ".sock" ∈ entries)
    (hpf : fs (pidPath uid name) = some (pidFileText pid))
    (hif : fs (infoPath uid name) = some (infoText pid clients created cmd))
    (hp : 0 < pid) (ha : alive pid) (hpid : pid < 2 ^ 31)
    (hcl : -2 ^ 31 ≤ clients ∧ clients < 2 ^ 31) (hcr : -2 ^ 63 ≤ created ∧ created < 2 ^ 63)
    (hnl : '\n'.toUInt8 ∉ cmd) (h0 : 0 ∉ cmd) (hlast : ∀ b ∈ cmd.getLast?, b ≠ '\r'.toUInt8)
    (hlen : cmd.length ≤ 507) :
    ⟨name, pid, clients, created, cmd⟩ ∈ (enumerateLoop uid alive entries fs).1 := by
  rw [enumerateLoop_eq hnd fun _ _ _ _ _ => rfl]
  refine List.mem_filterMap.2 ⟨_, he, ?_⟩
  simp only [scanEntry, sessionOfEntry_eq_some.2 ⟨hn, rfl⟩, hpf, hif,
    sessionEntry_written ⟨by omega, hpid⟩ hcl hcr hnl h0 hlast hlen, hp, ha, decide_True, Bool.and_self,
    if_true]

/-! ### What `cmd_list` prints of the scan -/

theorem zero_not_mem_trimNewlines {s : List UInt8} (h : 0 ∉ s) : 0 ∉ trimNewlines s := fun h' =>
  h (List.mem_reverse.1 ((List.dropWhile_suffix _).subset (List.mem_reverse.1 h')))

theorem zero_not_mem_cStr (s : List UInt8) : 0 ∉ cStr s := fun h => by
  simpa using List.mem_takeWhile_imp h

theorem parseLine_command_zero (line : List UInt8) {si : SessionFields} (h : 0 ∉ si.command) :
    0 ∉ (parseLine line si).command := by
  unfold parseLine
  split_ifs
  · exact h
  · exact h
  · exact zero_not_mem_trimNewlines fun h' => zero_not_mem_cStr line (List.mem_of_mem_drop h')
  · exact h

theorem readInfo_command_zero : ∀ (fuel : Nat) (file : List UInt8) {si : SessionFields},
    0 ∉ si.command → 0 ∉ (readInfo fuel file si).command
  | 0, _, _, h => h
  | fuel + 1, file, si, h => by
    rw [readInfo]
    split
    · exact h
    · exact readInfo_command_zero fuel _ (parseLine_command_zero _ h)

theorem enumerateLoop_wellFormed {uid : UInt32} {alive : Int → Bool} :
    ∀ (entries : List (List UInt8)) (fs : Files), ∀ si ∈ (enumerateLoop uid alive entries fs).1,
      validSessionName si.name ∧ 0 ∉ si.command
  | [], _ => nofun
  | fname :: rest, fs => fun si hsi => by
    rcases List.mem_append.1 hsi with hsi | hsi
    · rcases scanEntry_cases uid alive fs fname with ⟨-, e⟩ | ⟨name, hs, e | e⟩ <;>
        rw [e] at hsi <;> simp only [Option.toList_some, Option.toList_none, List.mem_singleton,
          List.not_mem_nil] at hsi
      subst hsi
      refine ⟨(sessionOfEntry_eq_some.1 hs).1, ?_⟩
      have hbash : (0 : UInt8) ∉ SessionFields.init.command := by decide
      cases fs (infoPath uid name) with
      | none => exact hbash
      | some text => exact readInfo_command_zero _ _ hbash
    · exact enumerateLoop_wellFormed rest _ si hsi

/-- **When `cmd_list --json` prints JSON.** For every directory and every liveness of the pids,
the output of `cmd_list --json` is a JSON text exactly when every session it lists has an
escapable command: valid UTF-8 with no control byte other than `\n`, `\r` and `\t`. Its value is
then `sessionsDoc`, the sessions' names, pids, counts and commands as read. -/
theorem cmdList_json_iff (uid : UInt32) (alive : Int → Bool) (entries : List (List UInt8))
    (fs : Files) :
    (∃ v, JsonText (cmdListJson (enumerateLoop uid alive entries fs).1) v) ↔
      JsonText (cmdListJson (enumerateLoop uid alive entries fs).1)
          (sessionsDoc (enumerateLoop uid alive entries fs).1) ∧
        ∀ si ∈ (enumerateLoop uid alive entries fs).1, Escapable si.command :=
  cmdListJson_text_iff _ (fun si h => (enumerateLoop_wellFormed entries fs si h).1)
    (fun si h => (enumerateLoop_wellFormed entries fs si h).2)

end GhostlySession
