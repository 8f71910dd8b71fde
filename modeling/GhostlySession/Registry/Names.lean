import GhostlySession.Registry.Bytes

/-!
# Registry paths and the enumerator's name derivation

A session `N` is registered by three files, `socket_dir()/N.sock`, `N.pid` and `N.info`, where
`socket_dir()` is `/tmp/ghostly-<uid>` as `snprintf` writes it into a 128-byte buffer.
`valid_session_name` accepts 1 to 64 bytes of `[A-Za-z0-9._-]` other than `.` and `..`, and
`enumerate_sessions` derives a name from a directory entry by the last `.sock` in it.

* `socketDir_eq`, `socketDir_length_le`: the uid has at most ten digits, so `snprintf` never
  truncates and the directory has at most 23 bytes.
* `registryPath_leaf`: a path is the directory, `/`, and a leaf with no `/` in it.
* `FileKind.path_inj`: the path determines the name and the kind, for any names: the last byte
  tells the kinds apart, and the rest cancels.
* `sunPath_socketPath`: a valid name's socket path has at most 93 bytes, so `socket_path_fits`
  accepts it and `strncpy` copies it whole into `sun_path`.
* `sessionOfEntry_eq_some`: the enumerator derives `N` from the entry `f` exactly when `N` is
  valid and `f = N ++ ".sock"`; the derivation by `rfind` is held to this by `lastIndex_spec` and
  `lastIndex_eq_of`.
* `naming_scheme` puts these together with the cleanup of a stale entry.
-/

namespace GhostlySession

/-- `MAX_NAME_LEN`. -/
def MAX_NAME_LEN : Nat := 64

/-- The bytes `valid_session_name` lets through: `a`-`z`, `A`-`Z`, `0`-`9`, `-`, `_` and `.`. -/
def nameByte (c : UInt8) : Bool :=
  ('a'.toUInt8 ≤ c && c ≤ 'z'.toUInt8) || ('A'.toUInt8 ≤ c && c ≤ 'Z'.toUInt8) ||
    ('0'.toUInt8 ≤ c && c ≤ '9'.toUInt8) || c == '-'.toUInt8 || c == '_'.toUInt8 || c == '.'.toUInt8

/-- `valid_session_name`. -/
def validSessionName (name : List UInt8) : Bool :=
  if name.isEmpty || name.length > MAX_NAME_LEN then false
  else if name == ascii "." || name == ascii ".." then false
  else name.all nameByte

/-- `socket_dir()`: `snprintf(buf, sizeof(buf), "/tmp/ghostly-%u", (unsigned)my_uid())` into
`char buf[128]`, which keeps at most 127 bytes before the terminating NUL. -/
def socketDir (uid : UInt32) : List UInt8 := (ascii "/tmp/ghostly-" ++ decimal uid.toNat).take 127

/-- `socket_dir() + "/" + name + suffix`, the shape of the three paths of a session. -/
def registryPath (uid : UInt32) (name suffix : List UInt8) : List UInt8 :=
  socketDir uid ++ ascii "/" ++ name ++ suffix

/-- `socket_path`. -/
def socketPath (uid : UInt32) (name : List UInt8) : List UInt8 := registryPath uid name (ascii ".sock")

/-- `pid_path`. -/
def pidPath (uid : UInt32) (name : List UInt8) : List UInt8 := registryPath uid name (ascii ".pid")

/-- `info_path`. -/
def infoPath (uid : UInt32) (name : List UInt8) : List UInt8 := registryPath uid name (ascii ".info")

/-- The three files of a session. -/
inductive FileKind
  | sock
  | pid
  | info
  deriving DecidableEq, Repr

/-- The path of a session's file of kind `k`: `socket_path`, `pid_path` or `info_path`. -/
def FileKind.path (uid : UInt32) (name : List UInt8) : FileKind → List UInt8
  | .sock => socketPath uid name
  | .pid => pidPath uid name
  | .info => infoPath uid name

/-- `cleanup_session_files(name)`: the paths it unlinks, in order. -/
def cleanupSessionFiles (uid : UInt32) (name : List UInt8) : List (List UInt8) :=
  [socketPath uid name, pidPath uid name, infoPath uid name]

/-- `sizeof(addr.sun_path)` on Linux. -/
def SUN_PATH_LEN : Nat := 108

/-- `socket_path_fits`. -/
def socketPathFits (path : List UInt8) : Bool := path.length < SUN_PATH_LEN

/-- `strncpy(dst, src, n)` of the C string `src`: its bytes up to the first NUL, at most `n` of
them, then NULs up to `n`. -/
def strncpy (n : Nat) (src : List UInt8) : List UInt8 :=
  let s := (src.takeWhile (· != 0)).take n
  s ++ List.replicate (n - s.length) 0

/-- `addr.sun_path` after `memset(&addr, 0, sizeof(addr))` and
`strncpy(addr.sun_path, path.c_str(), sizeof(addr.sun_path) - 1)`. -/
def sunPath (path : List UInt8) : List UInt8 := strncpy (SUN_PATH_LEN - 1) path ++ [0]

/-- The last index below `n` where `p` holds. -/
def lastIndex (p : Nat → Bool) : Nat → Option Nat
  | 0 => none
  | n + 1 => if p n then some n else lastIndex p n

/-- `s.rfind(pat)`: the last position at which `pat` occurs in `s`, `none` for `npos`. -/
def rfind (s pat : List UInt8) : Option Nat :=
  lastIndex (fun i => pat.isPrefixOf (s.drop i)) (s.length + 1)

/-- The session `enumerate_sessions` derives from the directory entry `fname`: the text before
the last `.sock`, when that `.sock` ends the entry and the text is a valid name. -/
def sessionOfEntry (fname : List UInt8) : Option (List UInt8) :=
  match rfind fname (ascii ".sock") with
  | none => none
  | some pos =>
    if pos + 5 != fname.length then none
    else if validSessionName (fname.take pos) then some (fname.take pos) else none

/-! ### Valid names -/

theorem validSessionName_iff {name : List UInt8} :
    validSessionName name ↔ name ≠ [] ∧ name.length ≤ MAX_NAME_LEN ∧ name ≠ ascii "." ∧
      name ≠ ascii ".." ∧ ∀ c ∈ name, nameByte c := by
  simp only [validSessionName, Bool.or_eq_true, List.isEmpty_iff, decide_eq_true_eq, beq_iff_eq,
    List.all_eq_true]
  split_ifs with h1 h2
  · simp only [Bool.false_eq_true, false_iff, not_and, not_le]
    rcases h1 with h | h
    · exact fun h' => absurd h h'
    · exact fun _ h' => absurd h (not_lt.2 h')
  · rcases h2 with h | h <;> simp [h]
  · rw [not_or, not_lt] at h1
    rw [not_or] at h2
    rw [List.all_eq_true]
    exact ⟨fun h => ⟨h1.1, h1.2, h2.1, h2.2, h⟩, fun h => h.2.2.2.2⟩

theorem nameByte_ne {c : UInt8} (h : nameByte c) : c ≠ '/'.toUInt8 ∧ c ≠ 0 := by
  constructor <;> rintro rfl <;> exact absurd h (by decide)

/-! ### The directory -/

theorem ascii_dir_length : (ascii "/tmp/ghostly-").length = 13 := rfl

theorem ascii_sock_length : (ascii ".sock").length = 5 := rfl

theorem decimal_uid_length_le (uid : UInt32) : (decimal uid.toNat).length ≤ 10 :=
  decimal_length_le (by norm_num) (lt_of_lt_of_le uid.val.isLt (by decide))

theorem socketDir_eq (uid : UInt32) : socketDir uid = ascii "/tmp/ghostly-" ++ decimal uid.toNat := by
  have := decimal_uid_length_le uid
  exact List.take_of_length_le (by rw [List.length_append, ascii_dir_length]; omega)

theorem socketDir_length_le (uid : UInt32) : (socketDir uid).length ≤ 23 := by
  have := decimal_uid_length_le uid
  rw [socketDir_eq, List.length_append, ascii_dir_length]
  omega

theorem socketDir_ne_zero (uid : UInt32) : 0 ∉ socketDir uid := by
  rw [socketDir_eq, List.mem_append, not_or]
  refine ⟨by decide, fun h => ?_⟩
  have := decimal_isDigit _ _ h
  exact absurd this (by decide)

/-! ### The paths -/

/-- The suffix of each kind of file. -/
def FileKind.suffix : FileKind → List UInt8
  | .sock => ascii ".sock"
  | .pid => ascii ".pid"
  | .info => ascii ".info"

theorem FileKind.path_eq (uid : UInt32) (name : List UInt8) (k : FileKind) :
    k.path uid name = registryPath uid name k.suffix := by
  cases k <;> rfl

theorem FileKind.suffix_ne_nil (k : FileKind) : k.suffix ≠ [] := by cases k <;> decide

theorem FileKind.slash_not_mem_suffix (k : FileKind) : '/'.toUInt8 ∉ k.suffix := by cases k <;> decide

theorem FileKind.eq_of_getLast? {k k' : FileKind} (h : k.suffix.getLast? = k'.suffix.getLast?) :
    k = k' := by
  cases k <;> cases k' <;> first | rfl | exact absurd h (by decide)

theorem registryPath_leaf (uid : UInt32) (name suffix : List UInt8) :
    registryPath uid name suffix = socketDir uid ++ ascii "/" ++ (name ++ suffix) := by
  simp [registryPath]

/-- **The path determines the name and the kind**, whatever the names: two suffixes of different
kinds end in different bytes (`k`, `d`, `o`). -/
theorem FileKind.path_inj {uid : UInt32} {name name' : List UInt8} {k k' : FileKind}
    (h : k.path uid name = k'.path uid name') : name = name' ∧ k = k' := by
  rw [FileKind.path_eq, FileKind.path_eq, registryPath_leaf, registryPath_leaf] at h
  have hleaf := List.append_cancel_left h
  have hk : k = k' := FileKind.eq_of_getLast? (by
    simpa only [List.getLast?_append_of_ne_nil _ k.suffix_ne_nil,
      List.getLast?_append_of_ne_nil _ k'.suffix_ne_nil] using congrArg List.getLast? hleaf)
  subst hk
  exact ⟨List.append_cancel_right hleaf, rfl⟩

theorem socketPath_length_le {uid : UInt32} {name : List UInt8} (h : validSessionName name) :
    (socketPath uid name).length ≤ 93 := by
  have hd := socketDir_length_le uid
  have hn := (validSessionName_iff.1 h).2.1
  simp only [socketPath, registryPath, List.length_append, MAX_NAME_LEN] at hn ⊢
  rw [show (ascii "/").length = 1 from rfl, ascii_sock_length]
  omega

theorem socketPath_ne_zero {uid : UInt32} {name : List UInt8} (h : validSessionName name) :
    0 ∉ socketPath uid name := by
  have hn := (validSessionName_iff.1 h).2.2.2.2
  simp only [socketPath, registryPath, List.mem_append, not_or]
  exact ⟨⟨⟨socketDir_ne_zero uid, by decide⟩, fun h0 => (nameByte_ne (hn 0 h0)).2 rfl⟩, by decide⟩

theorem strncpy_of_le {n : Nat} {src : List UInt8} (h0 : 0 ∉ src) (hn : src.length ≤ n) :
    strncpy n src = src ++ List.replicate (n - src.length) 0 := by
  have hw : src.takeWhile (· != 0) = src :=
    List.takeWhile_eq_self_iff.2 fun x hx => bne_iff_ne.2 fun h => h0 (h ▸ hx)
  simp only [strncpy, hw, List.take_of_length_le hn]

/-- **A valid name's socket address is its path, whole.** `socket_path_fits` accepts the path,
and `sun_path` holds it followed by NULs. -/
theorem sunPath_socketPath {uid : UInt32} {name : List UInt8} (h : validSessionName name) :
    socketPathFits (socketPath uid name) ∧
      sunPath (socketPath uid name) =
        socketPath uid name ++ List.replicate (SUN_PATH_LEN - (socketPath uid name).length) 0 := by
  have hl := @socketPath_length_le uid _ h
  refine ⟨by simp only [socketPathFits, SUN_PATH_LEN, decide_eq_true_eq]; omega, ?_⟩
  have hn : SUN_PATH_LEN - 1 - (socketPath uid name).length + 1 =
      SUN_PATH_LEN - (socketPath uid name).length := by simp only [SUN_PATH_LEN]; omega
  rw [sunPath, strncpy_of_le (socketPath_ne_zero h) (by simp only [SUN_PATH_LEN]; omega),
    List.append_assoc, ← List.replicate_succ', hn]

/-! ### The enumerator's derivation -/

theorem lastIndex_spec {p : Nat → Bool} : ∀ {n i : Nat}, lastIndex p n = some i → i < n ∧ p i
  | 0, _, h => nomatch h
  | n + 1, i, h => by
    simp only [lastIndex] at h
    split_ifs at h with hp
    · cases h
      exact ⟨Nat.lt_succ_self n, hp⟩
    · exact (lastIndex_spec h).imp (fun h => Nat.lt_succ_of_lt h) id

theorem lastIndex_eq_of {p : Nat → Bool} {i : Nat} (hp : p i) :
    ∀ {n : Nat}, i < n → (∀ j, i < j → j < n → p j = false) → lastIndex p n = some i
  | 0, hi, _ => absurd hi (Nat.not_lt_zero i)
  | n + 1, hi, hj => by
    rcases Nat.lt_succ_iff_lt_or_eq.1 hi with hi | rfl
    · rw [lastIndex, if_neg (by rw [hj n hi (Nat.lt_succ_self n)]; decide)]
      exact lastIndex_eq_of hp hi fun j h1 h2 => hj j h1 (Nat.lt_succ_of_lt h2)
    · rw [lastIndex, if_pos hp]

theorem rfind_sock {name : List UInt8} : rfind (name ++ ascii ".sock") (ascii ".sock") = some name.length := by
  refine lastIndex_eq_of (by simp) (by simp only [List.length_append, ascii_sock_length]; omega)
    fun j hj _ => ?_
  rw [Bool.eq_false_iff]
  intro hp
  have := (List.isPrefixOf_iff_prefix.1 hp).length_le
  simp only [List.length_drop, List.length_append, ascii_sock_length] at this
  omega

/-- **The enumerator inverts the naming.** A directory entry gives a session exactly when it is a
valid name followed by `.sock`, and then it gives that name. -/
theorem sessionOfEntry_eq_some {fname name : List UInt8} :
    sessionOfEntry fname = some name ↔ validSessionName name ∧ fname = name ++ ascii ".sock" := by
  constructor
  · unfold sessionOfEntry
    split
    · nofun
    · rename_i pos hpos
      have ⟨_, hp⟩ := lastIndex_spec hpos
      split_ifs with hlen hv
      · nofun
      · rintro ⟨⟩
        simp only [bne_iff_ne, ne_eq, Decidable.not_not] at hlen
        have hdrop : fname.drop pos = ascii ".sock" :=
          ((List.isPrefixOf_iff_prefix.1 hp).eq_of_length (by simp [← hlen]; rfl)).symm
        exact ⟨hv, by rw [← hdrop, List.take_append_drop]⟩
      · nofun
  · rintro ⟨hv, rfl⟩
    simp [sessionOfEntry, rfind_sock, hv, ascii_sock_length]

/-! ### The scheme as a whole -/

/-- **The registry's naming scheme.** For every uid: (1) each of a valid name's three paths is the
directory, `/`, and a leaf without `/`; (2) the path determines the name and the kind; (3) a valid
name's socket path passes `socket_path_fits` and reaches `sun_path` whole; (4) the enumerator
derives `N` from an entry exactly when `N` is valid and the entry is `N.sock`, and the files its
cleanup unlinks are `N`'s three and no file of another name. -/
theorem naming_scheme (uid : UInt32) :
    (∀ name (k : FileKind), validSessionName name → ∃ leaf, k.path uid name = socketDir uid ++ ascii "/" ++ leaf ∧
      '/'.toUInt8 ∉ leaf) ∧
    (∀ name name' (k k' : FileKind), k.path uid name = FileKind.path uid name' k' → name = name' ∧ k = k') ∧
    (∀ name, validSessionName name → socketPathFits (socketPath uid name) ∧
      sunPath (socketPath uid name) =
        socketPath uid name ++ List.replicate (SUN_PATH_LEN - (socketPath uid name).length) 0) ∧
    (∀ fname name, sessionOfEntry fname = some name ↔
      validSessionName name ∧ fname = name ++ ascii ".sock") ∧
    (∀ fname name, sessionOfEntry fname = some name →
      cleanupSessionFiles uid name = [FileKind.sock, .pid, .info].map (FileKind.path uid name) ∧
      ∀ name' (k : FileKind), k.path uid name' ∈ cleanupSessionFiles uid name → name' = name) := by
  refine ⟨fun name k h => ⟨name ++ k.suffix, ?_, ?_⟩, fun _ _ _ _ h => FileKind.path_inj h,
    fun _ h => sunPath_socketPath h, fun _ _ => sessionOfEntry_eq_some,
    fun _ name _ => ⟨rfl, fun name' k hk => ?_⟩⟩
  · rw [FileKind.path_eq, registryPath_leaf]
  · have hn := (validSessionName_iff.1 h).2.2.2.2
    rw [List.mem_append, not_or]
    exact ⟨fun h' => (nameByte_ne (hn _ h')).1 rfl, k.slash_not_mem_suffix⟩
  · simp only [cleanupSessionFiles, List.mem_cons, List.mem_singleton, List.not_mem_nil,
      or_false] at hk
    rcases hk with hk | hk | hk
    · exact (@FileKind.path_inj _ _ _ _ .sock hk).1
    · exact (@FileKind.path_inj _ _ _ _ .pid hk).1
    · exact (@FileKind.path_inj _ _ _ _ .info hk).1

end GhostlySession
