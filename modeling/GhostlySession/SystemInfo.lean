import GhostlySession.Registry.Enumerate

/-!
# `cmd_info`

`cmd_info` reports the user, the conda environment, the load, the disk use of the home
directory, the user's SLURM jobs and the number of sessions, as `KEY:VALUE` lines or as one JSON
object. What it reads from the system is `InfoEnv`: the two variables, the load text, the
`statvfs` counts, the pipe of each command `popen` runs, and the number of sessions.

* `squeue_user_quoted`: the jobs come from a shell command built with `$USER` in it, and `cmd_info`
  builds it only for a name of the bytes `valid_session_name` lets through. Split at its single
  quotes, the command is the fixed text, then the name alone (cut short only by the 256-byte
  buffer, which then leaves the quote open), then the fixed text.
* `diskPct_exact`: the percentage is computed in `unsigned long long`; it is the used share of the
  blocks, rounded down and at most `100`, as long as `100` times the bytes of the file system fits
  in 64 bits.
* `cmdInfoJson_text_iff`: the JSON report is a JSON text exactly when the user, the environment,
  the load and the jobs line are escapable (valid UTF-8 with no control byte but `\n`, `\r` and
  `\t`), and its value is then `infoDoc`, built with the printer of `Registry/ListJson`
  (`renders_obj`); the converse reads each string back from where it stands quoted in the report
  (`quoted_text_within`, `Escapable.of_quoted_within`).
-/

namespace GhostlySession

/-! ### The `squeue` command -/

/-- `cmd_info`'s check of `$USER` before it builds the `squeue` command: every byte a letter, a
digit, `_`, `-` or `.`, the bytes `valid_session_name` lets through. -/
def userSafe (user : List UInt8) : Bool := user.all nameByte

/-- The command's text before the quoted user name. -/
def squeuePre : List UInt8 := ascii "command -v squeue >/dev/null 2>&1 && squeue -u "

/-- The command's text after the quoted user name. -/
def squeuePost : List UInt8 := ascii " -h 2>/dev/null | wc -l"

/-- `snprintf(squeue_cmd, sizeof(squeue_cmd), "command -v squeue >/dev/null 2>&1 && squeue -u '%s'
-h 2>/dev/null | wc -l", slurm_user)` into `char squeue_cmd[256]`: at most 255 bytes. -/
def squeueCmd (user : List UInt8) : List UInt8 :=
  (squeuePre ++ '\''.toUInt8 :: (user ++ '\''.toUInt8 :: squeuePost)).take 255

/-- The command `cmd_info` hands `popen`: only when `$USER` passes the check. -/
def squeueCall (user : List UInt8) : Option (List UInt8) :=
  if userSafe user then some (squeueCmd user) else none

theorem splitOn_append_quote {a : List UInt8} (ha : '\''.toUInt8 ∉ a) (b : List UInt8) :
    (a ++ '\''.toUInt8 :: b).splitOn '\''.toUInt8 = a :: b.splitOn '\''.toUInt8 :=
  List.splitOnP_first _ a (fun x hx h => ha (by simpa using (beq_iff_eq.1 h) ▸ hx)) _ (by simp) b

theorem splitOn_of_not_mem_quote {a : List UInt8} (ha : '\''.toUInt8 ∉ a) :
    a.splitOn '\''.toUInt8 = [a] :=
  List.splitOnP_eq_single _ a fun x hx h => ha (by simpa using (beq_iff_eq.1 h) ▸ hx)

theorem quote_not_mem_of_userSafe {user : List UInt8} (h : userSafe user) : '\''.toUInt8 ∉ user :=
  fun hq => absurd (List.all_eq_true.1 h _ hq) (by decide)

theorem squeuePre_length : squeuePre.length = 47 := rfl

theorem squeuePost_length : squeuePost.length = 23 := rfl

theorem squeueCmd_eq (user : List UInt8) :
    squeueCmd user = if 207 ≤ user.length then squeuePre ++ '\''.toUInt8 :: user.take 207
      else squeuePre ++ '\''.toUInt8 :: (user ++ '\''.toUInt8 :: squeuePost.take (206 - user.length)) := by
  rw [squeueCmd, List.take_append_eq_append_take, List.take_of_length_le (by rw [squeuePre_length]; omega),
    squeuePre_length, show 255 - 47 = 207 + 1 from rfl, List.take_succ_cons, List.take_append_eq_append_take]
  split_ifs with h
  · rw [Nat.sub_eq_zero_of_le h, List.take_zero, List.append_nil]
  · rw [List.take_of_length_le (by omega), show 207 - user.length = 206 - user.length + 1 by omega,
      List.take_succ_cons]

/-- **`$USER` reaches the shell only quoted.** `cmd_info` runs the `squeue` command only for a
user name of letters, digits, `_`, `-` and `.`. Split at its single quotes, the command is then
the fixed text before the name, a prefix of the name, and, when the quote is closed, a prefix of
the fixed text after it: the name stands alone between the command's two quotes, where the shell
takes every byte as it is, and in full while it has at most 183 bytes; a longer name is cut by the
256-byte buffer, and when the cut falls inside the name, the quote is left open and the shell
runs nothing. -/
theorem squeue_user_quoted {user cmd : List UInt8} (h : squeueCall user = some cmd) :
    (∀ c ∈ user, nameByte c) ∧
      (user.length ≤ 183 → cmd.splitOn '\''.toUInt8 = [squeuePre, user, squeuePost]) ∧
      ∃ u rest, cmd.splitOn '\''.toUInt8 = squeuePre :: u :: rest ∧ u <+: user ∧
        (rest = [] ∨ u = user ∧ ∃ p, rest = [p] ∧ p <+: squeuePost) := by
  unfold squeueCall at h
  split_ifs at h with hs
  cases h
  have hq := quote_not_mem_of_userSafe hs
  have hpre : '\''.toUInt8 ∉ squeuePre := by decide
  have hpost : ∀ k, '\''.toUInt8 ∉ squeuePost.take k :=
    fun k hk => absurd (List.mem_of_mem_take hk) (by decide)
  refine ⟨fun c hc => List.all_eq_true.1 hs c hc, fun hl => ?_, ?_⟩
  · rw [squeueCmd_eq, if_neg (by omega), List.take_of_length_le (by rw [squeuePost_length]; omega),
      splitOn_append_quote hpre, splitOn_append_quote hq, splitOn_of_not_mem_quote (by decide)]
  · rw [squeueCmd_eq]
    split_ifs
    · exact ⟨_, [], by rw [splitOn_append_quote hpre,
        splitOn_of_not_mem_quote fun h' => hq (List.mem_of_mem_take h')], List.take_prefix _ _, .inl rfl⟩
    · exact ⟨user, _, by rw [splitOn_append_quote hpre, splitOn_append_quote hq,
        splitOn_of_not_mem_quote (hpost _)], List.prefix_refl _,
        .inr ⟨rfl, _, rfl, List.take_prefix _ _⟩⟩

theorem squeue_user_quoted_alice :
    squeueCall (ascii "alice") = some (squeueCmd (ascii "alice")) ∧
      (squeueCmd (ascii "alice")).splitOn '\''.toUInt8 = [squeuePre, ascii "alice", squeuePost] :=
  ⟨rfl, (@squeue_user_quoted (ascii "alice") _ rfl).2.1 (by decide)⟩

/-! ### The disk percentage -/

/-- `(int)` of an `unsigned long long`: its low 32 bits, as a signed number. -/
def toCInt (x : UInt64) : Int :=
  if x.toNat % 2 ^ 32 < 2 ^ 31 then x.toNat % 2 ^ 32 else (x.toNat % 2 ^ 32 : Int) - 2 ^ 32

/-- The disk use `cmd_info` reports, from `statvfs`'s `f_blocks`, `f_bavail` and `f_frsize`:
`total` and `avail` in bytes, `(int)(100 * (total - avail) / total)` when `total > 0`, all in
`unsigned long long`. -/
def diskPct (blocks bavail frsize : UInt64) : Option Int :=
  let total := blocks * frsize
  let avail := bavail * frsize
  if 0 < total then some (toCInt (100 * (total - avail) / total)) else none

/-- **The disk percentage, while nothing overflows.** When the file system has blocks, no more of
them are available than there are, and `100` times its bytes fit in 64 bits, `cmd_info` reports
the share of the blocks in use, in percent rounded down, which is at most `100`. -/
theorem diskPct_exact {blocks bavail frsize : UInt64} (hb : 0 < blocks.toNat)
    (hf : 0 < frsize.toNat) (hav : bavail.toNat ≤ blocks.toNat)
    (hov : 100 * (blocks.toNat * frsize.toNat) < 2 ^ 64) :
    diskPct blocks bavail frsize = some ((100 * (blocks.toNat - bavail.toNat) / blocks.toNat : Nat) : Int) ∧
      100 * (blocks.toNat - bavail.toNat) / blocks.toNat ≤ 100 := by
  have hmul : ∀ x y : UInt64, (x * y).toNat = x.toNat * y.toNat % 2 ^ 64 := fun _ _ => rfl
  have htot : (blocks * frsize).toNat = blocks.toNat * frsize.toNat := by
    rw [hmul, Nat.mod_eq_of_lt (by omega)]
  have hle : bavail.toNat * frsize.toNat ≤ blocks.toNat * frsize.toNat := Nat.mul_le_mul_right _ hav
  have hav' : (bavail * frsize).toNat = bavail.toNat * frsize.toNat := by
    rw [hmul, Nat.mod_eq_of_lt (by omega)]
  have hsub : (blocks * frsize - bavail * frsize).toNat = (blocks.toNat - bavail.toNat) * frsize.toNat := by
    rw [UInt64.toNat_sub_of_le _ _ (show (bavail * frsize).toNat ≤ (blocks * frsize).toNat by
      rw [htot, hav']; exact hle), htot, hav', Nat.sub_mul]
  have hused : 100 * ((blocks.toNat - bavail.toNat) * frsize.toNat) < 2 ^ 64 :=
    calc 100 * ((blocks.toNat - bavail.toNat) * frsize.toNat)
        ≤ 100 * (blocks.toNat * frsize.toNat) :=
          Nat.mul_le_mul_left _ (Nat.mul_le_mul_right _ (Nat.sub_le _ _))
      _ < 2 ^ 64 := hov
  have h100 : (100 * (blocks * frsize - bavail * frsize)).toNat =
      100 * ((blocks.toNat - bavail.toNat) * frsize.toNat) := by
    rw [hmul, hsub, show (100 : UInt64).toNat = 100 from rfl, Nat.mod_eq_of_lt hused]
  have hpct : 100 * ((blocks.toNat - bavail.toNat) * frsize.toNat) / (blocks.toNat * frsize.toNat) =
      100 * (blocks.toNat - bavail.toNat) / blocks.toNat := by
    rw [← Nat.mul_assoc, Nat.mul_div_mul_right _ _ hf]
  have hbound : 100 * (blocks.toNat - bavail.toNat) / blocks.toNat ≤ 100 :=
    Nat.div_le_of_le_mul (Nat.mul_comm blocks.toNat 100 ▸ Nat.mul_le_mul_left _ (Nat.sub_le _ _))
  refine ⟨?_, hbound⟩
  have hpos : 0 < blocks * frsize := show 0 < (blocks * frsize).toNat by
    rw [htot]; exact Nat.mul_pos hb hf
  simp only [diskPct, if_pos hpos, toCInt, UInt64.toNat_div, h100, htot, hpct]
  generalize 100 * (blocks.toNat - bavail.toNat) / blocks.toNat = n at hbound ⊢
  rw [if_pos (by omega)]
  congr 1
  omega

theorem diskPct_exact_quarter :
    diskPct 1000 250 4096 = some 75 :=
  (diskPct_exact (by decide) (by decide) (by decide) (by decide)).1

/-- A full file system of `2 ^ 58` bytes: `100 * total` wraps, and the use is reported as `36%`. -/
example : diskPct 70368744177664 0 4096 = some 36 := by decide

/-! ### What `cmd_info` reads and prints -/

/-- What `cmd_info` reads: `getenv("USER")` and `getenv("CONDA_DEFAULT_ENV")`; the text `"%.2f"`
gives the first load average when `getloadavg` returns one; `f_blocks`, `f_bavail` and
`f_frsize` when `HOME` is set and `statvfs` succeeds; what the pipe of a command holds when
`popen` succeeds; and the number of sessions `enumerate_sessions` returns. -/
structure InfoEnv where
  user : Option (List UInt8)
  conda : Option (List UInt8)
  load : Option (List UInt8)
  statvfs : Option (UInt64 × UInt64 × UInt64)
  popen : List UInt8 → Option (List UInt8)
  sessions : Nat

/-- `user`: `$USER`, or `"unknown"`. -/
def InfoEnv.userName (env : InfoEnv) : List UInt8 := env.user.getD (ascii "unknown")

/-- `conda`: `$CONDA_DEFAULT_ENV`, or `"none"`. -/
def InfoEnv.condaName (env : InfoEnv) : List UInt8 := env.conda.getD (ascii "none")

/-- `load_str`: the load, or `"N/A"`. -/
def InfoEnv.loadStr (env : InfoEnv) : List UInt8 := env.load.getD (ascii "N/A")

/-- `disk_str`: `"%d%%"` of the percentage, or `"N/A"` when `statvfs` fails or the file system has
no bytes. -/
def diskStr : Option (UInt64 × UInt64 × UInt64) → List UInt8
  | some (blocks, bavail, frsize) =>
    match diskPct blocks bavail frsize with
    | some pct => signedDecimal pct ++ ascii "%"
    | none => ascii "N/A"
  | none => ascii "N/A"

/-- The trim of the line read from the pipe: `p` skips the leading spaces, and `end` walks back
from the last byte over newlines and spaces while it is past `p`, so `p`'s own byte stays. -/
def trimJobs (line : List UInt8) : List UInt8 :=
  match line.dropWhile (· == ' '.toUInt8) with
  | [] => []
  | b :: bs => b :: (bs.reverse.dropWhile fun c => c == '\n'.toUInt8 || c == ' '.toUInt8).reverse

/-- `slurm_str`: the trimmed first line of what the `squeue` command prints, or `"N/A"` when
`$USER` fails the check, `popen` fails, the pipe is empty or the line is blank. -/
def InfoEnv.jobsStr (env : InfoEnv) : List UInt8 :=
  match squeueCall (cStr env.userName) with
  | none => ascii "N/A"
  | some cmd =>
    match env.popen cmd with
    | none => ascii "N/A"
    | some out =>
      match fgets 64 out with
      | none => ascii "N/A"
      | some (line, _) => if trimJobs (cStr line) = [] then ascii "N/A" else trimJobs (cStr line)

/-- `session_count`: `(int)sessions.size()`. -/
def InfoEnv.sessionCount (env : InfoEnv) : Int := toCInt (UInt64.ofNat env.sessions)

/-- What `cmd_info(false)` prints: one `KEY:VALUE` line a field. -/
def cmdInfoText (env : InfoEnv) : List UInt8 :=
  ascii "USER:" ++ cStr env.userName ++ ascii "\nCONDA:" ++ cStr env.condaName ++ ascii "\nLOAD:" ++
    cStr env.loadStr ++ ascii "\nDISK:" ++ cStr (diskStr env.statvfs) ++ ascii "\nJOBS:" ++
    cStr env.jobsStr ++ ascii "\nMUX:ghostly\nSESSIONS:" ++ signedDecimal env.sessionCount ++
    ascii "\n"

/-- `json_escape(s).c_str()` of a C string `s`. -/
def escapedStr (s : List UInt8) : List UInt8 := cStr (jsonEscape (cStr s))

/-- What `cmd_info(true)` prints: one JSON object. -/
def cmdInfoJson (env : InfoEnv) : List UInt8 :=
  ascii "\x7b\"user\":\"" ++ escapedStr env.userName ++ ascii "\",\"conda\":\"" ++
    escapedStr env.condaName ++ ascii "\",\"load\":\"" ++ escapedStr env.loadStr ++
    ascii "\",\"disk\":\"" ++ escapedStr (diskStr env.statvfs) ++ ascii "\",\"slurm_jobs\":\"" ++
    escapedStr env.jobsStr ++ ascii "\",\"sessions\":" ++ signedDecimal env.sessionCount ++
    ascii ",\"backend\":\"ghostly\"\x7d\n"

/-- `cmd_info(json)`: what it prints; it returns `0`. -/
def cmdInfo (json : Bool) (env : InfoEnv) : List UInt8 :=
  if json then cmdInfoJson env else cmdInfoText env

/-! ### The JSON report -/

/-- The object's members: each key, the text `printf` gives its value, and the value. -/
def infoMembers (env : InfoEnv) : List (List UInt8 × List UInt8 × JsonVal) :=
  [(ascii "user", quoted (cStr env.userName), .str (cStr env.userName)),
    (ascii "conda", quoted (cStr env.condaName), .str (cStr env.condaName)),
    (ascii "load", quoted (cStr env.loadStr), .str (cStr env.loadStr)),
    (ascii "disk", quoted (cStr (diskStr env.statvfs)), .str (cStr (diskStr env.statvfs))),
    (ascii "slurm_jobs", quoted (cStr env.jobsStr), .str (cStr env.jobsStr)),
    (ascii "sessions", signedDecimal env.sessionCount, .num env.sessionCount),
    (ascii "backend", quoted (ascii "ghostly"), .str (ascii "ghostly"))]

/-- The value `cmd_info(true)` prints. -/
def infoDoc (env : InfoEnv) : JsonVal := .obj ((infoMembers env).map fun m => (m.1, m.2.2))

/-- The strings of the report that come from outside the program. -/
def InfoEnv.texts (env : InfoEnv) : List (List UInt8) :=
  [cStr env.userName, cStr env.condaName, cStr env.loadStr, cStr env.jobsStr]

theorem escapedStr_eq (s : List UInt8) : escapedStr s = jsonEscape (cStr s) :=
  cStr_of_not_mem (zero_not_mem_jsonEscape (zero_not_mem_cStr s))

theorem diskStr_ascii (s : Option (UInt64 × UInt64 × UInt64)) :
    ∀ c ∈ diskStr s, c.toNat < 0x80 ∧ jsonSafe c := by
  have hna : ∀ c ∈ ascii "N/A", c.toNat < 0x80 ∧ jsonSafe c := by decide
  rcases s with _ | ⟨blocks, bavail, frsize⟩
  · exact hna
  · cases hp : diskPct blocks bavail frsize with
    | none => simpa only [diskStr, hp] using hna
    | some pct =>
      simp only [diskStr, hp, List.mem_append]
      rintro c (hc | hc)
      · rcases signedDecimal_bytes _ c hc with rfl | hd
        exacts [by decide, isDigit_ascii hd]
      · rw [List.mem_singleton.1 hc]; decide

theorem infoMembers_keys (env : InfoEnv) : ∀ m ∈ infoMembers env, Escapable m.1 := by
  simp only [infoMembers, List.mem_cons, List.mem_singleton, List.not_mem_nil, or_false]
  rintro m (rfl | rfl | rfl | rfl | rfl | rfl | rfl) <;> exact .of_ascii (by dsimp only; decide)

theorem cmdInfoJson_eq (env : InfoEnv) :
    cmdInfoJson env = '{'.toUInt8 :: (commaJoin ((infoMembers env).map fun m =>
      quoted m.1 ++ ':'.toUInt8 :: m.2.1) ++ ['}'.toUInt8]) ++ ['\n'.toUInt8] := by
  simp only [cmdInfoJson, escapedStr_eq, infoMembers, List.map_cons, List.map_nil, commaJoin, quoted,
    List.append_assoc, List.cons_append, List.singleton_append, List.nil_append]
  rfl

theorem cmdInfoJson_text (env : InfoEnv) (h : ∀ t ∈ env.texts, Escapable t) :
    JsonText (cmdInfoJson env) (infoDoc env) := by
  simp only [InfoEnv.texts, List.mem_cons, List.mem_singleton, List.not_mem_nil, or_false,
    forall_eq_or_imp, forall_eq] at h
  obtain ⟨hu, hc, hl, hj⟩ := h
  have hd : Escapable (cStr (diskStr env.statvfs)) :=
    .of_ascii fun c hc => diskStr_ascii _ c (List.takeWhile_sublist _ |>.subset hc)
  refine ⟨_, ['\n'.toUInt8], .nil, ?_, .cons (.inr (.inr (.inl rfl))) .nil⟩
  rw [cmdInfoJson_eq env]
  refine renders_obj _ (infoMembers_keys env) (fun m hm => ?_) _
  simp only [infoMembers, List.mem_cons, List.mem_singleton, List.not_mem_nil, or_false] at hm
  rcases hm with rfl | rfl | rfl | rfl | rfl | rfl | rfl
  exacts [renders_quoted hu, renders_quoted hc, renders_quoted hl, renders_quoted hd,
    renders_quoted hj, renders_signedDecimal _, renders_quoted (.of_ascii (by decide))]

theorem quoted_text_within {env : InfoEnv} {t : List UInt8} (ht : t ∈ env.texts) :
    quoted t <:+: cmdInfoJson env := by
  obtain ⟨k, hk⟩ : ∃ k, (k, quoted t, JsonVal.str t) ∈ infoMembers env := by
    simp only [InfoEnv.texts, List.mem_cons, List.mem_singleton, List.not_mem_nil, or_false] at ht
    rcases ht with rfl | rfl | rfl | rfl
    exacts [⟨ascii "user", by simp only [infoMembers, List.mem_cons, eq_self_iff_true, true_or]⟩,
      ⟨ascii "conda", by simp only [infoMembers, List.mem_cons, eq_self_iff_true, true_or, or_true]⟩,
      ⟨ascii "load", by simp only [infoMembers, List.mem_cons, eq_self_iff_true, true_or, or_true]⟩,
      ⟨ascii "slurm_jobs",
        by simp only [infoMembers, List.mem_cons, eq_self_iff_true, true_or, or_true]⟩]
  rw [cmdInfoJson_eq]
  exact (quoted_infix_obj hk).trans (List.prefix_append _ _).isInfix

/-- **`cmd_info --json` prints JSON exactly when its inputs let it.** The report is a JSON text
exactly when `$USER`, `$CONDA_DEFAULT_ENV`, the load and the jobs line are escapable, valid UTF-8
with no control byte other than `\n`, `\r` and `\t`, and then its value is the object of the user,
the environment, the load, the disk use, the jobs, the number of sessions and the backend as
`cmd_info` computed them. Any other byte in any of them makes the whole output something no JSON
parser accepts. -/
theorem cmdInfoJson_text_iff (env : InfoEnv) :
    (∃ v, JsonText (cmdInfoJson env) v) ↔ JsonText (cmdInfoJson env) (infoDoc env) ∧
      ∀ t ∈ env.texts, Escapable t := by
  refine ⟨fun ⟨_, hv⟩ => ?_, fun h => ⟨_, h.1⟩⟩
  have hsafe : ∀ t ∈ env.texts, Escapable t := fun t ht =>
    .of_quoted_within (quoted_text_within ht) (jsonText_escapable hv)
  exact ⟨cmdInfoJson_text env hsafe, hsafe⟩

end GhostlySession
