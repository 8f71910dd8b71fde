import GhostlySession.Registry.Bytes

/-!
# The info file through `enumerate_sessions`

`write_info_file` writes `pid=%d\nclients=%d\ncreated=%ld\ncmd=%s\n`, with the command that
`run_server` records: the text `collect_cmd` builds from the arguments after `--`, or `bash`.
`enumerate_sessions` reads the file back line by line with `fgets` into `char line[512]`, and
for each line compares the prefixes `clients=`, `created=` and `cmd=` in turn: `atoi` or `atol`
reads a number, and the command is the rest of the line with its trailing `\n` and `\r` removed.

* `fgets_line`: a line shorter than the buffer is read whole, with its newline.
* `atoi`, `atol`: glibc's `strtol`, whose value saturates at the bounds of a `long`, and for
  `atoi` its conversion to `int`, which keeps the low 32 bits.
* `atoi_signedDecimal`, `atol_signedDecimal`, `trimNewlines_append_newline`: a printed number in
  the range of the type it is read into is read back, and a command without a trailing `\r` loses
  only its newline.
* `readInfoFile_infoText`: the round trip, for a client count that fits in an `int`, a creation
  time that fits in a `long`, and a command with no newline, no trailing `\r`, and at most 507
  bytes, so that the line `cmd=...` fits in the buffer but for its newline.

A command is a line of the file, so a newline in an argument ends it early, and the rest of the
command is read as further lines: `infoText_command_split` is the command `a\nb`, read back as
`a`.
-/

namespace GhostlySession

/-! ### Writing -/

/-- `%d` and `%ld`: a minus sign before the digits of a negative value. -/
def signedDecimal (z : Int) : List UInt8 :=
  if z < 0 then '-'.toUInt8 :: decimal z.natAbs else decimal z.natAbs

/-- The bytes of a `std::string` that `%s` prints through `c_str()`: those before the first NUL. -/
def cStr (s : List UInt8) : List UInt8 := s.takeWhile (· != 0)

/-- The text `write_info_file(path, pid, clients, created, cmd)` writes. -/
def infoText (pid clients created : Int) (cmd : List UInt8) : List UInt8 :=
  ascii "pid=" ++ signedDecimal pid ++ ascii "\nclients=" ++ signedDecimal clients ++
    ascii "\ncreated=" ++ signedDecimal created ++ ascii "\ncmd=" ++ cStr cmd ++ ascii "\n"

/-- `collect_cmd`: the arguments after `--`, with a space before each one that follows a
non-empty text. -/
def collectCmd (args : List (List UInt8)) : List UInt8 :=
  args.foldl (fun cmd a => (if cmd.isEmpty then cmd else cmd ++ [' '.toUInt8]) ++ a) []

/-- `srv.command`, the command `run_server` records: `bash` for an empty one. -/
def serverCommand (cmd : List UInt8) : List UInt8 := if cmd.isEmpty then ascii "bash" else cmd

/-! ### Reading -/

/-- What `fgets` takes of the file with room for `k` bytes: up to and including a newline. -/
def takeLine : Nat → List UInt8 → List UInt8
  | 0, _ => []
  | _, [] => []
  | k + 1, b :: bs => if b = '\n'.toUInt8 then [b] else b :: takeLine k bs

/-- `fgets(line, n, f)` on what is left of the file: `none` at its end, otherwise the line read
and what is left after it. -/
def fgets (n : Nat) (file : List UInt8) : Option (List UInt8 × List UInt8) :=
  if file = [] then none
  else some (takeLine (n - 1) file, file.drop (takeLine (n - 1) file).length)

/-- `isspace`: space, `\t`, `\n`, `\v`, `\f` and `\r`. -/
def isSpace (b : UInt8) : Bool := b.toNat == 32 || (9 ≤ b.toNat && b.toNat ≤ 13)

/-- The number `strtol` reads before it bounds it: white space, an optional sign, then digits;
`0` when there are none. -/
def readSigned (s : List UInt8) : Int :=
  match s.dropWhile isSpace with
  | b :: bs =>
    if b = '-'.toUInt8 then -(readDigits 0 bs : Int)
    else if b = '+'.toUInt8 then readDigits 0 bs
    else readDigits 0 (b :: bs)
  | [] => 0

/-- A value out of a `long`'s range saturates at `LONG_MIN` or `LONG_MAX`, as `strtol` returns it. -/
def clampLong (z : Int) : Int := max (-2 ^ 63) (min z (2 ^ 63 - 1))

/-- The conversion of a `long` to `int`: its low 32 bits, read as a signed number. -/
def wrapInt (z : Int) : Int := (z + 2 ^ 31) % 2 ^ 32 - 2 ^ 31

/-- `strtol(s, NULL, 10)`. -/
def strtol (s : List UInt8) : Int := clampLong (readSigned s)

/-- `atoi`: glibc's `(int) strtol(s, NULL, 10)`. -/
def atoi (s : List UInt8) : Int := wrapInt (strtol s)

/-- `atol`: `strtol(s, NULL, 10)`, a `long`. -/
def atol (s : List UInt8) : Int := strtol s

/-- The command with its trailing `\n` and `\r` removed, as the `pop_back` loop does. -/
def trimNewlines (s : List UInt8) : List UInt8 :=
  (s.reverse.dropWhile fun b => b == '\n'.toUInt8 || b == '\r'.toUInt8).reverse

/-- The fields of `SessionInfo` that the info file sets. -/
structure SessionFields where
  clients : Int
  created : Int
  command : List UInt8
  deriving DecidableEq, Repr

/-- The defaults `enumerate_sessions` sets before it opens the file. -/
def SessionFields.init : SessionFields := ⟨0, 0, ascii "bash"⟩

/-- One line of the loop, read as a C string: `strncmp` against `clients=`, `created=` and
`cmd=` in turn. -/
def parseLine (line : List UInt8) (si : SessionFields) : SessionFields :=
  if (ascii "clients=").isPrefixOf (cStr line) then { si with clients := atoi ((cStr line).drop 8) }
  else if (ascii "created=").isPrefixOf (cStr line) then
    { si with created := atol ((cStr line).drop 8) }
  else if (ascii "cmd=").isPrefixOf (cStr line) then
    { si with command := trimNewlines ((cStr line).drop 4) }
  else si

/-- The loop `while (fgets(line, sizeof(line), f))`, for at most `fuel` lines. -/
def readInfo : Nat → List UInt8 → SessionFields → SessionFields
  | 0, _, si => si
  | fuel + 1, file, si =>
    match fgets 512 file with
    | none => si
    | some (line, rest) => readInfo fuel rest (parseLine line si)

/-- The fields `enumerate_sessions` reads from an info file. Every line takes at least a byte
(`readInfo_fuel`), so the file's length is enough fuel. -/
def readInfoFile (file : List UInt8) : SessionFields := readInfo file.length file .init

/-! ### `fgets` -/

theorem takeLine_ne_nil {k : Nat} {file : List UInt8} (hk : 0 < k) (h : file ≠ []) :
    takeLine k file ≠ [] := by
  obtain ⟨k, rfl⟩ := Nat.exists_eq_add_of_lt hk
  obtain ⟨b, bs, rfl⟩ := List.exists_cons_of_ne_nil h
  simp only [Nat.zero_add, takeLine]
  split <;> simp

theorem fgets_rest_length {file line rest : List UInt8} (h : fgets 512 file = some (line, rest)) :
    rest.length < file.length := by
  unfold fgets at h
  split_ifs at h with h0
  cases h
  have := List.length_pos.2 (takeLine_ne_nil (show 0 < 512 - 1 by norm_num) h0)
  have := List.length_pos.2 h0
  simp only [List.length_drop]
  omega

theorem readInfo_fuel : ∀ {f₁ f₂ : Nat} {file : List UInt8} (si : SessionFields),
    file.length ≤ f₁ → file.length ≤ f₂ → readInfo f₁ file si = readInfo f₂ file si
  | 0, 0, _, _, _, _ => rfl
  | f₁ + 1, 0, file, si, _, h₂ | 0, f₁ + 1, file, si, h₂, _ => by
    obtain rfl : file = [] := List.eq_nil_of_length_eq_zero (by omega)
    simp [readInfo, fgets]
  | f₁ + 1, f₂ + 1, file, si, h₁, h₂ => by
    simp only [readInfo]
    split
    · rfl
    · rename_i line rest h
      have := fgets_rest_length h
      exact readInfo_fuel _ (by omega) (by omega)

theorem takeLine_line {l rest : List UInt8} (hl : '\n'.toUInt8 ∉ l) :
    ∀ {k : Nat}, l.length < k → takeLine k (l ++ '\n'.toUInt8 :: rest) = l ++ ['\n'.toUInt8] := by
  induction l with
  | nil =>
    rintro (_ | k) hk
    · exact absurd hk (Nat.lt_irrefl 0)
    · simp [takeLine]
  | cons b l ih =>
    rintro (_ | k) hk
    · exact absurd hk (Nat.not_lt_zero _)
    · rw [List.mem_cons, not_or] at hl
      rw [List.cons_append, takeLine, if_neg (Ne.symm hl.1),
        ih hl.2 (by simp only [List.length_cons] at hk; omega), List.cons_append]

theorem takeLine_full {l rest : List UInt8} (hl : '\n'.toUInt8 ∉ l) :
    takeLine l.length (l ++ rest) = l := by
  induction l with
  | nil => cases rest <;> rfl
  | cons b l ih =>
    rw [List.mem_cons, not_or] at hl
    rw [List.length_cons, List.cons_append, takeLine, if_neg (Ne.symm hl.1), ih hl.2]

/-- **A line shorter than the buffer is read whole**, with its newline. -/
theorem fgets_line {l rest : List UInt8} (hl : '\n'.toUInt8 ∉ l) (hk : l.length ≤ 510) :
    fgets 512 (l ++ '\n'.toUInt8 :: rest) = some (l ++ ['\n'.toUInt8], rest) := by
  simp [fgets, @takeLine_line _ rest hl _ (show l.length < 511 by omega)]

theorem fgets_full {l rest : List UInt8} (hl : '\n'.toUInt8 ∉ l) (hk : l.length = 511) :
    fgets 512 (l ++ '\n'.toUInt8 :: rest) = some (l, '\n'.toUInt8 :: rest) := by
  have : l ≠ [] := List.ne_nil_of_length_pos (by omega)
  have ht := @takeLine_full _ ('\n'.toUInt8 :: rest) hl
  rw [hk] at ht
  simp [fgets, ht, this]

theorem readInfo_line {file line rest : List UInt8} (h : fgets 512 file = some (line, rest))
    (si : SessionFields) :
    readInfo file.length file si = readInfo rest.length rest (parseLine line si) := by
  have hlt := fgets_rest_length h
  obtain ⟨k, hk⟩ := Nat.exists_eq_add_of_lt hlt
  rw [hk]
  simp only [readInfo, h]
  exact readInfo_fuel _ (by omega) le_rfl

/-! ### Numbers and the command -/

theorem cStr_append {l r : List UInt8} (h : 0 ∉ l) : cStr (l ++ r) = l ++ cStr r :=
  List.takeWhile_append_of_pos fun _ ha => bne_iff_ne.2 fun h' => h (h' ▸ ha)

theorem cStr_of_not_mem {l : List UInt8} (h : 0 ∉ l) : cStr l = l :=
  List.takeWhile_eq_self_iff.2 fun _ ha => bne_iff_ne.2 fun h' => h (h' ▸ ha)

theorem signedDecimal_bytes (z : Int) : ∀ b ∈ signedDecimal z, b = '-'.toUInt8 ∨ isDigit b := by
  unfold signedDecimal
  split_ifs
  · rintro b (_ | ⟨_, hb⟩)
    exacts [.inl rfl, .inr (decimal_isDigit _ b hb)]
  · exact fun b hb => .inr (decimal_isDigit _ b hb)

theorem signedDecimal_length_le {z : Int} (h : z.natAbs ≤ 2 ^ 63) : (signedDecimal z).length ≤ 20 := by
  have := decimal_length_le (n := z.natAbs) (e := 19) (by norm_num) (by omega)
  unfold signedDecimal
  split_ifs
  · simp only [List.length_cons]; omega
  · omega

theorem readSigned_signedDecimal (z : Int) (rest : List UInt8) :
    readSigned (signedDecimal z ++ '\n'.toUInt8 :: rest) = z := by
  have hnl : ∀ b ∈ ('\n'.toUInt8 :: rest).head?, isDigit b = false := by simp; decide
  unfold readSigned signedDecimal
  split_ifs with hz
  · rw [List.cons_append, List.dropWhile_cons_of_neg (by decide)]
    simp only [if_true, readDigits_decimal _ hnl]
    omega
  · obtain ⟨b, bs, hd⟩ := List.exists_cons_of_ne_nil (decimal_ne_nil z.natAbs)
    have hb := decimal_isDigit z.natAbs b (hd ▸ List.mem_cons_self b bs)
    simp only [isDigit, Bool.and_eq_true, decide_eq_true_eq] at hb
    have hsp : ¬ isSpace b := by
      simp only [isSpace, Bool.or_eq_true, beq_iff_eq, Bool.and_eq_true, decide_eq_true_eq]; omega
    have hm : b ≠ '-'.toUInt8 := fun h => by subst h; exact absurd hb (by decide)
    have hp : b ≠ '+'.toUInt8 := fun h => by subst h; exact absurd hb (by decide)
    rw [hd, List.cons_append, List.dropWhile_cons_of_neg (by simpa using hsp)]
    simp only [hm, hp, if_false, ← List.cons_append, ← hd, readDigits_decimal _ hnl]
    omega

theorem clampLong_of_lt {z : Int} (h : -2 ^ 63 ≤ z) (h' : z < 2 ^ 63) : clampLong z = z := by
  simp only [clampLong]; omega

theorem wrapInt_of_lt {z : Int} (h : -2 ^ 31 ≤ z) (h' : z < 2 ^ 31) : wrapInt z = z := by
  rw [wrapInt, Int.emod_eq_of_lt (by omega) (by omega)]; omega

theorem atoi_lt (s : List UInt8) : -2 ^ 31 ≤ atoi s ∧ atoi s < 2 ^ 31 := by
  have := Int.emod_nonneg (strtol s + 2 ^ 31) (by decide : (2 : Int) ^ 32 ≠ 0)
  have := Int.emod_lt_of_pos (strtol s + 2 ^ 31) (by decide : (0 : Int) < 2 ^ 32)
  simp only [atoi, wrapInt]; omega

/-- **A printed `long` is read back** by `atol`, whatever follows its line. -/
theorem atol_signedDecimal {z : Int} (h : -2 ^ 63 ≤ z) (h' : z < 2 ^ 63) (rest : List UInt8) :
    atol (signedDecimal z ++ '\n'.toUInt8 :: rest) = z := by
  rw [atol, strtol, readSigned_signedDecimal, clampLong_of_lt h h']

/-- **A printed `int` is read back** by `atoi`, whatever follows its line. -/
theorem atoi_signedDecimal {z : Int} (h : -2 ^ 31 ≤ z) (h' : z < 2 ^ 31) (rest : List UInt8) :
    atoi (signedDecimal z ++ '\n'.toUInt8 :: rest) = z := by
  rw [atoi, strtol, readSigned_signedDecimal, clampLong_of_lt (by omega) (by omega),
    wrapInt_of_lt h h']

theorem trimNewlines_of_getLast {s : List UInt8} (h : ∀ b ∈ s.getLast?, b ≠ '\n'.toUInt8 ∧ b ≠ '\r'.toUInt8) :
    trimNewlines s = s := by
  rcases List.eq_nil_or_concat s with rfl | ⟨s, b, rfl⟩
  · rfl
  · obtain ⟨h1, h2⟩ := h b (by simp)
    simp [trimNewlines, h1, h2]

theorem trimNewlines_append_newline (s : List UInt8) :
    trimNewlines (s ++ ['\n'.toUInt8]) = trimNewlines s := by
  simp [trimNewlines]

/-! ### The lines of the file -/

theorem readInfo_newline (si : SessionFields) :
    readInfo ['\n'.toUInt8].length ['\n'.toUInt8] si = si := rfl

theorem isPrefixOf_append_self (p x : List UInt8) : p.isPrefixOf (p ++ x) = true :=
  List.isPrefixOf_iff_prefix.2 (List.prefix_append p x)

theorem isPrefixOf_append_of_not (p q : List UInt8) (h : p.isPrefixOf q = false)
    (h' : q.isPrefixOf p = false) (x : List UInt8) : p.isPrefixOf (q ++ x) = false := by
  rw [Bool.eq_false_iff] at h h' ⊢
  intro hp
  rcases List.prefix_or_prefix_of_prefix (List.isPrefixOf_iff_prefix.1 hp) (List.prefix_append q x)
    with h₁ | h₁
  exacts [h (List.isPrefixOf_iff_prefix.2 h₁), h' (List.isPrefixOf_iff_prefix.2 h₁)]

theorem parseLine_pid (x : List UInt8) (si : SessionFields) : parseLine (ascii "pid=" ++ x) si = si := by
  simp only [parseLine, cStr_append (show (0 : UInt8) ∉ ascii "pid=" by decide),
    isPrefixOf_append_of_not (ascii "clients=") (ascii "pid=") (by decide) (by decide),
    isPrefixOf_append_of_not (ascii "created=") (ascii "pid=") (by decide) (by decide),
    isPrefixOf_append_of_not (ascii "cmd=") (ascii "pid=") (by decide) (by decide),
    Bool.false_eq_true, if_false]

theorem parseLine_clients (x : List UInt8) (si : SessionFields) :
    parseLine (ascii "clients=" ++ x) si = { si with clients := atoi (cStr x) } := by
  simp only [parseLine, cStr_append (show (0 : UInt8) ∉ ascii "clients=" by decide),
    isPrefixOf_append_self, if_true, List.drop_left' (show (ascii "clients=").length = 8 from rfl)]

theorem parseLine_created (x : List UInt8) (si : SessionFields) :
    parseLine (ascii "created=" ++ x) si = { si with created := atol (cStr x) } := by
  simp only [parseLine, cStr_append (show (0 : UInt8) ∉ ascii "created=" by decide),
    isPrefixOf_append_self,
    isPrefixOf_append_of_not (ascii "clients=") (ascii "created=") (by decide) (by decide),
    Bool.false_eq_true,
    if_false, if_true, List.drop_left' (show (ascii "created=").length = 8 from rfl)]

theorem parseLine_cmd (x : List UInt8) (si : SessionFields) :
    parseLine (ascii "cmd=" ++ x) si = { si with command := trimNewlines (cStr x) } := by
  simp only [parseLine, cStr_append (show (0 : UInt8) ∉ ascii "cmd=" by decide),
    isPrefixOf_append_self,
    isPrefixOf_append_of_not (ascii "clients=") (ascii "cmd=") (by decide) (by decide),
    isPrefixOf_append_of_not (ascii "created=") (ascii "cmd=") (by decide) (by decide),
    Bool.false_eq_true,
    if_false, if_true, List.drop_left' (show (ascii "cmd=").length = 4 from rfl)]

theorem newline_not_mem_signedDecimal (z : Int) : '\n'.toUInt8 ∉ signedDecimal z := fun h => by
  rcases signedDecimal_bytes z _ h with h | h
  · exact absurd h (by decide)
  · exact absurd h (by decide)

theorem zero_not_mem_signedDecimal (z : Int) : (0 : UInt8) ∉ signedDecimal z := fun h => by
  rcases signedDecimal_bytes z _ h with h | h
  · exact absurd h (by decide)
  · exact absurd h (by decide)

theorem fgets_number_line {key : List UInt8} (hk : '\n'.toUInt8 ∉ key) (hl : key.length ≤ 8)
    {z : Int} (hz : z.natAbs ≤ 2 ^ 63) (rest : List UInt8) :
    fgets 512 ((key ++ signedDecimal z) ++ '\n'.toUInt8 :: rest) =
      some ((key ++ signedDecimal z) ++ ['\n'.toUInt8], rest) :=
  fgets_line (by simpa using ⟨hk, newline_not_mem_signedDecimal z⟩)
    (by have := signedDecimal_length_le hz; simp only [List.length_append]; omega)

/-- **The info file round trip.** A client count that fits in an `int`, a creation time that fits
in a `long`, and a command of at most 507 bytes with no newline, no NUL and no trailing `\r`, are
read back as written. -/
theorem readInfoFile_infoText {pid clients created : Int} {cmd : List UInt8}
    (hpid : pid.natAbs ≤ 2 ^ 63) (hcl : -2 ^ 31 ≤ clients ∧ clients < 2 ^ 31)
    (hcr : -2 ^ 63 ≤ created ∧ created < 2 ^ 63) (hnl : '\n'.toUInt8 ∉ cmd) (h0 : 0 ∉ cmd)
    (hlast : ∀ b ∈ cmd.getLast?, b ≠ '\r'.toUInt8) (hlen : cmd.length ≤ 507) :
    readInfoFile (infoText pid clients created cmd) = ⟨clients, created, cmd⟩ := by
  have htext : infoText pid clients created cmd =
      (ascii "pid=" ++ signedDecimal pid) ++ '\n'.toUInt8 ::
        ((ascii "clients=" ++ signedDecimal clients) ++ '\n'.toUInt8 ::
          ((ascii "created=" ++ signedDecimal created) ++ '\n'.toUInt8 ::
            ((ascii "cmd=" ++ cmd) ++ ['\n'.toUInt8]))) := by
    simp only [infoText, cStr_of_not_mem h0, List.append_assoc]
    rfl
  have hcmd : '\n'.toUInt8 ∉ ascii "cmd=" ++ cmd := by simpa using ⟨by decide, hnl⟩
  have hnum : ∀ z : Int, cStr (signedDecimal z ++ ['\n'.toUInt8]) = signedDecimal z ++ ['\n'.toUInt8] :=
    fun z => cStr_of_not_mem (by simpa using ⟨zero_not_mem_signedDecimal z, by decide⟩)
  have hlines : ∀ (x : List UInt8) (si : SessionFields), parseLine (ascii "cmd=" ++ x)
      (parseLine ((ascii "created=" ++ signedDecimal created) ++ ['\n'.toUInt8])
        (parseLine ((ascii "clients=" ++ signedDecimal clients) ++ ['\n'.toUInt8])
          (parseLine ((ascii "pid=" ++ signedDecimal pid) ++ ['\n'.toUInt8]) si))) =
      ⟨clients, created, trimNewlines (cStr x)⟩ := fun x si => by
    simp only [List.append_assoc, parseLine_pid, parseLine_clients, parseLine_created,
      parseLine_cmd, hnum, List.singleton_append, atoi_signedDecimal hcl.1 hcl.2,
      atol_signedDecimal hcr.1 hcr.2]
  have htrim : trimNewlines cmd = cmd := trimNewlines_of_getLast fun b hb =>
    ⟨fun h => hnl (h ▸ List.mem_of_getLast?_eq_some hb), hlast b hb⟩
  rw [readInfoFile, htext, readInfo_line (fgets_number_line (by decide) (by decide) hpid _),
    readInfo_line (fgets_number_line (by decide) (by decide) (by omega : clients.natAbs ≤ 2 ^ 63) _),
    readInfo_line (fgets_number_line (by decide) (by decide) (by omega : created.natAbs ≤ 2 ^ 63) _)]
  by_cases hL : (ascii "cmd=" ++ cmd).length ≤ 510
  · rw [readInfo_line (fgets_line hcmd hL), List.append_assoc]
    refine (hlines _ _).trans ?_
    rw [cStr_append h0, show cStr ['\n'.toUInt8] = ['\n'.toUInt8] from rfl,
      trimNewlines_append_newline, htrim]
  · have hfull : (ascii "cmd=" ++ cmd).length = 511 := by
      simp only [List.length_append] at hL ⊢
      rw [show (ascii "cmd=").length = 4 from rfl] at hL ⊢
      omega
    rw [readInfo_line (fgets_full hcmd hfull), readInfo_newline]
    refine (hlines _ _).trans ?_
    rw [cStr_of_not_mem h0, htrim]

/-- **A command with a newline is not read back.** `collect_cmd` copies the argument `a\nb` as it
is, `write_info_file` writes it on the `cmd=` line, and the enumerator reads that line up to the
newline: the command it lists is `a`. -/
theorem infoText_command_split :
    ¬ ∀ (args : List (List UInt8)) (pid clients created : Int), (∀ a ∈ args, 0 ∉ a) → 0 < pid →
      pid.natAbs ≤ 2 ^ 63 → clients.natAbs ≤ 2 ^ 63 → created.natAbs ≤ 2 ^ 63 →
      readInfoFile (infoText pid clients created (serverCommand (collectCmd args))) =
        ⟨clients, created, serverCommand (collectCmd args)⟩ := fun h =>
  absurd (h [ascii "a\nb"] 1 0 0 (by decide) (by decide) (by decide) (by decide) (by decide))
    (by decide)

end GhostlySession
