import GhostlySession.Registry.Enumerate

/-!
# `cmd_list`'s listing, read back

Without `--json`, `cmd_list` prints `No active sessions.`, or `Active sessions:` and one line per
session, `printf("  %-20s  pid=%-6d  clients=%d  cmd=%s\n", ...)` (`sessionLine`,
`cmdListText`). `readListText` reads that text: it splits it at newlines and reads each line as the
name up to the first space, the numbers after `pid=` and `clients=`, and the command after
`  cmd=`.

* `readInt_signedDecimal`, `readSessionLine_sessionLine`: each number, and each line, reads back
  from its printed form followed by anything.
* `readListText_cmdListText`: the whole listing reads back when no name holds a space or a newline
  and no command a newline.
* `sessionEntry_command`, `sessionEntry_command_newline`: a command the scan reads is `bash` or
  comes from one `fgets` line of an info file (`infoLines`); `fgets` stops after a newline and the
  `pop_back` loop removes it, so no command holds one. With the names valid,
  `cmdList_text_readBack`: the listing of every scan reads back to the sessions it found.
-/

namespace GhostlySession

/-! ### The listing -/

/-- `%-Ns` and `%-Nd`: the text, padded on the right with spaces to at least `n` bytes. -/
def padRight (n : Nat) (s : List UInt8) : List UInt8 :=
  s ++ List.replicate (n - s.length) ' '.toUInt8

/-- One line of the listing: `printf("  %-20s  pid=%-6d  clients=%d  cmd=%s\n", ...)`. -/
def sessionLine (s : SessionInfo) : List UInt8 :=
  ascii "  " ++ padRight 20 (cStr s.name) ++ ascii "  pid=" ++ padRight 6 (signedDecimal s.pid) ++
    ascii "  clients=" ++ signedDecimal s.clients ++ ascii "  cmd=" ++ cStr s.command ++ ascii "\n"

/-- `cmd_list(false)`: `No active sessions.`, or a heading and one line per session. -/
def cmdListText (ss : List SessionInfo) : List UInt8 :=
  if ss.isEmpty then ascii "No active sessions.\n"
  else ascii "Active sessions:\n" ++ (ss.map sessionLine).flatten

/-! ### Reading the listing back -/

/-- Digits, at least one: their value and the bytes after them. -/
def readNat (t : List UInt8) : Option (Nat × List UInt8) :=
  if (t.takeWhile isDigit).isEmpty then none
  else some (readDigits 0 (t.takeWhile isDigit), t.dropWhile isDigit)

/-- A number as `%d` prints it: an optional minus sign and digits. -/
def readInt : List UInt8 → Option (Int × List UInt8)
  | b :: bs =>
    if b = '-'.toUInt8 then (readNat bs).map fun r => (-(r.1 : Int), r.2)
    else (readNat (b :: bs)).map fun r => ((r.1 : Int), r.2)
  | [] => none

/-- Spaces. -/
def skipSpaces (t : List UInt8) : List UInt8 := t.dropWhile (· == ' '.toUInt8)

/-- A line of the listing without its newline: the name up to the first space, the numbers after
`pid=` and `clients=`, and the command after `cmd=`. -/
def readSessionLine (line : List UInt8) : Option (List UInt8 × Int × Int × List UInt8) := do
  let r ← (ascii "  ").isPrefixOf? line
  let r1 ← (ascii "pid=").isPrefixOf? (skipSpaces (r.dropWhile (· != ' '.toUInt8)))
  let (pid, r2) ← readInt r1
  let r3 ← (ascii "clients=").isPrefixOf? (skipSpaces r2)
  let (clients, r4) ← readInt r3
  let cmd ← (ascii "  cmd=").isPrefixOf? r4
  pure (r.takeWhile (· != ' '.toUInt8), pid, clients, cmd)

/-- The lines of a text, without their newlines; `cur` is the line read so far, reversed. -/
def splitLines (cur : List UInt8) : List UInt8 → List (List UInt8)
  | [] => if cur = [] then [] else [cur.reverse]
  | b :: bs => if b = '\n'.toUInt8 then cur.reverse :: splitLines [] bs else splitLines (b :: cur) bs

/-- The listing read back: no session, or the fields of each line after the heading. -/
def readListText (text : List UInt8) : Option (List (List UInt8 × Int × Int × List UInt8)) :=
  if text = ascii "No active sessions.\n" then some []
  else ((ascii "Active sessions:\n").isPrefixOf? text).bind fun body =>
    (splitLines [] body).mapM readSessionLine

/-! ### Each piece read back -/

theorem isPrefixOf?_append : ∀ (l r : List UInt8), l.isPrefixOf? (l ++ r) = some r
  | [], r => by cases r <;> rfl
  | b :: l, r => by simp [List.isPrefixOf?, isPrefixOf?_append l r]

theorem readNat_decimal (n : Nat) {rest : List UInt8} (h : ∀ b ∈ rest.head?, isDigit b = false) :
    readNat (decimal n ++ rest) = some (n, rest) := by
  have hrest : rest.takeWhile isDigit = [] := by
    cases rest with
    | nil => rfl
    | cons b bs => simp [List.takeWhile_cons, h b rfl]
  have hdrop : rest.dropWhile isDigit = rest := by
    cases rest with
    | nil => rfl
    | cons b bs => simp [List.dropWhile_cons, h b rfl]
  have hall : ∀ b ∈ decimal n, isDigit b = true := decimal_isDigit n
  rw [readNat, List.takeWhile_append_of_pos hall, hrest, List.append_nil,
    List.dropWhile_append_of_pos hall, hdrop]
  have hne : (decimal n).isEmpty = false := by
    cases h : decimal n with
    | nil => exact absurd h (decimal_ne_nil n)
    | cons _ _ => rfl
  rw [hne, if_neg Bool.false_ne_true, ← List.append_nil (decimal n), readDigits_decimal n (by simp)]

theorem readInt_signedDecimal (z : Int) {rest : List UInt8}
    (h : ∀ b ∈ rest.head?, isDigit b = false) : readInt (signedDecimal z ++ rest) = some (z, rest) := by
  unfold signedDecimal
  split_ifs with hz
  · rw [List.cons_append, readInt, if_pos rfl, readNat_decimal _ h]
    simp only [Option.map_some', Option.some.injEq, Prod.mk.injEq, and_true]
    omega
  · obtain ⟨b, bs, hd⟩ := List.exists_cons_of_ne_nil (decimal_ne_nil z.natAbs)
    have hb := decimal_isDigit z.natAbs b (hd ▸ List.mem_cons_self b bs)
    have hm : b ≠ '-'.toUInt8 := fun e => by subst e; exact absurd hb (by decide)
    rw [hd, List.cons_append, readInt, if_neg hm, ← List.cons_append, ← hd, readNat_decimal _ h]
    simp only [Option.map_some', Option.some.injEq, Prod.mk.injEq, and_true]
    omega

theorem skipSpaces_replicate (k : Nat) {y : List UInt8} (h : ∀ b ∈ y.head?, b ≠ ' '.toUInt8) :
    skipSpaces (List.replicate k ' '.toUInt8 ++ y) = y := by
  rw [skipSpaces, List.dropWhile_append_of_pos (by simp)]
  cases y with
  | nil => rfl
  | cons b bs => simp [List.dropWhile_cons, h b rfl]

theorem sessionLine_eq (s : SessionInfo) :
    sessionLine s = ascii "  " ++ (cStr s.name ++
      (List.replicate (20 - (cStr s.name).length + 2) ' '.toUInt8 ++ (ascii "pid=" ++
      (signedDecimal s.pid ++ (List.replicate (6 - (signedDecimal s.pid).length + 2) ' '.toUInt8 ++
      (ascii "clients=" ++ (signedDecimal s.clients ++ (ascii "  cmd=" ++ cStr s.command)))))))) ++
      ascii "\n" := by
  simp only [sessionLine, padRight, List.replicate_add, List.append_assoc]
  rfl

theorem takeWhile_name {n y : List UInt8} (hn : ' '.toUInt8 ∉ n) (k : Nat) :
    (n ++ (List.replicate (k + 1) ' '.toUInt8 ++ y)).takeWhile (· != ' '.toUInt8) = n := by
  rw [List.takeWhile_append_of_pos (fun b hb => bne_iff_ne.2 fun (e : b = ' '.toUInt8) => hn (e ▸ hb)),
    List.replicate_succ, List.cons_append, List.takeWhile_cons_of_neg (by simp), List.append_nil]

theorem dropWhile_name {n y : List UInt8} (hn : ' '.toUInt8 ∉ n) (k : Nat) :
    (n ++ (List.replicate (k + 1) ' '.toUInt8 ++ y)).dropWhile (· != ' '.toUInt8) =
      List.replicate (k + 1) ' '.toUInt8 ++ y := by
  rw [List.dropWhile_append_of_pos (fun b hb => bne_iff_ne.2 fun (e : b = ' '.toUInt8) => hn (e ▸ hb)),
    List.replicate_succ, List.cons_append, List.dropWhile_cons_of_neg (by simp)]

/-- **One line read back.** The line of a session whose name has no space gives back the name, the
pid, the client count and the command as printed. -/
theorem readSessionLine_sessionLine (s : SessionInfo) (hsp : ' '.toUInt8 ∉ cStr s.name) :
    readSessionLine (sessionLine s).dropLast =
      some (cStr s.name, s.pid, s.clients, cStr s.command) := by
  have hdig : ∀ (k : Nat) (y : List UInt8),
      ∀ b ∈ (List.replicate (k + 1) ' '.toUInt8 ++ y).head?, isDigit b = false := by
    intro k y b hb
    simp only [List.replicate_succ, List.cons_append, List.head?_cons, Option.mem_def,
      Option.some.injEq] at hb
    subst hb
    decide
  have hpid : ∀ y, ∀ b ∈ (ascii "pid=" ++ y).head?, b ≠ ' '.toUInt8 := fun y b hb => by
    cases hb
    decide
  have hcl : ∀ y, ∀ b ∈ (ascii "clients=" ++ y).head?, b ≠ ' '.toUInt8 := fun y b hb => by
    cases hb
    decide
  have hcmd : ∀ y, ∀ b ∈ (ascii "  cmd=" ++ y).head?, isDigit b = false := fun y b hb => by
    cases hb
    decide
  rw [sessionLine_eq, show ascii "\n" = ['\n'.toUInt8] from rfl, List.dropLast_concat]
  simp only [readSessionLine, isPrefixOf?_append, Option.bind_eq_bind, Option.some_bind,
    dropWhile_name hsp, skipSpaces_replicate _ (hpid _), readInt_signedDecimal _ (hdig _ _),
    skipSpaces_replicate _ (hcl _), readInt_signedDecimal _ (hcmd _), takeWhile_name hsp]
  rfl

theorem splitLines_line {l : List UInt8} (hl : '\n'.toUInt8 ∉ l) (rest : List UInt8) :
    ∀ cur, splitLines cur (l ++ '\n'.toUInt8 :: rest) = (cur.reverse ++ l) :: splitLines [] rest := by
  induction l with
  | nil => intro cur; simp [splitLines]
  | cons b l ih =>
    intro cur
    simp only [List.mem_cons, not_or] at hl
    obtain ⟨hb, hl⟩ := hl
    rw [List.cons_append, splitLines, if_neg (Ne.symm hb), ih hl]
    simp

theorem sessionLine_dropLast (s : SessionInfo) :
    (sessionLine s).dropLast ++ ['\n'.toUInt8] = sessionLine s := by
  rw [sessionLine_eq, show ascii "\n" = ['\n'.toUInt8] from rfl, List.dropLast_concat]

theorem newline_not_mem_sessionLine {s : SessionInfo} (hn : '\n'.toUInt8 ∉ cStr s.name)
    (hc : '\n'.toUInt8 ∉ cStr s.command) : '\n'.toUInt8 ∉ (sessionLine s).dropLast := by
  rw [sessionLine_eq, show ascii "\n" = ['\n'.toUInt8] from rfl, List.dropLast_concat]
  simp only [List.mem_append, List.mem_replicate, not_or]
  exact ⟨by decide, hn, fun h => absurd h.2 (by decide), by decide, newline_not_mem_signedDecimal _,
    fun h => absurd h.2 (by decide), by decide, newline_not_mem_signedDecimal _, by decide, hc⟩

theorem mapM_map_some {α β γ : Type} {f : β → Option γ} (k : α → β) (g : α → γ) :
    ∀ {l : List α}, (∀ a ∈ l, f (k a) = some (g a)) → (l.map k).mapM f = some (l.map g)
  | [], _ => rfl
  | a :: l, h => by
    rw [List.map_cons, List.mapM_cons, h a (List.mem_cons_self a l),
      mapM_map_some k g fun b hb => h b (List.mem_cons_of_mem a hb)]
    rfl

/-- **The listing reads back.** When no name has a space or a newline and no command a newline,
the listing gives back, line by line, every session's name, pid, client count and command as
printed. -/
theorem readListText_cmdListText (ss : List SessionInfo)
    (h : ∀ s ∈ ss, ' '.toUInt8 ∉ cStr s.name ∧ '\n'.toUInt8 ∉ cStr s.name ∧
      '\n'.toUInt8 ∉ cStr s.command) :
    readListText (cmdListText ss) =
      some (ss.map fun s => (cStr s.name, s.pid, s.clients, cStr s.command)) := by
  cases ss with
  | nil => rfl
  | cons s0 ss0 =>
    have hsplit : ∀ ss : List SessionInfo, (∀ s ∈ ss, '\n'.toUInt8 ∉ (sessionLine s).dropLast) →
        splitLines [] (ss.map sessionLine).flatten = ss.map fun s => (sessionLine s).dropLast := by
      intro ss hn
      induction ss with
      | nil => rfl
      | cons s ss ih =>
        rw [List.map_cons, List.flatten_cons, ← sessionLine_dropLast s, List.append_assoc,
          List.singleton_append, splitLines_line (hn s (List.mem_cons_self _ _)),
          ih fun t ht => hn t (List.mem_cons_of_mem _ ht)]
        rfl
    have hne : ascii "Active sessions:\n" ++ ((s0 :: ss0).map sessionLine).flatten ≠
        ascii "No active sessions.\n" := fun e => by
      have := congrArg List.head? e
      simp only [show ascii "Active sessions:\n" = 'A'.toUInt8 :: ascii "ctive sessions:\n" from rfl,
        show ascii "No active sessions.\n" = 'N'.toUInt8 :: ascii "o active sessions.\n" from rfl,
        List.cons_append, List.head?_cons, Option.some.injEq] at this
      exact absurd this (by decide)
    rw [cmdListText, if_neg (by simp), readListText, if_neg hne, isPrefixOf?_append, Option.some_bind,
      hsplit _ fun s hs => newline_not_mem_sessionLine (h s hs).2.1 (h s hs).2.2]
    exact mapM_map_some _ _ fun s hs => readSessionLine_sessionLine s (h s hs).1

example :
    cmdListText [⟨ascii "work", 4242, 2, 0, ascii "vim"⟩, ⟨ascii "build-7", 31337, 0, 0, ascii "make -j8"⟩] =
      ascii ("Active sessions:\n  work                  pid=4242    clients=2  cmd=vim\n" ++
        "  build-7               pid=31337   clients=0  cmd=make -j8\n") := by
  decide

/-! ### The sessions the scan lists -/

theorem newline_not_mem_dropLast_takeLine :
    ∀ (k : Nat) (file : List UInt8), '\n'.toUInt8 ∉ (takeLine k file).dropLast
  | 0, _ => by simp [takeLine]
  | _ + 1, [] => by simp [takeLine]
  | k + 1, b :: bs => by
    rw [takeLine]
    split_ifs with hb
    · exact nofun
    · cases h : takeLine k bs with
      | nil => exact nofun
      | cons c cs =>
        have := newline_not_mem_dropLast_takeLine k bs
        rw [h] at this
        rw [List.dropLast_cons₂]
        exact List.not_mem_cons_of_ne_of_not_mem (Ne.symm hb) this

theorem newline_not_mem_dropLast_cStr {l : List UInt8} (h : '\n'.toUInt8 ∉ l.dropLast) :
    '\n'.toUInt8 ∉ (cStr l).dropLast := by
  obtain ⟨t, ht⟩ := List.takeWhile_prefix (· != 0) (l := l)
  rw [cStr]
  rw [← ht] at h
  rcases List.eq_nil_or_concat t with rfl | ⟨t', x, rfl⟩
  · simpa using h
  · rw [List.concat_eq_append, ← List.append_assoc, List.dropLast_concat] at h
    exact fun hm => h (List.mem_append_left _ (List.mem_of_mem_dropLast hm))

theorem newline_not_mem_dropLast_drop {l : List UInt8} (n : Nat) (h : '\n'.toUInt8 ∉ l.dropLast) :
    '\n'.toUInt8 ∉ (l.drop n).dropLast := by
  rw [← List.take_append_drop n l] at h
  rcases List.eq_nil_or_concat (l.drop n) with he | ⟨t, x, he⟩
  · rw [he]; exact nofun
  · rw [he, List.concat_eq_append] at h ⊢
    rw [← List.append_assoc, List.dropLast_concat] at h
    rw [List.dropLast_concat]
    exact fun hm => h (List.mem_append_right _ hm)

theorem newline_not_mem_trimNewlines {l : List UInt8} (h : '\n'.toUInt8 ∉ l.dropLast) :
    '\n'.toUInt8 ∉ trimNewlines l := by
  rcases List.eq_nil_or_concat l with rfl | ⟨l', x, rfl⟩
  · exact nofun
  · rw [List.concat_eq_append, List.dropLast_concat] at h
    rw [trimNewlines, List.concat_eq_append, List.reverse_append, List.reverse_singleton,
      List.singleton_append, List.dropWhile_cons]
    split_ifs with hx
    · exact fun hm => h (List.mem_reverse.1 ((List.dropWhile_suffix _).subset (List.mem_reverse.1 hm)))
    · have hxn : x ≠ '\n'.toUInt8 := fun e => hx (by simp [e])
      rw [List.reverse_cons, List.reverse_reverse]
      exact fun hm => (List.mem_append.1 hm).elim h fun e => hxn (List.mem_singleton.1 e).symm

/-- The lines `enumerate_sessions` reads from an info file with `fgets(line, 512, f)`, within
`fuel` calls. -/
def infoLines : Nat → List UInt8 → List (List UInt8)
  | 0, _ => []
  | fuel + 1, file =>
    match fgets 512 file with
    | none => []
    | some (line, rest) => line :: infoLines fuel rest

theorem infoLines_newline : ∀ (fuel : Nat) (file : List UInt8),
    ∀ line ∈ infoLines fuel file, '\n'.toUInt8 ∉ line.dropLast
  | 0, _ => nofun
  | fuel + 1, file => by
    rw [infoLines]
    unfold fgets
    split_ifs
    · exact nofun
    · rintro line (_ | ⟨_, hl⟩)
      exacts [newline_not_mem_dropLast_takeLine 511 file, infoLines_newline fuel _ line hl]

theorem parseLine_command (line : List UInt8) (si : SessionFields) :
    (parseLine line si).command = si.command ∨ ((ascii "cmd=").isPrefixOf (cStr line) ∧
      (parseLine line si).command = trimNewlines ((cStr line).drop 4)) := by
  unfold parseLine
  split_ifs with _ _ h
  exacts [.inl rfl, .inl rfl, .inr ⟨h, rfl⟩, .inl rfl]

theorem readInfo_command : ∀ (fuel : Nat) (file : List UInt8) (si : SessionFields),
    (readInfo fuel file si).command = si.command ∨ ∃ line ∈ infoLines fuel file,
      (ascii "cmd=").isPrefixOf (cStr line) ∧
        (readInfo fuel file si).command = trimNewlines ((cStr line).drop 4)
  | 0, _, _ => .inl rfl
  | fuel + 1, file, si => by
    rw [readInfo, infoLines]
    cases fgets 512 file with
    | none => exact .inl rfl
    | some p =>
      obtain ⟨line, rest⟩ := p
      rcases readInfo_command fuel rest (parseLine line si) with h | ⟨l, hl, h⟩
      · rw [h]
        rcases parseLine_command line si with h' | h'
        exacts [.inl h', .inr ⟨line, List.mem_cons_self _ _, h'⟩]
      · exact .inr ⟨l, List.mem_cons_of_mem _ hl, h⟩

theorem mem_enumerateLoop {uid : UInt32} {alive : Int → Bool} :
    ∀ (entries : List (List UInt8)) (fs : Files) {si : SessionInfo},
      si ∈ (enumerateLoop uid alive entries fs).1 →
        ∃ name pidFile infoFile, validSessionName name ∧ si = sessionEntry name pidFile infoFile
  | [], _, _ => nofun
  | fname :: rest, fs, si => fun hsi => by
    rcases List.mem_append.1 hsi with hsi | hsi
    · rcases scanEntry_cases uid alive fs fname with ⟨-, e⟩ | ⟨name, hs, e | e⟩ <;>
        rw [e] at hsi <;> simp only [Option.toList_some, Option.toList_none, List.mem_singleton,
          List.not_mem_nil] at hsi
      exact ⟨name, _, _, (sessionOfEntry_eq_some.1 hs).1, hsi⟩
    · exact mem_enumerateLoop rest _ hsi

theorem sessionEntry_command (name : List UInt8) (pidFile infoFile : Option (List UInt8)) :
    (sessionEntry name pidFile infoFile).command = ascii "bash" ∨ ∃ file, ∃ line ∈ infoLines file.length file,
      (ascii "cmd=").isPrefixOf (cStr line) ∧
        (sessionEntry name pidFile infoFile).command = trimNewlines ((cStr line).drop 4) := by
  cases infoFile with
  | none => exact .inl rfl
  | some file =>
    rcases readInfo_command file.length file .init with h | ⟨line, hl, h⟩
    exacts [.inl h, .inr ⟨file, line, hl, h⟩]

theorem sessionEntry_command_newline (name : List UInt8) (pidFile infoFile : Option (List UInt8)) :
    '\n'.toUInt8 ∉ (sessionEntry name pidFile infoFile).command := by
  rcases sessionEntry_command name pidFile infoFile with h | ⟨file, line, hl, -, h⟩ <;> rw [h]
  · decide
  · exact newline_not_mem_trimNewlines (newline_not_mem_dropLast_drop 4
      (newline_not_mem_dropLast_cStr (infoLines_newline _ file line hl)))

theorem nameByte_ne_space {c : UInt8} (h : nameByte c) : c ≠ ' '.toUInt8 ∧ c ≠ '\n'.toUInt8 := by
  constructor <;> rintro rfl <;> exact absurd h (by decide)

/-- **`ghostly-session list` reads back.** For every directory and every liveness of the pids, the
listing `cmd_list` prints without `--json` reads back, line by line, to exactly the sessions the
scan found, in its order: each one's name, pid, client count and command. A listed name is valid,
and a listed command is `bash` or one `fgets` line `cmd=...` of an info file with its newline
removed, so no field runs into the next and no line into the next. -/
theorem cmdList_text_readBack (uid : UInt32) (alive : Int → Bool) (entries : List (List UInt8))
    (fs : Files) :
    readListText (cmdListText (enumerateLoop uid alive entries fs).1) =
        some ((enumerateLoop uid alive entries fs).1.map fun s => (s.name, s.pid, s.clients, s.command)) ∧
      ∀ s ∈ (enumerateLoop uid alive entries fs).1, validSessionName s.name ∧
        (s.command = ascii "bash" ∨ ∃ file, ∃ line ∈ infoLines file.length file,
          (ascii "cmd=").isPrefixOf (cStr line) ∧ s.command = trimNewlines ((cStr line).drop 4)) := by
  have hs : ∀ s ∈ (enumerateLoop uid alive entries fs).1, cStr s.name = s.name ∧
      cStr s.command = s.command ∧ ' '.toUInt8 ∉ s.name ∧ '\n'.toUInt8 ∉ s.name ∧
      '\n'.toUInt8 ∉ s.command := by
    intro s h
    obtain ⟨hv, h0⟩ := enumerateLoop_wellFormed entries fs s h
    obtain ⟨name, pf, inf, -, rfl⟩ := mem_enumerateLoop entries fs h
    have hb := (validSessionName_iff.1 hv).2.2.2.2
    exact ⟨cStr_of_not_mem fun h => (nameByte_ne (hb 0 h)).2 rfl, cStr_of_not_mem h0,
      fun h => (nameByte_ne_space (hb _ h)).1 rfl, fun h => (nameByte_ne_space (hb _ h)).2 rfl,
      sessionEntry_command_newline name pf inf⟩
  refine ⟨?_, fun s h => ⟨(enumerateLoop_wellFormed entries fs s h).1, ?_⟩⟩
  · rw [readListText_cmdListText _ fun s h => by
      rw [(hs s h).1, (hs s h).2.1]
      exact ⟨(hs s h).2.2.1, (hs s h).2.2.2.1, (hs s h).2.2.2.2⟩]
    exact congrArg some (List.map_congr_left fun s h => by rw [(hs s h).1, (hs s h).2.1])
  · obtain ⟨name, pf, inf, -, rfl⟩ := mem_enumerateLoop entries fs h
    exact sessionEntry_command name pf inf

end GhostlySession
