import GhostlySession.Registry.Json
import GhostlySession.Registry.InfoText
import GhostlySession.Registry.Names

/-!
# `cmd_list --json`: the document against the JSON grammar

`cmd_list(true)` prints `{"sessions":[` and then, for each session `enumerate_sessions` returns,
a `,` before all but the first and one `printf` of its name, clients, creation time, command and
pid, and then `]}` and a newline (`cmdListJson`). The strings go through `json_escape` and `%s`,
the numbers through `%d` and `%ld`.

Over the bytes, the grammar of JSON values (`JsonValue`, with `JsonMembers` and `JsonElements`)
relates a text to the value it denotes, as `JsonString` does for strings; a JSON text is a value
between whitespace (`JsonText`). Numbers are kept to integers, which is all `cmd_list` prints.

* `Renders t v`: the bytes `t` derive the value `v`, whatever follows them. `renders_quoted`,
  `renders_signedDecimal`, `renders_obj` and `renders_arr` are the compact printer of values, one
  lemma a production.
* `sessionJson_eq`, `cmdListJson_eq`: `cmd_list`'s `printf`s are that printer applied to the
  value `sessionsDoc` of the sessions, once the strings hold no NUL.
* `cmdListJson_text`: so when every command is escapable (`Registry/Json`), the document is a
  JSON text, and its value has each session's name, counts, command and pid as recorded. Valid
  names always qualify (`escapable_of_validSessionName`).
* `jsonValue_safeSpan`, `jsonText_escapable`: every production reads valid UTF-8 of printable bytes
  and whitespace, so a JSON text is itself escapable.
* `Escapable.of_quoted_within`: a string printed quoted inside such a text is escapable, since the
  quotes split the UTF-8 around it and `json_escape` copies the bytes it does not escape.
* `cmdListJson_text_iff`: hence, for commands without NUL, the document is a JSON text exactly
  when every command is escapable.
-/

namespace GhostlySession

/-! ### The document `cmd_list` prints -/

/-- The fields of an entry of `enumerate_sessions` that `cmd_list` prints. -/
structure SessionInfo where
  name : List UInt8
  pid : Int
  clients : Int
  created : Int
  command : List UInt8
  deriving DecidableEq, Repr

/-- One session's `printf("{\"name\":\"%s\",\"clients\":%d,\"created\":%ld,\"command\":\"%s\",
\"pid\":%d}", ...)`, with `json_escape(...).c_str()` for each `%s`. -/
def sessionJson (si : SessionInfo) : List UInt8 :=
  ascii "\x7b\"name\":\"" ++ cStr (jsonEscape si.name) ++ ascii "\",\"clients\":" ++
    signedDecimal si.clients ++ ascii ",\"created\":" ++ signedDecimal si.created ++
    ascii ",\"command\":\"" ++ cStr (jsonEscape si.command) ++ ascii "\",\"pid\":" ++
    signedDecimal si.pid ++ ascii "\x7d"

/-- The loop over the sessions from index `i`: `if (i > 0) printf(",")`, then the session. -/
def sessionsJson : Nat → List SessionInfo → List UInt8
  | _, [] => []
  | i, si :: rest => (if i > 0 then ascii "," else []) ++ sessionJson si ++ sessionsJson (i + 1) rest

/-- What `cmd_list(true)` prints. -/
def cmdListJson (sessions : List SessionInfo) : List UInt8 :=
  ascii "\x7b\"sessions\":[" ++ sessionsJson 0 sessions ++ ascii "]\x7d\n"

/-! ### JSON values and their grammar -/

/-- A JSON value, as a parser returns it: numbers are integers here. -/
inductive JsonVal
  | str (s : List UInt8)
  | num (n : Int)
  | obj (members : List (List UInt8 × JsonVal))
  | arr (elems : List JsonVal)

/-- The value `cmd_list` prints for a session. -/
def SessionInfo.toJson (si : SessionInfo) : JsonVal :=
  .obj [(ascii "name", .str si.name), (ascii "clients", .num si.clients),
    (ascii "created", .num si.created), (ascii "command", .str si.command),
    (ascii "pid", .num si.pid)]

/-- The value of the whole document. -/
def sessionsDoc (sessions : List SessionInfo) : JsonVal :=
  .obj [(ascii "sessions", .arr (sessions.map SessionInfo.toJson))]

/-- `ws`: space, tab, line feed, carriage return. -/
def jsonWsByte (b : UInt8) : Prop :=
  b = ' '.toUInt8 ∨ b = '\t'.toUInt8 ∨ b = '\n'.toUInt8 ∨ b = '\r'.toUInt8

/-- A run of whitespace, from `input` to `rest`. -/
inductive JsonWs : List UInt8 → List UInt8 → Prop
  | nil {rest : List UInt8} : JsonWs rest rest
  | cons {b : UInt8} {input rest : List UInt8} : jsonWsByte b → JsonWs input rest →
      JsonWs (b :: input) rest

/-- A structural character `t` (`{ } [ ] : ,`) with whitespace on either side. -/
inductive JsonToken (t : UInt8) : List UInt8 → List UInt8 → Prop
  | mk {input mid rest : List UInt8} : JsonWs input (t :: mid) → JsonWs mid rest →
      JsonToken t input rest

/-- `int = zero / digit1-9 *DIGIT`, and the number its digits denote. -/
inductive JsonNat : List UInt8 → Nat → List UInt8 → Prop
  | zero {rest : List UInt8} : JsonNat ('0'.toUInt8 :: rest) 0 rest
  | digits {d : UInt8} {ds rest : List UInt8} : isDigit d → d ≠ '0'.toUInt8 →
      (∀ b ∈ ds, isDigit b) → JsonNat (d :: (ds ++ rest)) (readDigits 0 (d :: ds)) rest

/-- `number = [ minus ] int`, without the fraction and exponent `cmd_list` never prints. -/
inductive JsonNumber : List UInt8 → Int → List UInt8 → Prop
  | nonneg {input rest : List UInt8} {n : Nat} : JsonNat input n rest → JsonNumber input n rest
  | neg {input rest : List UInt8} {n : Nat} : JsonNat input n rest →
      JsonNumber ('-'.toUInt8 :: input) (-n) rest

mutual
/-- `value`: a string, a number, an object or an array. -/
inductive JsonValue : List UInt8 → JsonVal → List UInt8 → Prop
  | str {input rest s : List UInt8} : JsonString input s rest → JsonValue input (.str s) rest
  | num {input rest : List UInt8} {n : Int} : JsonNumber input n rest →
      JsonValue input (.num n) rest
  | emptyObj {input mid rest : List UInt8} : JsonToken '{'.toUInt8 input mid →
      JsonToken '}'.toUInt8 mid rest → JsonValue input (.obj []) rest
  | obj {input mid mid' rest : List UInt8} {ms : List (List UInt8 × JsonVal)} :
      JsonToken '{'.toUInt8 input mid → JsonMembers mid ms mid' →
        JsonToken '}'.toUInt8 mid' rest → JsonValue input (.obj ms) rest
  | emptyArr {input mid rest : List UInt8} : JsonToken '['.toUInt8 input mid →
      JsonToken ']'.toUInt8 mid rest → JsonValue input (.arr []) rest
  | arr {input mid mid' rest : List UInt8} {vs : List JsonVal} :
      JsonToken '['.toUInt8 input mid → JsonElements mid vs mid' →
        JsonToken ']'.toUInt8 mid' rest → JsonValue input (.arr vs) rest

/-- `member *( value-separator member )`, with `member = string name-separator value`. -/
inductive JsonMembers : List UInt8 → List (List UInt8 × JsonVal) → List UInt8 → Prop
  | one {input mid mid' rest k : List UInt8} {v : JsonVal} : JsonString input k mid →
      JsonToken ':'.toUInt8 mid mid' → JsonValue mid' v rest → JsonMembers input [(k, v)] rest
  | more {input mid mid' mid'' mid''' rest k : List UInt8} {v : JsonVal}
      {ms : List (List UInt8 × JsonVal)} : JsonString input k mid →
      JsonToken ':'.toUInt8 mid mid' → JsonValue mid' v mid'' →
        JsonToken ','.toUInt8 mid'' mid''' → JsonMembers mid''' ms rest →
          JsonMembers input ((k, v) :: ms) rest

/-- `value *( value-separator value )`. -/
inductive JsonElements : List UInt8 → List JsonVal → List UInt8 → Prop
  | one {input rest : List UInt8} {v : JsonVal} : JsonValue input v rest →
      JsonElements input [v] rest
  | more {input mid mid' rest : List UInt8} {v : JsonVal} {vs : List JsonVal} :
      JsonValue input v mid → JsonToken ','.toUInt8 mid mid' → JsonElements mid' vs rest →
        JsonElements input (v :: vs) rest
end

/-- `JSON-text = ws value ws`: the whole of `input` is a text of the value `v`. -/
def JsonText (input : List UInt8) (v : JsonVal) : Prop :=
  ∃ mid mid', JsonWs input mid ∧ JsonValue mid v mid' ∧ JsonWs mid' []

/-! ### The compact printer -/

/-- `"` + `json_escape(s)` + `"`. -/
def quoted (s : List UInt8) : List UInt8 := '"'.toUInt8 :: (jsonEscape s ++ ['"'.toUInt8])

/-- Texts separated by `,`. -/
def commaJoin : List (List UInt8) → List UInt8
  | [] => []
  | [t] => t
  | t :: ts => t ++ ','.toUInt8 :: commaJoin ts

@[simp] theorem commaJoin_cons_cons (t t' : List UInt8) (ts : List (List UInt8)) :
    commaJoin (t :: t' :: ts) = t ++ ','.toUInt8 :: commaJoin (t' :: ts) := rfl

/-- The bytes `t` derive the value `v`, whatever follows them. -/
def Renders (t : List UInt8) (v : JsonVal) : Prop := ∀ rest, JsonValue (t ++ rest) v rest

theorem jsonToken_self (t : UInt8) (rest : List UInt8) : JsonToken t (t :: rest) rest :=
  .mk .nil .nil

theorem jsonString_quoted {s : List UInt8} (h : Escapable s) (rest : List UInt8) :
    JsonString (quoted s ++ rest) s rest := by
  rw [quoted, List.cons_append, List.append_assoc, List.singleton_append]
  exact .mk (jsonChars_jsonEscape h _)

theorem renders_quoted {s : List UInt8} (h : Escapable s) : Renders (quoted s) (.str s) :=
  fun rest => .str (jsonString_quoted h rest)

theorem decimal_head_ne_zero {n : Nat} (hn : 0 < n) {d : UInt8} {ds : List UInt8}
    (h : decimal n = d :: ds) : d ≠ '0'.toUInt8 := by
  have hne : Nat.digits 10 n ≠ [] := Nat.digits_ne_nil_iff_ne_zero.2 hn.ne'
  have hd : digitByte ((Nat.digits 10 n).getLast hne) = d := by
    have := congrArg List.head? h
    rw [decimal_eq_digits hn, List.head?_map, List.head?_reverse, List.getLast?_eq_getLast _ hne]
      at this
    exact Option.some.inj this
  have hlt := Nat.digits_lt_base (by norm_num) (List.getLast_mem hne)
  have hnz := Nat.getLast_digit_ne_zero 10 hn.ne'
  intro h0
  have := congrArg UInt8.toNat (hd.trans h0)
  rw [digitByte_toNat hlt, show '0'.toUInt8.toNat = 48 from rfl] at this
  exact hnz (by omega)

theorem jsonNat_decimal (n : Nat) (rest : List UInt8) : JsonNat (decimal n ++ rest) n rest := by
  rcases Nat.eq_zero_or_pos n with rfl | hn
  · exact .zero
  obtain ⟨d, ds, hdd⟩ := List.exists_cons_of_ne_nil (decimal_ne_nil n)
  have hv : readDigits 0 (d :: ds) = n := by
    simpa [hdd] using @readDigits_decimal n [] nofun
  rw [hdd, List.cons_append, ← hv]
  exact .digits (decimal_isDigit n d (hdd ▸ List.mem_cons_self _ _)) (decimal_head_ne_zero hn hdd)
    fun b hb => decimal_isDigit n b (hdd ▸ List.mem_cons_of_mem _ hb)

theorem renders_signedDecimal (z : Int) : Renders (signedDecimal z) (.num z) := by
  intro rest
  refine .num ?_
  unfold signedDecimal
  split_ifs with hz
  · have := JsonNumber.neg (jsonNat_decimal z.natAbs rest)
    rwa [show -(z.natAbs : Int) = z by omega] at this
  · have := JsonNumber.nonneg (jsonNat_decimal z.natAbs rest)
    rwa [show (z.natAbs : Int) = z by omega] at this

theorem jsonMembers_commaJoin : ∀ (ms : List (List UInt8 × List UInt8 × JsonVal)), ms ≠ [] →
    (∀ m ∈ ms, Escapable m.1) → (∀ m ∈ ms, Renders m.2.1 m.2.2) → ∀ rest,
      JsonMembers (commaJoin (ms.map fun m => quoted m.1 ++ ':'.toUInt8 :: m.2.1) ++ rest)
        (ms.map fun m => (m.1, m.2.2)) rest
  | [], h, _, _, _ => absurd rfl h
  | [(k, t, v)], _, hk, hv, rest => by
    simp only [List.map_cons, List.map_nil, commaJoin, List.append_assoc, List.cons_append]
    exact .one (jsonString_quoted (hk _ (List.mem_singleton_self _)) _) (jsonToken_self _ _)
      (hv _ (List.mem_singleton_self _) rest)
  | (k, t, v) :: m :: ms, _, hk, hv, rest => by
    simp only [List.map_cons, commaJoin, List.append_assoc, List.cons_append]
    refine .more (jsonString_quoted (hk _ (List.mem_cons_self _ _)) _) (jsonToken_self _ _)
      (hv _ (List.mem_cons_self _ _) _) (jsonToken_self _ _) ?_
    simpa only [List.map_cons, commaJoin] using jsonMembers_commaJoin (m :: ms) (List.cons_ne_nil _ _)
      (fun m hm => hk m (List.mem_cons_of_mem _ hm)) (fun m hm => hv m (List.mem_cons_of_mem _ hm))
      rest

/-- **An object, printed without whitespace.** `{`, the members `"k":t` separated by `,`, and
`}` derive the object of the keys and the values the texts `t` derive. -/
theorem renders_obj (ms : List (List UInt8 × List UInt8 × JsonVal))
    (hk : ∀ m ∈ ms, Escapable m.1) (hv : ∀ m ∈ ms, Renders m.2.1 m.2.2) :
    Renders ('{'.toUInt8 :: (commaJoin (ms.map fun m => quoted m.1 ++ ':'.toUInt8 :: m.2.1) ++
      ['}'.toUInt8])) (.obj (ms.map fun m => (m.1, m.2.2))) := by
  intro rest
  rw [List.cons_append, List.append_assoc, List.singleton_append]
  cases ms with
  | nil => exact .emptyObj (jsonToken_self _ _) (jsonToken_self _ _)
  | cons m ms =>
    exact .obj (jsonToken_self _ _) (jsonMembers_commaJoin _ (List.cons_ne_nil _ _) hk hv _)
      (jsonToken_self _ _)

theorem jsonElements_commaJoin : ∀ (es : List (List UInt8 × JsonVal)), es ≠ [] →
    (∀ e ∈ es, Renders e.1 e.2) → ∀ rest,
      JsonElements (commaJoin (es.map Prod.fst) ++ rest) (es.map Prod.snd) rest
  | [], h, _, _ => absurd rfl h
  | [(t, v)], _, hv, rest => .one (hv _ (List.mem_singleton_self _) rest)
  | (t, v) :: e :: es, _, hv, rest => by
    simp only [List.map_cons, commaJoin, List.append_assoc, List.cons_append]
    refine .more (hv _ (List.mem_cons_self _ _) _) (jsonToken_self _ _) ?_
    simpa only [List.map_cons, commaJoin] using jsonElements_commaJoin (e :: es)
      (List.cons_ne_nil _ _) (fun e he => hv e (List.mem_cons_of_mem _ he)) rest

/-- **An array, printed without whitespace.** `[`, the texts separated by `,`, and `]` derive the
array of the values they derive. -/
theorem renders_arr (es : List (List UInt8 × JsonVal)) (hv : ∀ e ∈ es, Renders e.1 e.2) :
    Renders ('['.toUInt8 :: (commaJoin (es.map Prod.fst) ++ [']'.toUInt8])) (.arr (es.map Prod.snd)) := by
  intro rest
  rw [List.cons_append, List.append_assoc, List.singleton_append]
  cases es with
  | nil => exact .emptyArr (jsonToken_self _ _) (jsonToken_self _ _)
  | cons e es =>
    exact .arr (jsonToken_self _ _) (jsonElements_commaJoin _ (List.cons_ne_nil _ _) hv _)
      (jsonToken_self _ _)

/-! ### `cmd_list` prints the compact text of `sessionsDoc` -/

/-- A session's members: each key, the text `printf` gives its value, and the value. -/
def sessionMembers (si : SessionInfo) : List (List UInt8 × List UInt8 × JsonVal) :=
  [(ascii "name", quoted si.name, .str si.name),
    (ascii "clients", signedDecimal si.clients, .num si.clients),
    (ascii "created", signedDecimal si.created, .num si.created),
    (ascii "command", quoted si.command, .str si.command),
    (ascii "pid", signedDecimal si.pid, .num si.pid)]

theorem sessionJson_eq (si : SessionInfo) (hn : 0 ∉ jsonEscape si.name)
    (hc : 0 ∉ jsonEscape si.command) :
    sessionJson si = '{'.toUInt8 :: (commaJoin ((sessionMembers si).map fun m =>
      quoted m.1 ++ ':'.toUInt8 :: m.2.1) ++ ['}'.toUInt8]) := by
  simp only [sessionJson, cStr_of_not_mem hn, cStr_of_not_mem hc, sessionMembers, List.map_cons,
    List.map_nil, commaJoin, quoted, List.append_assoc, List.cons_append, List.singleton_append,
    List.nil_append]
  rfl

theorem sessionsJson_succ (ss : List SessionInfo) :
    ∀ i, sessionsJson (i + 1) ss = (ss.map fun si => ','.toUInt8 :: sessionJson si).flatten := by
  induction ss with
  | nil => intro; rfl
  | cons si ss ih =>
    intro i
    rw [sessionsJson, if_pos (Nat.succ_pos i), ih, List.map_cons, List.flatten_cons,
      show ascii "," = [','.toUInt8] from rfl, List.singleton_append]

theorem commaJoin_cons (t : List UInt8) (ts : List (List UInt8)) :
    commaJoin (t :: ts) = t ++ (ts.map (','.toUInt8 :: ·)).flatten := by
  induction ts generalizing t with
  | nil => simp [commaJoin]
  | cons t' ts ih => rw [commaJoin_cons_cons, ih, List.map_cons, List.flatten_cons, List.cons_append]

/-- **The loop prints the entries separated by `,`.** -/
theorem sessionsJson_zero (ss : List SessionInfo) :
    sessionsJson 0 ss = commaJoin (ss.map sessionJson) := by
  cases ss with
  | nil => rfl
  | cons si ss =>
    rw [sessionsJson, if_neg (Nat.lt_irrefl 0), List.nil_append, sessionsJson_succ, List.map_cons,
      commaJoin_cons, List.map_map]
    rfl

theorem cmdListJson_eq (ss : List SessionInfo) :
    cmdListJson ss = '{'.toUInt8 :: (commaJoin ([(ascii "sessions",
      '['.toUInt8 :: (commaJoin (ss.map sessionJson) ++ [']'.toUInt8]),
        JsonVal.arr (ss.map SessionInfo.toJson))].map fun m =>
          quoted m.1 ++ ':'.toUInt8 :: m.2.1) ++ ['}'.toUInt8]) ++ ['\n'.toUInt8] := by
  simp only [cmdListJson, sessionsJson_zero, List.map_cons, List.map_nil, commaJoin, quoted,
    List.append_assoc, List.cons_append, List.singleton_append, List.nil_append]
  rfl

example : cmdListJson [⟨ascii "a", 7, 1, -2, ascii "sh"⟩] =
    ascii "\x7b\"sessions\":[\x7b\"name\":\"a\",\"clients\":1,\"created\":-2," ++
      ascii "\"command\":\"sh\",\"pid\":7\x7d]\x7d\n" := rfl

/-! ### The document is a JSON text -/

theorem nameByte_ascii {c : UInt8} (h : nameByte c) : c.toNat < 0x80 ∧ jsonSafe c := by
  have hle : ∀ b : UInt8, b ≤ c → b.toNat ≤ c.toNat := fun _ h => h
  have hge : ∀ b : UInt8, c ≤ b → c.toNat ≤ b.toNat := fun _ h => h
  simp only [nameByte, Bool.or_eq_true, Bool.and_eq_true, decide_eq_true_eq, beq_iff_eq] at h
  rcases h with ((((⟨h, h'⟩ | ⟨h, h'⟩) | ⟨h, h'⟩) | rfl) | rfl) | rfl
  · exact ⟨(hge _ h').trans_lt (by decide), .inl ((show 0x20 ≤ 'a'.toUInt8.toNat by decide).trans (hle _ h))⟩
  · exact ⟨(hge _ h').trans_lt (by decide), .inl ((show 0x20 ≤ 'A'.toUInt8.toNat by decide).trans (hle _ h))⟩
  · exact ⟨(hge _ h').trans_lt (by decide), .inl ((show 0x20 ≤ '0'.toUInt8.toNat by decide).trans (hle _ h))⟩
  all_goals decide

theorem escapable_of_validSessionName {name : List UInt8} (h : validSessionName name) :
    Escapable name :=
  .of_ascii fun c hc => nameByte_ascii ((validSessionName_iff.1 h).2.2.2.2 c hc)

theorem zero_not_mem_jsonEscape {s : List UInt8} (h : 0 ∉ s) : 0 ∉ jsonEscape s := by
  intro h0
  obtain ⟨c, hc, h0c⟩ := List.mem_flatMap.1 h0
  rcases escapeByte_cases c with ⟨he, -⟩ | ⟨e, he, hd, -⟩ <;>
    simp only [he, List.mem_cons, List.mem_singleton, List.not_mem_nil, or_false] at h0c
  · exact h (h0c ▸ hc)
  · rcases h0c with h0c | rfl
    · exact absurd h0c (by decide)
    · rw [show escapeDecode 0 = none by decide] at hd
      cases hd

theorem zero_not_mem_of_escapable {s : List UInt8} (h : Escapable s) : 0 ∉ s :=
  fun h0 => absurd (h.2 0 h0) (by decide)

theorem renders_sessionJson {si : SessionInfo} (hn : validSessionName si.name)
    (hc : Escapable si.command) : Renders (sessionJson si) si.toJson := by
  have hns := escapable_of_validSessionName hn
  rw [sessionJson_eq si (zero_not_mem_jsonEscape (zero_not_mem_of_escapable hns))
    (zero_not_mem_jsonEscape (zero_not_mem_of_escapable hc))]
  refine renders_obj _ (fun m hm => ?_) (fun m hm => ?_)
  · simp only [sessionMembers, List.mem_cons, List.mem_singleton, List.not_mem_nil, or_false] at hm
    rcases hm with rfl | rfl | rfl | rfl | rfl <;> exact .of_ascii (by dsimp only; decide)
  · simp only [sessionMembers, List.mem_cons, List.mem_singleton, List.not_mem_nil, or_false] at hm
    rcases hm with rfl | rfl | rfl | rfl | rfl
    exacts [renders_quoted hns, renders_signedDecimal _, renders_signedDecimal _,
      renders_quoted hc, renders_signedDecimal _]

/-- **`cmd_list --json` prints the sessions as JSON.** When every session's name is valid and its
command is escapable, the whole output is a JSON text whose value is the object `sessionsDoc`: one
member `sessions`, the array of the sessions in order, each an object of its name, client count,
creation time, command and pid as `enumerate_sessions` read them. -/
theorem cmdListJson_text (ss : List SessionInfo) (hn : ∀ si ∈ ss, validSessionName si.name)
    (hc : ∀ si ∈ ss, Escapable si.command) : JsonText (cmdListJson ss) (sessionsDoc ss) := by
  have harr := renders_arr (ss.map fun si => (sessionJson si, si.toJson)) fun e he => by
    obtain ⟨si, hsi, rfl⟩ := List.mem_map.1 he
    exact renders_sessionJson (hn si hsi) (hc si hsi)
  rw [List.map_map, List.map_map] at harr
  refine ⟨_, ['\n'.toUInt8], .nil, ?_, .cons (.inr (.inr (.inl rfl))) .nil⟩
  rw [cmdListJson_eq]
  refine renders_obj _ (fun m hm => ?_) (fun m hm => ?_) _ <;>
    rw [List.mem_singleton] at hm <;> subst hm
  exacts [.of_ascii (by dsimp only; decide), harr]

/-! ### What a JSON text cannot hold -/

/-- The bytes from `input` up to `rest` are ones a JSON text may hold raw, and valid UTF-8. -/
def SafeSpan (input rest : List UInt8) : Prop :=
  ∃ pre, input = pre ++ rest ∧ Escapable pre

theorem SafeSpan.refl (l : List UInt8) : SafeSpan l l := ⟨[], rfl, .nil⟩

theorem SafeSpan.append {pre : List UInt8} (h : Escapable pre) (rest : List UInt8) :
    SafeSpan (pre ++ rest) rest :=
  ⟨pre, rfl, h⟩

theorem SafeSpan.cons {b : UInt8} (h : b.toNat < 0x80 ∧ jsonSafe b) (rest : List UInt8) :
    SafeSpan (b :: rest) rest :=
  @SafeSpan.append [b] (.of_ascii (by simpa using h)) rest

theorem SafeSpan.trans {a b c : List UInt8} (h₁ : SafeSpan a b) (h₂ : SafeSpan b c) :
    SafeSpan a c := by
  obtain ⟨p, rfl, hp⟩ := h₁
  obtain ⟨q, rfl, hq⟩ := h₂
  exact ⟨p ++ q, (List.append_assoc _ _ _).symm, hp.append hq⟩

theorem jsonWs_safeSpan {a b : List UInt8} (h : JsonWs a b) : SafeSpan a b := by
  induction h with
  | nil => exact SafeSpan.refl _
  | cons hb _ ih =>
    refine (SafeSpan.cons ?_ _).trans ih
    rcases hb with rfl | rfl | rfl | rfl <;> decide

theorem jsonToken_safeSpan {t : UInt8} {a b : List UInt8} (ht : t.toNat < 0x80 ∧ jsonSafe t)
    (h : JsonToken t a b) : SafeSpan a b :=
  let ⟨h₁, h₂⟩ := h
  (jsonWs_safeSpan h₁).trans ((SafeSpan.cons ht _).trans (jsonWs_safeSpan h₂))

theorem isDigit_ascii {b : UInt8} (h : isDigit b) : b.toNat < 0x80 ∧ jsonSafe b := by
  simp only [isDigit, Bool.and_eq_true, decide_eq_true_eq] at h
  exact ⟨by omega, .inl (by omega)⟩

theorem escapeDecode_ascii {e d : UInt8} (h : escapeDecode e = some d) :
    e.toNat < 0x80 ∧ jsonSafe e := by
  by_cases he : e = '"'.toUInt8 ∨ e = '\\'.toUInt8 ∨ e = '/'.toUInt8 ∨ e = 'b'.toUInt8 ∨
      e = 'f'.toUInt8 ∨ e = 'n'.toUInt8 ∨ e = 'r'.toUInt8 ∨ e = 't'.toUInt8
  · rcases he with rfl | rfl | rfl | rfl | rfl | rfl | rfl | rfl <;> decide
  · simp only [not_or] at he
    obtain ⟨h₁, h₂, h₃, h₄, h₅, h₆, h₇, h₈⟩ := he
    rw [escapeDecode, if_neg h₁, if_neg h₂, if_neg h₃, if_neg h₄, if_neg h₅, if_neg h₆, if_neg h₇,
      if_neg h₈] at h
    cases h

theorem hexVal_ascii {b : UInt8} (h : (hexVal b).isSome) : b.toNat < 0x80 ∧ jsonSafe b := by
  unfold hexVal at h
  split_ifs at h with h₁ h₂ h₃
  · exact isDigit_ascii h₁
  · exact ⟨by omega, .inl (by omega)⟩
  · exact ⟨by omega, .inl (by omega)⟩
  · cases h

theorem foldlM_hexVal_ascii : ∀ (q : List UInt8) (acc v : Nat),
    q.foldlM (fun acc h => (hexVal h).map (16 * acc + ·)) acc = some v →
      Escapable q
  | [], _, _, _ => .nil
  | h :: q, acc, v, hq => by
    rw [List.foldlM_cons] at hq
    obtain ⟨a, ha, hrest⟩ := Option.bind_eq_some.1 hq
    have hh := hexVal_ascii (Option.isSome_map.symm.trans (Option.isSome_iff_exists.2 ⟨a, ha⟩))
    exact @Escapable.append [h] q (.of_ascii (by simpa using hh)) (foldlM_hexVal_ascii q a v hrest)

theorem SafeSpan.unicode {q rest : List UInt8} {v : Nat} (hq : hexQuad q = some v) :
    SafeSpan ('\\'.toUInt8 :: 'u'.toUInt8 :: (q ++ rest)) rest :=
  (SafeSpan.cons (by decide) _).trans ((SafeSpan.cons (by decide) _).trans
    (SafeSpan.append (foldlM_hexVal_ascii _ 0 _ hq) _))

theorem jsonChar_safeSpan {a b v : List UInt8} (h : JsonChar a v b) : SafeSpan a b := by
  cases h with
  | unescaped hc h20 => exact SafeSpan.append ⟨.of_char hc, fun b hb => .inl (h20 b hb)⟩ _
  | escape he =>
    exact (SafeSpan.cons (by decide) _).trans (SafeSpan.cons (escapeDecode_ascii he) _)
  | unicode _ hq => exact SafeSpan.unicode hq
  | surrogates _ hq _ _ _ hq' => exact (SafeSpan.unicode hq).trans (SafeSpan.unicode hq')

theorem jsonString_safeSpan {a s b : List UInt8} (h : JsonString a s b) : SafeSpan a b := by
  have hq : ('"'.toUInt8).toNat < 0x80 ∧ jsonSafe '"'.toUInt8 := by decide
  have hchars : ∀ {a s b : List UInt8}, JsonChars a s b → SafeSpan a b := by
    intro a s b h
    induction h with
    | nil => exact SafeSpan.refl _
    | cons hc _ ih => exact (jsonChar_safeSpan hc).trans ih
  obtain ⟨hcs⟩ := h
  exact (SafeSpan.cons hq _).trans ((hchars hcs).trans (SafeSpan.cons hq _))

theorem jsonNumber_safeSpan {a b : List UInt8} {n : Int} (h : JsonNumber a n b) : SafeSpan a b := by
  have hnat : ∀ {a b : List UInt8} {n : Nat}, JsonNat a n b → SafeSpan a b := by
    rintro a b n (_ | ⟨hd, -, hds⟩)
    · exact SafeSpan.cons (by decide) _
    · exact (SafeSpan.cons (isDigit_ascii hd) _).trans
        (SafeSpan.append (.of_ascii fun b hb => isDigit_ascii (hds b hb)) _)
  cases h with
  | nonneg h => exact hnat h
  | neg h => exact (SafeSpan.cons (by decide) _).trans (hnat h)

mutual
/-- **A value is made of bytes a text may hold raw**, in valid UTF-8. -/
theorem jsonValue_safeSpan : ∀ {a : List UInt8} {v : JsonVal} {b : List UInt8},
    JsonValue a v b → SafeSpan a b
  | _, _, _, .str h => jsonString_safeSpan h
  | _, _, _, .num h => jsonNumber_safeSpan h
  | _, _, _, .emptyObj h₁ h₂ => (jsonToken_safeSpan (by decide) h₁).trans
      (jsonToken_safeSpan (by decide) h₂)
  | _, _, _, .obj h₁ h₂ h₃ => (jsonToken_safeSpan (by decide) h₁).trans
      ((jsonMembers_safeSpan h₂).trans (jsonToken_safeSpan (by decide) h₃))
  | _, _, _, .emptyArr h₁ h₂ => (jsonToken_safeSpan (by decide) h₁).trans
      (jsonToken_safeSpan (by decide) h₂)
  | _, _, _, .arr h₁ h₂ h₃ => (jsonToken_safeSpan (by decide) h₁).trans
      ((jsonElements_safeSpan h₂).trans (jsonToken_safeSpan (by decide) h₃))

theorem jsonMembers_safeSpan : ∀ {a : List UInt8} {ms : List (List UInt8 × JsonVal)}
    {b : List UInt8}, JsonMembers a ms b → SafeSpan a b
  | _, _, _, .one h₁ h₂ h₃ => (jsonString_safeSpan h₁).trans
      ((jsonToken_safeSpan (by decide) h₂).trans (jsonValue_safeSpan h₃))
  | _, _, _, .more h₁ h₂ h₃ h₄ h₅ => (jsonString_safeSpan h₁).trans
      ((jsonToken_safeSpan (by decide) h₂).trans ((jsonValue_safeSpan h₃).trans
        ((jsonToken_safeSpan (by decide) h₄).trans (jsonMembers_safeSpan h₅))))

theorem jsonElements_safeSpan : ∀ {a : List UInt8} {vs : List JsonVal} {b : List UInt8},
    JsonElements a vs b → SafeSpan a b
  | _, _, _, .one h => jsonValue_safeSpan h
  | _, _, _, .more h₁ h₂ h₃ => (jsonValue_safeSpan h₁).trans
      ((jsonToken_safeSpan (by decide) h₂).trans (jsonElements_safeSpan h₃))
end

theorem jsonText_escapable {input : List UInt8} {v : JsonVal} (h : JsonText input v) :
    Escapable input := by
  obtain ⟨mid, mid', h₁, h₂, h₃⟩ := h
  obtain ⟨pre, hpre, hs⟩ :=
    (jsonWs_safeSpan h₁).trans ((jsonValue_safeSpan h₂).trans (jsonWs_safeSpan h₃))
  rwa [hpre, List.append_nil]

/-- **A string printed inside an escapable text is escapable.** The quotes around its escape are
ASCII, so the escape is valid UTF-8 on its own, and a byte `json_escape` copies raw stands in the
text. -/
theorem Escapable.of_quoted_within {s out : List UInt8} (h : quoted s <:+: out)
    (hout : Escapable out) : Escapable s := by
  obtain ⟨pre, post, rfl⟩ := h
  have hq : ('"'.toUInt8).toNat < 0x80 := by decide
  refine ⟨utf8_of_jsonEscape s ?_, fun c hc => ?_⟩
  · rw [quoted, List.append_assoc, List.cons_append, List.append_assoc, List.singleton_append] at hout
    have h₁ := ((Utf8.cons_ascii hq).1 (hout.1.split rfl (by simpa using hq)).2)
    exact (h₁.split rfl (by simpa using hq)).1
  · refine (Decidable.em (jsonSafe c)).resolve_right fun hcs => hcs (hout.2 c ?_)
    rcases escapeByte_cases c with ⟨he, -⟩ | ⟨-, -, -, -, -, -, hs⟩
    · exact List.mem_append_left _ (List.mem_append_right _ (List.mem_cons_of_mem _
        (List.mem_append_left _ (List.mem_flatMap.2 ⟨c, hc, he ▸ List.mem_singleton_self c⟩))))
    · exact absurd hs hcs

theorem infix_commaJoin {t : List UInt8} {ts : List (List UInt8)} (ht : t ∈ ts) :
    t <:+: commaJoin ts := by
  cases ts with
  | nil => cases ht
  | cons t' ts =>
    rw [commaJoin_cons]
    rcases List.mem_cons.1 ht with rfl | ht
    · exact (List.prefix_append t _).isInfix
    · exact ((List.suffix_cons _ t).isInfix.trans
        (List.infix_of_mem_flatten (List.mem_map_of_mem _ ht))).trans (List.suffix_append t' _).isInfix

theorem quoted_infix_obj {s k : List UInt8} {v : JsonVal}
    {ms : List (List UInt8 × List UInt8 × JsonVal)} (h : (k, quoted s, v) ∈ ms) :
    quoted s <:+: '{'.toUInt8 :: (commaJoin (ms.map fun m => quoted m.1 ++ ':'.toUInt8 :: m.2.1) ++
      ['}'.toUInt8]) := by
  have hm := infix_commaJoin (List.mem_map_of_mem (fun m => quoted m.1 ++ ':'.toUInt8 :: m.2.1) h)
  exact (((List.suffix_cons _ _).trans (List.suffix_append _ _)).isInfix.trans hm).trans
    (List.infix_cons (List.prefix_append _ _).isInfix)

theorem quoted_command_within {ss : List SessionInfo} {si : SessionInfo} (hsi : si ∈ ss)
    (hn : validSessionName si.name) (h0 : 0 ∉ si.command) : quoted si.command <:+: cmdListJson ss := by
  have hs : quoted si.command <:+: sessionJson si := by
    rw [sessionJson_eq si (zero_not_mem_jsonEscape (zero_not_mem_of_escapable
      (escapable_of_validSessionName hn))) (zero_not_mem_jsonEscape h0)]
    exact quoted_infix_obj (List.mem_cons_of_mem _ (List.mem_cons_of_mem _
      (List.mem_cons_of_mem _ (List.mem_cons_self _ _))))
  refine hs.trans ((infix_commaJoin (List.mem_map_of_mem _ hsi)).trans ?_)
  rw [cmdListJson, sessionsJson_zero]
  exact List.infix_append _ _ _

/-- **`cmd_list --json` prints JSON exactly when the commands let it.** For sessions with valid
names and commands without NUL, as `enumerate_sessions` reads them, the output is a JSON text
exactly when every command is escapable, and its value is then `sessionsDoc`; a command with
another control byte or with bytes that are not UTF-8 makes the whole output something no JSON
parser accepts. -/
theorem cmdListJson_text_iff (ss : List SessionInfo) (hn : ∀ si ∈ ss, validSessionName si.name)
    (h0 : ∀ si ∈ ss, 0 ∉ si.command) :
    (∃ v, JsonText (cmdListJson ss) v) ↔
      JsonText (cmdListJson ss) (sessionsDoc ss) ∧ ∀ si ∈ ss, Escapable si.command := by
  refine ⟨fun ⟨_, hv⟩ => ?_, fun h => ⟨_, h.1⟩⟩
  have hc : ∀ si ∈ ss, Escapable si.command := fun si hsi =>
    .of_quoted_within (quoted_command_within hsi (hn si hsi) (h0 si hsi)) (jsonText_escapable hv)
  exact ⟨cmdListJson_text ss hn hc, hc⟩

end GhostlySession
