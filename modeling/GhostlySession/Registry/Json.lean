import GhostlySession.Registry.Bytes

/-!
# `json_escape` against the JSON string grammar

JSON text is UTF-8 (RFC 8259 §8.1), so the grammar is written over bytes. `Utf8Char` is RFC 3629's
`UTF8-char`, one constructor an alternative of its ABNF, and `Utf8` its star. A string is a
quotation mark, characters, and a quotation mark. A character is either unescaped, one UTF-8
character other than a control character, `"` and `\`, or a backslash followed by one of
`" \ / b f n r t`, by `u` and four hex digits, or by two such `\u` escapes of a surrogate pair.
`JsonChar input value rest` reads one character at the start of `input` and gives the UTF-8 bytes
`value` it stands for, with `rest` after it; a `\u` escape of a lone surrogate stands for no
character and is not read.

`json_escape` escapes `"`, `\`, `\n`, `\r` and `\t`, and copies every other byte as it is. The
strings it makes JSON of are the `Escapable` ones: valid UTF-8 with no other control byte.

* `escapeByte_cases`: the two shapes of what `json_escape` writes for a byte, with their guards;
  the lemmas below are case analyses on it.
* `jsonChars_jsonEscape`: an escapable string is read back from its escape, one character at a
  time (`jsonChar_jsonEscape`).
* `jsonChar_jsonEscape_inv`: a character read from an escaped string is either an escape, read
  whole, or a UTF-8 character that `json_escape` copied (`jsonEscape_append_eq_plain`).
* `jsonChars_jsonEscape_inv`: so the characters read from an escaped string followed by `"` are an
  escapable prefix of the string, and they stop at the end of an escape.
* `jsonString_quoted_jsonEscape`: the quoted escape of `s` is a JSON string exactly when `s` is
  escapable, and then it decodes to `s`; `jsonEscape_control_byte` is the byte `0x01`, for which
  it is not.
* `utf8_of_jsonEscape`: the escape of a string is valid UTF-8 only when the string is.
-/

namespace GhostlySession

/-- `json_escape`'s `switch`: the text of one byte. -/
def escapeByte (c : UInt8) : List UInt8 :=
  if c = '"'.toUInt8 then ['\\'.toUInt8, '"'.toUInt8]
  else if c = '\\'.toUInt8 then ['\\'.toUInt8, '\\'.toUInt8]
  else if c = '\n'.toUInt8 then ['\\'.toUInt8, 'n'.toUInt8]
  else if c = '\r'.toUInt8 then ['\\'.toUInt8, 'r'.toUInt8]
  else if c = '\t'.toUInt8 then ['\\'.toUInt8, 't'.toUInt8]
  else [c]

/-- `json_escape`. -/
def jsonEscape (s : List UInt8) : List UInt8 := s.flatMap escapeByte

/-! ### UTF-8 -/

/-- `UTF8-tail = %x80-BF`. -/
def Utf8Tail (b : UInt8) : Prop := 0x80 ≤ b.toNat ∧ b.toNat ≤ 0xBF

/-- RFC 3629's `UTF8-char`: its byte ranges leave out overlong forms, the surrogates
`U+D800..DFFF` and everything above `U+10FFFF`. -/
inductive Utf8Char : List UInt8 → Prop
  | one {a : UInt8} : a.toNat ≤ 0x7F → Utf8Char [a]
  | two {a b : UInt8} : 0xC2 ≤ a.toNat → a.toNat ≤ 0xDF → Utf8Tail b → Utf8Char [a, b]
  | e0 {a b c : UInt8} : a.toNat = 0xE0 → 0xA0 ≤ b.toNat → b.toNat ≤ 0xBF → Utf8Tail c →
      Utf8Char [a, b, c]
  | e1ec {a b c : UInt8} : 0xE1 ≤ a.toNat → a.toNat ≤ 0xEC → Utf8Tail b → Utf8Tail c →
      Utf8Char [a, b, c]
  | ed {a b c : UInt8} : a.toNat = 0xED → 0x80 ≤ b.toNat → b.toNat ≤ 0x9F → Utf8Tail c →
      Utf8Char [a, b, c]
  | eeef {a b c : UInt8} : 0xEE ≤ a.toNat → a.toNat ≤ 0xEF → Utf8Tail b → Utf8Tail c →
      Utf8Char [a, b, c]
  | f0 {a b c d : UInt8} : a.toNat = 0xF0 → 0x90 ≤ b.toNat → b.toNat ≤ 0xBF → Utf8Tail c →
      Utf8Tail d → Utf8Char [a, b, c, d]
  | f1f3 {a b c d : UInt8} : 0xF1 ≤ a.toNat → a.toNat ≤ 0xF3 → Utf8Tail b → Utf8Tail c →
      Utf8Tail d → Utf8Char [a, b, c, d]
  | f4 {a b c d : UInt8} : a.toNat = 0xF4 → 0x80 ≤ b.toNat → b.toNat ≤ 0x8F → Utf8Tail c →
      Utf8Tail d → Utf8Char [a, b, c, d]

/-- `UTF8-octets = *( UTF8-char )`. -/
inductive Utf8 : List UInt8 → Prop
  | nil : Utf8 []
  | cons {c s : List UInt8} : Utf8Char c → Utf8 s → Utf8 (c ++ s)

/-- The UTF-8 encoding of a code point. -/
def utf8Encode (v : Nat) : List UInt8 :=
  if v < 0x80 then [UInt8.ofNat v]
  else if v < 0x800 then [UInt8.ofNat (0xC0 + v / 64), UInt8.ofNat (0x80 + v % 64)]
  else if v < 0x10000 then
    [UInt8.ofNat (0xE0 + v / 4096), UInt8.ofNat (0x80 + v / 64 % 64), UInt8.ofNat (0x80 + v % 64)]
  else
    [UInt8.ofNat (0xF0 + v / 262144), UInt8.ofNat (0x80 + v / 4096 % 64),
      UInt8.ofNat (0x80 + v / 64 % 64), UInt8.ofNat (0x80 + v % 64)]

theorem Utf8Char.ascii_or_high {c : List UInt8} (h : Utf8Char c) :
    (∃ a, c = [a] ∧ a.toNat < 0x80) ∨ ∀ b ∈ c, 0x80 ≤ b.toNat := by
  cases h with
  | one ha => exact .inl ⟨_, rfl, by omega⟩
  | _ =>
    refine .inr ?_
    simp only [List.forall_mem_cons, List.not_mem_nil, false_implies, implies_true, and_true,
      Utf8Tail] at *
    omega

theorem Utf8.append {s t : List UInt8} (hs : Utf8 s) (ht : Utf8 t) : Utf8 (s ++ t) := by
  induction hs with
  | nil => exact ht
  | cons hc _ ih => rw [List.append_assoc]; exact .cons hc ih

theorem Utf8.of_ascii : ∀ {s : List UInt8}, (∀ b ∈ s, b.toNat < 0x80) → Utf8 s
  | [], _ => .nil
  | b :: s, h => @Utf8.cons [b] s (.one (by have := h b (List.mem_cons_self b s); omega))
      (Utf8.of_ascii fun x hx => h x (List.mem_cons_of_mem b hx))

theorem Utf8.of_char {c : List UInt8} (hc : Utf8Char c) : Utf8 c := by
  simpa using Utf8.cons hc .nil

theorem Utf8.cons_inv {x : List UInt8} (h : Utf8 x) (hx : x ≠ []) :
    ∃ c r, x = c ++ r ∧ Utf8Char c ∧ Utf8 r := by
  cases h with
  | nil => exact absurd rfl hx
  | cons hc hr => exact ⟨_, _, rfl, hc, hr⟩

theorem Utf8.cons_ascii {a : UInt8} {l : List UInt8} (ha : a.toNat < 0x80) :
    Utf8 (a :: l) ↔ Utf8 l := by
  refine ⟨fun h => ?_, fun h => @Utf8.cons [a] l (.one (by omega)) h⟩
  obtain ⟨c, r, hcr, hc, hr⟩ := h.cons_inv (List.cons_ne_nil a l)
  rcases hc.ascii_or_high with ⟨a', rfl, -⟩ | hhigh
  · exact (List.cons.inj hcr).2 ▸ hr
  · rcases List.cons_eq_append_iff.1 hcr with ⟨rfl, -⟩ | ⟨c', rfl, -⟩
    · cases hc
    · exact absurd (hhigh a (List.mem_cons_self a c')) (by omega)

theorem Utf8.of_ascii_append {p l : List UInt8} (hp : ∀ b ∈ p, b.toNat < 0x80)
    (h : Utf8 (p ++ l)) : Utf8 l := by
  induction p with
  | nil => exact h
  | cons b p ih =>
    exact ih (fun x hx => hp x (List.mem_cons_of_mem b hx))
      ((Utf8.cons_ascii (hp b (List.mem_cons_self b p))).1 h)

theorem Utf8.split {z : List UInt8} (h : Utf8 z) :
    ∀ {x y : List UInt8}, z = x ++ y → (∀ b ∈ y.head?, b.toNat < 0x80) → Utf8 x ∧ Utf8 y := by
  induction h with
  | nil =>
    intro x y e _
    obtain ⟨rfl, rfl⟩ := List.append_eq_nil.1 e.symm
    exact ⟨.nil, .nil⟩
  | @cons c s hc hs ih =>
    intro x y e hy
    rcases List.append_eq_append_iff.1 e with ⟨a', rfl, rfl⟩ | ⟨c', rfl, rfl⟩
    · exact ⟨.cons hc (ih rfl hy).1, (ih rfl hy).2⟩
    · rcases x with _ | ⟨b, x⟩
      · exact ⟨.nil, .cons hc hs⟩
      rcases c' with _ | ⟨b', c'⟩
      · rw [List.append_nil] at hc
        exact ⟨.of_char hc, hs⟩
      rcases hc.ascii_or_high with ⟨a, ha, -⟩ | hhigh
      · simp at ha
      · exact absurd (hy b' rfl) (by have := hhigh b' (by simp); omega)

/-! ### The JSON string grammar -/

/-- The escapes other than `\u`: the byte after the backslash, and the byte it stands for
(`\b` backspace, `\f` form feed, `\n` line feed, `\r` carriage return, `\t` tab). -/
def escapeDecode (e : UInt8) : Option UInt8 :=
  if e = '"'.toUInt8 then some '"'.toUInt8
  else if e = '\\'.toUInt8 then some '\\'.toUInt8
  else if e = '/'.toUInt8 then some '/'.toUInt8
  else if e = 'b'.toUInt8 then some 0x08
  else if e = 'f'.toUInt8 then some 0x0C
  else if e = 'n'.toUInt8 then some '\n'.toUInt8
  else if e = 'r'.toUInt8 then some '\r'.toUInt8
  else if e = 't'.toUInt8 then some '\t'.toUInt8
  else none

/-- `HEXDIG`: the value of a hex digit. -/
def hexVal (b : UInt8) : Option Nat :=
  if isDigit b then some (b.toNat - 48)
  else if 97 ≤ b.toNat ∧ b.toNat ≤ 102 then some (b.toNat - 87)
  else if 65 ≤ b.toNat ∧ b.toNat ≤ 70 then some (b.toNat - 55)
  else none

/-- The value of the four hex digits of a `\u` escape. -/
def hexQuad (q : List UInt8) : Option Nat :=
  q.foldlM (fun acc h => (hexVal h).map (16 * acc + ·)) 0

/-- The grammar's `char`, and the UTF-8 bytes of the character it stands for. -/
inductive JsonChar : List UInt8 → List UInt8 → List UInt8 → Prop
  /-- `unescaped`: a UTF-8 character from `U+0020` other than `"` and `\`. -/
  | unescaped {c rest : List UInt8} : Utf8Char c → (∀ b ∈ c, 0x20 ≤ b.toNat) →
      c ≠ ['"'.toUInt8] → c ≠ ['\\'.toUInt8] → JsonChar (c ++ rest) c rest
  /-- `escape`: a backslash and one of `" \ / b f n r t`. -/
  | escape {e d : UInt8} {rest : List UInt8} :
      escapeDecode e = some d → JsonChar ('\\'.toUInt8 :: e :: rest) [d] rest
  /-- `escape`: a backslash, `u`, and four hex digits of a code point outside the surrogates. -/
  | unicode {q rest : List UInt8} {v : Nat} :
      q.length = 4 → hexQuad q = some v → (v < 0xD800 ∨ 0xE000 ≤ v) →
        JsonChar ('\\'.toUInt8 :: 'u'.toUInt8 :: (q ++ rest)) (utf8Encode v) rest
  /-- Two `\u` escapes of a high and a low surrogate, for one code point above `U+FFFF`. -/
  | surrogates {q q' rest : List UInt8} {hi lo : Nat} :
      q.length = 4 → hexQuad q = some hi → 0xD800 ≤ hi → hi < 0xDC00 →
        q'.length = 4 → hexQuad q' = some lo → 0xDC00 ≤ lo → lo < 0xE000 →
          JsonChar ('\\'.toUInt8 :: 'u'.toUInt8 :: (q ++ '\\'.toUInt8 :: 'u'.toUInt8 :: (q' ++ rest)))
            (utf8Encode (0x10000 + (hi - 0xD800) * 0x400 + (lo - 0xDC00))) rest

/-- `*char`: the characters read from `input` decode to `value`, and `rest` follows them. -/
inductive JsonChars : List UInt8 → List UInt8 → List UInt8 → Prop
  | nil {rest : List UInt8} : JsonChars rest [] rest
  | cons {input mid rest c cs : List UInt8} :
      JsonChar input c mid → JsonChars mid cs rest → JsonChars input (c ++ cs) rest

/-- `string = quotation-mark *char quotation-mark`, decoding to `value`, with `rest` after it. -/
inductive JsonString : List UInt8 → List UInt8 → List UInt8 → Prop
  | mk {input value rest : List UInt8} :
      JsonChars input value ('"'.toUInt8 :: rest) → JsonString ('"'.toUInt8 :: input) value rest

/-- The bytes a JSON text may hold raw: every byte from `0x20`, and the whitespace control bytes
`\n`, `\r` and `\t`, which `json_escape` escapes inside a string. -/
def jsonSafe (c : UInt8) : Prop :=
  0x20 ≤ c.toNat ∨ c = '\n'.toUInt8 ∨ c = '\r'.toUInt8 ∨ c = '\t'.toUInt8

instance (c : UInt8) : Decidable (jsonSafe c) := inferInstanceAs (Decidable (_ ∨ _))

/-- The strings `json_escape` makes JSON strings of: valid UTF-8 with no control byte but `\n`,
`\r` and `\t`. -/
def Escapable (s : List UInt8) : Prop := Utf8 s ∧ ∀ c ∈ s, jsonSafe c

theorem Escapable.append {s t : List UInt8} (hs : Escapable s) (ht : Escapable t) :
    Escapable (s ++ t) :=
  ⟨hs.1.append ht.1, fun c hc => (List.mem_append.1 hc).elim (hs.2 c) (ht.2 c)⟩

theorem Escapable.of_ascii {s : List UInt8} (h : ∀ b ∈ s, b.toNat < 0x80 ∧ jsonSafe b) :
    Escapable s :=
  ⟨.of_ascii fun b hb => (h b hb).1, fun b hb => (h b hb).2⟩

theorem Escapable.nil : Escapable [] := ⟨.nil, nofun⟩

/-! ### Reading an escape back -/

/-- **What `json_escape` writes for one byte**: the byte itself, when it is none of the five it
escapes, or a backslash and a byte other than `u` that the grammar's escape decodes back to it. -/
theorem escapeByte_cases (c : UInt8) :
    (escapeByte c = [c] ∧ c ≠ '"'.toUInt8 ∧ c ≠ '\\'.toUInt8 ∧ c ≠ '\n'.toUInt8 ∧
        c ≠ '\r'.toUInt8 ∧ c ≠ '\t'.toUInt8) ∨
      ∃ e, escapeByte c = ['\\'.toUInt8, e] ∧ escapeDecode e = some c ∧ e ≠ 'u'.toUInt8 ∧
        e.toNat < 0x80 ∧ c.toNat < 0x80 ∧ jsonSafe c := by
  by_cases h : c = '"'.toUInt8 ∨ c = '\\'.toUInt8 ∨ c = '\n'.toUInt8 ∨ c = '\r'.toUInt8 ∨
      c = '\t'.toUInt8
  · rcases h with rfl | rfl | rfl | rfl | rfl <;>
      exact .inr ⟨_, rfl, by decide, by decide, by decide, by decide, by decide⟩
  · simp only [not_or] at h
    obtain ⟨h1, h2, h3, h4, h5⟩ := h
    exact .inl ⟨by rw [escapeByte, if_neg h1, if_neg h2, if_neg h3, if_neg h4, if_neg h5],
      h1, h2, h3, h4, h5⟩

theorem escapeByte_of_le {c : UInt8} (h : 0x20 ≤ c.toNat) (hq : c ≠ '"'.toUInt8)
    (hb : c ≠ '\\'.toUInt8) : escapeByte c = [c] := by
  have hc : ∀ d : UInt8, d.toNat < 0x20 → c ≠ d := fun d hd e => by subst e; omega
  rw [escapeByte, if_neg hq, if_neg hb, if_neg (hc _ (by decide)), if_neg (hc _ (by decide)),
    if_neg (hc _ (by decide))]

theorem escapeByte_of_high {c : UInt8} (h : 0x80 ≤ c.toNat) : escapeByte c = [c] :=
  escapeByte_of_le (by omega) (fun e => absurd h (by subst e; decide))
    fun e => absurd h (by subst e; decide)

theorem escapeByte_ascii {c : UInt8} (h : c.toNat < 0x80) : ∀ b ∈ escapeByte c, b.toNat < 0x80 := by
  rcases escapeByte_cases c with ⟨he, -⟩ | ⟨e, he, -, -, he', -⟩ <;> rw [he]
  · simpa using h
  · simpa using ⟨by decide, he'⟩

theorem jsonEscape_append (s t : List UInt8) : jsonEscape (s ++ t) = jsonEscape s ++ jsonEscape t :=
  List.flatMap_append _ _ _

theorem jsonEscape_cons (c : UInt8) (s : List UInt8) :
    jsonEscape (c :: s) = escapeByte c ++ jsonEscape s :=
  List.flatMap_cons _ _ _

theorem escapeByte_of_unescaped {c : List UInt8} (hc : Utf8Char c) (h20 : ∀ b ∈ c, 0x20 ≤ b.toNat)
    (hq : c ≠ ['"'.toUInt8]) (hb : c ≠ ['\\'.toUInt8]) : ∀ b ∈ c, escapeByte b = [b] := by
  rcases hc.ascii_or_high with ⟨a, rfl, -⟩ | hhigh
  · rw [List.forall_mem_singleton]
    exact escapeByte_of_le (h20 a (List.mem_singleton_self a)) (fun e => hq (e ▸ rfl))
      fun e => hb (e ▸ rfl)
  · exact fun b hbc => escapeByte_of_high (hhigh b hbc)

theorem jsonEscape_append_eq_plain {x : List UInt8} (hx : ∀ b ∈ x.head?, escapeByte b ≠ [b]) :
    ∀ {c s r : List UInt8}, (∀ b ∈ c, escapeByte b = [b]) → jsonEscape s ++ x = c ++ r →
      ∃ s₂, s = c ++ s₂ ∧ r = jsonEscape s₂ ++ x
  | [], s, _, _, h => ⟨s, rfl, h.symm⟩
  | b :: c, [], r, hc, h => by
    obtain ⟨x', rfl⟩ : ∃ x', x = b :: x' := ⟨_, h.trans (List.cons_append b c r)⟩
    exact absurd (hc b (List.mem_cons_self b c)) (hx b rfl)
  | b :: c, a :: s, r, hc, h => by
    rw [jsonEscape_cons, List.append_assoc] at h
    rcases escapeByte_cases a with ⟨he, -⟩ | ⟨e, he, -⟩ <;> rw [he] at h <;>
      simp only [List.cons_append, List.nil_append, List.cons.injEq] at h
    · obtain ⟨rfl, h⟩ := h
      obtain ⟨s₂, rfl, rfl⟩ := jsonEscape_append_eq_plain hx
        (fun b hb => hc b (List.mem_cons_of_mem a hb)) h
      exact ⟨s₂, rfl, rfl⟩
    · obtain ⟨rfl, -⟩ := h
      exact absurd (hc _ (List.mem_cons_self _ c)) (by decide)

theorem jsonEscape_append_eq_backslash {x : List UInt8} (hx : ∀ b ∈ x.head?, b ≠ '\\'.toUInt8)
    {s r : List UInt8} {e : UInt8} (h : jsonEscape s ++ x = '\\'.toUInt8 :: e :: r) :
    ∃ a s', s = a :: s' ∧ escapeByte a = ['\\'.toUInt8, e] ∧ r = jsonEscape s' ++ x := by
  rcases s with _ | ⟨a, s'⟩
  · have hx' : x = '\\'.toUInt8 :: e :: r := h
    exact (hx _ (by rw [hx']; rfl) rfl).elim
  rw [jsonEscape_cons, List.append_assoc] at h
  rcases escapeByte_cases a with ⟨he, -, hb, -⟩ | ⟨e', he, -⟩ <;> rw [he] at h <;>
    simp only [List.cons_append, List.nil_append, List.cons.injEq, true_and] at h
  · exact absurd h.1 hb
  · obtain ⟨rfl, rfl⟩ := h
    exact ⟨a, s', rfl, he, rfl⟩

/-! ### What an escapable string reads back as -/

theorem jsonChar_jsonEscape {c : List UInt8} (hc : Utf8Char c) (hs : ∀ b ∈ c, jsonSafe b)
    (rest : List UInt8) : JsonChar (jsonEscape c ++ rest) c rest := by
  rcases hc.ascii_or_high with ⟨a, rfl, -⟩ | hhigh
  · rw [jsonEscape_cons, jsonEscape, List.flatMap_nil, List.append_nil]
    rcases escapeByte_cases a with ⟨he, h1, h2, h3, h4, h5⟩ | ⟨e, he, hd, -⟩ <;> rw [he]
    · rcases hs a (List.mem_singleton_self a) with h20 | rfl | rfl | rfl
      · exact .unescaped hc (by simpa using h20) (fun e => h1 (List.singleton_inj.1 e))
          fun e => h2 (List.singleton_inj.1 e)
      exacts [absurd rfl h3, absurd rfl h4, absurd rfl h5]
    · exact .escape hd
  · have hself : jsonEscape c = c := by
      rw [jsonEscape, List.flatMap_congr fun b hb => escapeByte_of_high (hhigh b hb)]
      exact List.flatMap_singleton' c
    rw [hself]
    refine .unescaped hc (fun b hb => by have := hhigh b hb; omega) (fun e => ?_) fun e => ?_ <;>
      exact absurd (hhigh _ (e ▸ List.mem_singleton_self _)) (by decide)

theorem jsonChars_jsonEscape {s : List UInt8} (h : Escapable s) (rest : List UInt8) :
    JsonChars (jsonEscape s ++ rest) s rest := by
  obtain ⟨hu, hs⟩ := h
  induction hu with
  | nil => exact .nil
  | cons hc _ ih =>
    rw [jsonEscape_append, List.append_assoc]
    exact .cons (jsonChar_jsonEscape hc (fun b hb => hs b (List.mem_append_left _ hb)) _)
      (ih fun b hb => hs b (List.mem_append_right _ hb))

/-! ### Nothing else is read -/

/-- **A character read from an escaped string.** It is a character of the string, escapable, and
what follows it is the escape of the rest of the string. -/
theorem jsonChar_jsonEscape_inv {s t v mid : List UInt8}
    (h : JsonChar (jsonEscape s ++ '"'.toUInt8 :: t) v mid) :
    ∃ s₂, s = v ++ s₂ ∧ Escapable v ∧ mid = jsonEscape s₂ ++ '"'.toUInt8 :: t := by
  have hq : ∀ b ∈ ('"'.toUInt8 :: t).head?, b ≠ '\\'.toUInt8 := by simp; decide
  generalize hin : jsonEscape s ++ '"'.toUInt8 :: t = input at h
  cases h with
  | unescaped hc h20 hq' hb =>
    obtain ⟨s₂, rfl, rfl⟩ := jsonEscape_append_eq_plain (by simp; decide)
      (escapeByte_of_unescaped hc h20 hq' hb) hin
    exact ⟨s₂, rfl, ⟨.of_char hc, fun b hb => .inl (h20 b hb)⟩, rfl⟩
  | escape hd =>
    obtain ⟨a, s', rfl, he, rfl⟩ := jsonEscape_append_eq_backslash hq hin
    rcases escapeByte_cases a with ⟨he', -, hb, -⟩ | ⟨e, he', hd', -, -, ha, hs⟩
    · rw [he'] at he
      exact absurd (List.cons.inj he).1 hb
    · obtain rfl : _ = e := (List.cons.inj (List.cons.inj (he.symm.trans he')).2).1
      obtain rfl := Option.some.inj (hd.symm.trans hd')
      exact ⟨s', rfl, .of_ascii (by simpa using ⟨ha, hs⟩), rfl⟩
  | unicode | surrogates =>
    obtain ⟨a, s', -, he, -⟩ := jsonEscape_append_eq_backslash hq hin
    rcases escapeByte_cases a with ⟨he', -, hb, -⟩ | ⟨e, he', -, hu, -⟩ <;> rw [he'] at he
    · exact absurd (List.cons.inj he).1 hb
    · exact absurd (List.cons.inj (List.cons.inj he).2).1 hu

/-- **What is read from an escaped string followed by `"`.** The characters read are an escapable
prefix `v` of the string, and they stop where the escape of the rest of the string begins. -/
theorem jsonChars_jsonEscape_inv {s t v r : List UInt8}
    (h : JsonChars (jsonEscape s ++ '"'.toUInt8 :: t) v r) :
    ∃ s₂, s = v ++ s₂ ∧ Escapable v ∧ r = jsonEscape s₂ ++ '"'.toUInt8 :: t := by
  generalize hin : jsonEscape s ++ '"'.toUInt8 :: t = input at h
  induction h generalizing s with
  | nil => exact ⟨s, rfl, .nil, hin.symm⟩
  | cons hc _ ih =>
    subst hin
    obtain ⟨s₁, rfl, hv, rfl⟩ := jsonChar_jsonEscape_inv hc
    obtain ⟨s₂, rfl, hvs, rfl⟩ := ih rfl
    exact ⟨s₂, (List.append_assoc _ _ _).symm, hv.append hvs, rfl⟩

/-- **The quoted escape of `s` is a JSON string exactly when `s` is escapable**, and then it
decodes to `s` and nothing follows it. -/
theorem jsonString_quoted_jsonEscape (s : List UInt8) :
    (JsonString ('"'.toUInt8 :: (jsonEscape s ++ ['"'.toUInt8])) s [] ↔ Escapable s) ∧
      ∀ v rest, JsonString ('"'.toUInt8 :: (jsonEscape s ++ ['"'.toUInt8])) v rest →
        v = s ∧ rest = [] := by
  have hval : ∀ v rest, JsonString ('"'.toUInt8 :: (jsonEscape s ++ ['"'.toUInt8])) v rest →
      v = s ∧ rest = [] ∧ Escapable v := by
    rintro v rest ⟨h⟩
    obtain ⟨s₂, rfl, hv, hr⟩ := jsonChars_jsonEscape_inv h
    cases s₂ with
    | nil => simp_all [jsonEscape]
    | cons c s₂ =>
      rw [jsonEscape_cons, List.append_assoc] at hr
      rcases escapeByte_cases c with ⟨he, h1, -⟩ | ⟨e, he, -⟩ <;> rw [he] at hr <;>
        simp only [List.cons_append, List.cons.injEq] at hr
      exacts [(h1 hr.1.symm).elim, absurd hr.1 (by decide)]
  refine ⟨⟨fun h => (hval _ _ h).2.2, fun h => .mk (jsonChars_jsonEscape h _)⟩,
    fun v rest h => ⟨(hval v rest h).1, (hval v rest h).2.1⟩⟩

/-- **`json_escape` does not make every byte string a JSON string.** A control byte other than
`\n`, `\r` and `\t` is copied raw, and no character of the grammar reads it: the quoted escape of
the one byte `0x01` is not a JSON string. -/
theorem jsonEscape_control_byte :
    ¬ ∀ s : List UInt8, JsonString ('"'.toUInt8 :: (jsonEscape s ++ ['"'.toUInt8])) s [] := fun h =>
  absurd (((jsonString_quoted_jsonEscape [1]).1.1 (h [1])).2 1 (List.mem_singleton_self 1))
    (by decide)

/-! ### The escape keeps UTF-8 -/

/-- **The escape of a string is valid UTF-8 only when the string is.** The escapes are ASCII, and a
character of the escape that starts with a high byte is one the string holds. -/
theorem utf8_of_jsonEscape : ∀ s : List UInt8, Utf8 (jsonEscape s) → Utf8 s
  | [], _ => .nil
  | a :: s, h => by
    rw [jsonEscape_cons] at h
    by_cases ha : a.toNat < 0x80
    · exact @Utf8.cons [a] s (.one (by omega))
        (utf8_of_jsonEscape s (.of_ascii_append (escapeByte_ascii ha) h))
    rw [escapeByte_of_high (by omega), List.singleton_append] at h
    obtain ⟨c, r, hcr, hc, hr⟩ := h.cons_inv (List.cons_ne_nil _ _)
    rcases hc.ascii_or_high with ⟨a', rfl, ha'⟩ | hhigh
    · exact absurd ((List.cons.inj hcr).1 ▸ ha') ha
    obtain ⟨c', rfl, hs⟩ : ∃ c', c = a :: c' ∧ jsonEscape s = c' ++ r := by
      rcases List.cons_eq_append_iff.1 hcr with ⟨rfl, -⟩ | ⟨c', rfl, hs⟩
      exacts [(by cases hc), ⟨c', rfl, hs⟩]
    obtain ⟨s₂, hs₂, rfl⟩ := @jsonEscape_append_eq_plain [] nofun c' s r
      (fun b hb => escapeByte_of_high (hhigh b (List.mem_cons_of_mem a hb)))
      (by rw [List.append_nil, hs])
    have hlt : s₂.length < s.length + 1 := by rw [hs₂, List.length_append]; omega
    rw [List.append_nil] at hr
    exact hs₂ ▸ Utf8.cons hc (utf8_of_jsonEscape s₂ hr)
termination_by s => s.length

end GhostlySession
