import Mathlib.Data.Nat.Digits

/-!
# Byte strings, literals and decimal numbers

The paths, the info file and the JSON the registry reads and writes are byte strings, `List UInt8`
here, as `std::string` and the C strings hold them. Every literal of the source is ASCII, one
byte a character (`ascii`). `decimal` is what `%u`, `%d` and `%ld` print for a non-negative
value, and `readDigits` is the digit loop of `atoi`/`atol`.

* `decimal_eq_digits`: `decimal` is `Nat.digits 10` read from the most significant digit, which
  ties the printed text to Mathlib's `Nat.ofDigits_digits`.
* `decimal_isDigit`, `decimal_length_le`: every byte printed is a digit, and a number below
  `10 ^ e` has at most `e` of them.
* `readDigits_decimal`: reading the digits back gives the number, whatever non-digit follows.
-/

namespace GhostlySession

/-- The bytes of a literal of the source: all of them are ASCII, one byte a character. -/
def ascii (s : String) : List UInt8 := s.toList.map Char.toUInt8

/-- `isdigit`: `'0'` to `'9'`. -/
def isDigit (b : UInt8) : Bool := 48 ≤ b.toNat && b.toNat ≤ 57

/-- The byte of the decimal digit `d < 10`. -/
def digitByte (d : Nat) : UInt8 := (Nat.digitChar d).toUInt8

/-- `%u` of `n`, and `%d` or `%ld` of a non-negative `n`: its decimal digits, most significant
first, as `Nat.repr` writes them. -/
def decimal (n : Nat) : List UInt8 := (Nat.toDigits 10 n).map Char.toUInt8

/-- The digit loop of `atoi` and `atol`: from the value `acc` read so far, each further digit
`d` makes it `10 * acc + d`; the first non-digit ends it. -/
def readDigits (acc : Nat) : List UInt8 → Nat
  | [] => acc
  | b :: bs => if isDigit b then readDigits (10 * acc + (b.toNat - 48)) bs else acc

/-! ### Printing -/

theorem digitByte_toNat {d : Nat} (h : d < 10) : (digitByte d).toNat = 48 + d := by
  have : ∀ d < 10, (digitByte d).toNat = 48 + d := by decide
  exact this d h

theorem toDigitsCore_eq_digits : ∀ (f n : Nat) (l : List Char), 0 < n → n < 10 ^ f →
    Nat.toDigitsCore 10 f n l = (Nat.digits 10 n).reverse.map Nat.digitChar ++ l
  | 0, n, _, h0, hf => by simp at hf; omega
  | f + 1, n, l, h0, hf => by
    simp only [Nat.toDigitsCore]
    by_cases hq : n / 10 = 0
    · have hn : n < 10 := by omega
      simp [hq, Nat.digits_of_lt 10 n (by omega) hn, Nat.mod_eq_of_lt hn]
    · rw [if_neg hq, toDigitsCore_eq_digits f (n / 10) _ (by omega) (by rw [pow_succ] at hf; omega),
        Nat.digits_def' (by norm_num) h0]
      simp

/-- **`decimal` is `Nat.digits 10` read from the most significant digit.** -/
theorem decimal_eq_digits {n : Nat} (h : 0 < n) :
    decimal n = (Nat.digits 10 n).reverse.map digitByte := by
  rw [decimal, Nat.toDigits,
    toDigitsCore_eq_digits _ _ _ h (Nat.lt_of_succ_lt (Nat.lt_pow_self (by norm_num) _))]
  simp [digitByte]

theorem decimal_zero : decimal 0 = [48] := rfl

theorem decimal_ne_nil (n : Nat) : decimal n ≠ [] := by
  rcases Nat.eq_zero_or_pos n with rfl | h
  · decide
  · simpa [decimal_eq_digits h] using Nat.digits_ne_nil_iff_ne_zero.2 h.ne'

theorem decimal_isDigit (n : Nat) : ∀ b ∈ decimal n, isDigit b := by
  rcases Nat.eq_zero_or_pos n with rfl | h
  · decide
  · rw [decimal_eq_digits h]
    intro b hb
    obtain ⟨d, hd, rfl⟩ := List.mem_map.1 hb
    have hd10 : d < 10 := Nat.digits_lt_base (by norm_num) (List.mem_reverse.1 hd)
    simp only [isDigit, digitByte_toNat hd10, Bool.and_eq_true, decide_eq_true_eq]
    omega

theorem decimal_length_le {n e : Nat} (he : 0 < e) (h : n < 10 ^ e) : (decimal n).length ≤ e := by
  rw [decimal, List.length_map]
  exact Nat.toDigitsCore_length 10 (by norm_num) (n + 1) n e h he

/-! ### Reading back -/

theorem readDigits_of_head {acc : Nat} {l : List UInt8} (h : ∀ b ∈ l.head?, isDigit b = false) :
    readDigits acc l = acc := by
  cases l with
  | nil => rfl
  | cons b bs => simp [readDigits, h b rfl]

theorem readDigits_digits (acc : Nat) (ds : List Nat) (hd : ∀ d ∈ ds, d < 10) (rest : List UInt8) :
    readDigits acc (ds.map digitByte ++ rest) =
      readDigits (ds.foldl (fun a d => 10 * a + d) acc) rest := by
  induction ds generalizing acc with
  | nil => rfl
  | cons d ds ih =>
    have hd10 := hd d (List.mem_cons_self d ds)
    have h10 := digitByte_toNat hd10
    have hdig : isDigit (digitByte d) := by
      simp only [isDigit, h10, Bool.and_eq_true, decide_eq_true_eq]; omega
    rw [List.map_cons, List.cons_append, readDigits, if_pos hdig, h10, Nat.add_sub_cancel_left,
      ih _ fun d h => hd d (List.mem_cons_of_mem _ h), List.foldl_cons]

theorem foldl_reverse_ofDigits (l : List Nat) :
    l.reverse.foldl (fun a d => 10 * a + d) 0 = Nat.ofDigits 10 l := by
  induction l with
  | nil => rfl
  | cons d l ih => simp [List.foldl_append, ih, Nat.ofDigits_cons]; ring

/-- **Reading `%d` back.** `atoi`'s digit loop over the decimal text of `n`, followed by anything
that does not start with a digit, gives `n`. -/
theorem readDigits_decimal (n : Nat) {rest : List UInt8} (h : ∀ b ∈ rest.head?, isDigit b = false) :
    readDigits 0 (decimal n ++ rest) = n := by
  rcases Nat.eq_zero_or_pos n with rfl | hn
  · rw [decimal_zero, List.singleton_append, readDigits, if_pos (by decide), readDigits_of_head h]
    rfl
  · rw [decimal_eq_digits hn, readDigits_digits _ _ (fun d hd => Nat.digits_lt_base (by norm_num)
      (List.mem_reverse.1 hd)), foldl_reverse_ofDigits, Nat.ofDigits_digits, readDigits_of_head h]

end GhostlySession
