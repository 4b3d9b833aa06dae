import Mathlib.Data.List.Induction
import Mathlib.Data.Nat.Digits.Defs
import TonTrace.Proofs.Text

/-! What numerals denote, and which texts are numerals.

The value of a numeral is the sum of its digits by position. The readers of
decimal and hexadecimal text compute that value and accept every nonempty run
of digits; the writers produce the one numeral of it without needless zeros or
the one of a fixed width.
-/

set_option autoImplicit false

namespace TonTrace

def positional (base : ℕ) (digit : Char → ℕ) (cs : List Char) : ℕ :=
  Nat.ofDigits base (cs.reverse.map digit)

section

variable {base : ℕ} {digit : Char → ℕ}

@[simp] theorem positional_nil : positional base digit [] = 0 := rfl

@[simp] theorem positional_singleton (c : Char) : positional base digit [c] = digit c := by
  simp [positional]

theorem positional_append (front back : List Char) :
    positional base digit (front ++ back) =
      positional base digit front * base ^ back.length + positional base digit back := by
  simp [positional, Nat.ofDigits_append, Nat.mul_comm, Nat.add_comm]

theorem positional_append_singleton (cs : List Char) (c : Char) :
    positional base digit (cs ++ [c]) = base * positional base digit cs + digit c := by
  rw [positional_append, positional_singleton, List.length_singleton, pow_one, Nat.mul_comm]

theorem positional_lt {cs : List Char} (large : 1 < base) (small : ∀ c ∈ cs, digit c < base) :
    positional base digit cs < base ^ cs.length := by
  have all : ∀ d ∈ cs.reverse.map digit, d < base := by simpa using small
  simpa [positional] using Nat.ofDigits_lt_base_pow_length large all

end

namespace Decimal

def value (cs : List Char) : ℕ := positional 10 (fun c => c.toNat - '0'.toNat) cs

theorem value_append_singleton (cs : List Char) (c : Char) :
    value (cs ++ [c]) = 10 * value cs + (c.toNat - '0'.toNat) := positional_append_singleton cs c

theorem value_append (front back : List Char) :
    value (front ++ back) = value front * 10 ^ back.length + value back :=
  positional_append front back

theorem ofDigitChars_eq_value (cs : List Char) : Nat.ofDigitChars 10 cs 0 = value cs := by
  induction cs using List.reverseRecOn with
  | nil => rfl
  | append_singleton cs c ih =>
    rw [Nat.ofDigitChars_append, Nat.ofDigitChars_cons, Nat.ofDigitChars_nil, ih,
      value_append_singleton]

@[simp] theorem value_digits (n : ℕ) : value (digits n) = n := by
  rw [← ofDigitChars_eq_value]
  exact Nat.ofDigitChars_ten_toDigits

theorem value_replicate_zero (width : ℕ) : value (List.replicate width '0') = 0 := by
  rw [← ofDigitChars_eq_value, Nat.ofDigitChars_replicate_zero, Nat.mul_zero]

theorem bounds_of_isDigit {c : Char} (digit : c.isDigit = true) :
    '0'.toNat ≤ c.toNat ∧ c.toNat < '0'.toNat + 10 := by
  have bounds := Char.isDigit_iff_toNat.mp digit
  exact ⟨bounds.1, Nat.lt_succ_of_le bounds.2⟩

theorem digit_lt {c : Char} (digit : c.isDigit = true) : c.toNat - '0'.toNat < 10 := by
  have bounds := bounds_of_isDigit digit
  omega

theorem digitChar_of_isDigit {c : Char} (digit : c.isDigit = true) :
    Nat.digitChar (c.toNat - '0'.toNat) = c := by
  have bounds := bounds_of_isDigit digit
  have zero : '0'.toNat = 48 := rfl
  apply Char.toNat_inj.mp
  rw [Nat.toNat_digitChar_of_lt_ten (digit_lt digit)]
  omega

theorem digits?_eq_some_iff {cs : List Char} {n : ℕ} :
    digits? cs = some n ↔ cs ≠ [] ∧ (∀ c ∈ cs, c.isDigit = true) ∧ value cs = n := by
  simp only [digits?, ofDigitChars_eq_value, Option.ite_none_right_eq_some, List.all_eq_true,
    Option.some.injEq, and_assoc]

/-- The digits without the zeros before the first other one; a single zero when there is none. -/
def trimmed (cs : List Char) : List Char :=
  match cs.dropWhile (· == '0') with
  | [] => ['0']
  | c :: rest => c :: rest

theorem trimmed_append_singleton (cs : List Char) (c : Char) :
    trimmed (cs ++ [c]) = if cs.dropWhile (· == '0') = [] then [c] else trimmed cs ++ [c] := by
  unfold trimmed
  rw [List.dropWhile_append]
  cases shape : cs.dropWhile (· == '0') with
  | nil => by_cases zero : c = '0' <;> simp [zero]
  | cons first rest => simp

theorem value_eq_zero_iff {cs : List Char} (digits : ∀ c ∈ cs, c.isDigit = true) :
    value cs = 0 ↔ cs.dropWhile (· == '0') = [] := by
  induction cs using List.reverseRecOn with
  | nil => simp [value]
  | append_singleton cs c ih =>
    rw [List.forall_mem_append, List.forall_mem_singleton] at digits
    have bounds := bounds_of_isDigit digits.2
    have last : c.toNat - '0'.toNat = 0 ↔ c = '0' := by
      rw [← Char.toNat_inj]
      omega
    rw [value_append_singleton, Nat.add_eq_zero_iff, last, Nat.mul_eq_zero, ih digits.1,
      List.dropWhile_append]
    cases shape : cs.dropWhile (· == '0') with
    | nil => by_cases zero : c = '0' <;> simp [zero]
    | cons first rest => simp

/-- Writing a number is leaving the needless zeros out of any numeral of it. -/
theorem digits_value {cs : List Char} (all : ∀ c ∈ cs, c.isDigit = true) :
    digits (value cs) = trimmed cs := by
  induction cs using List.reverseRecOn with
  | nil => rfl
  | append_singleton cs c ih =>
    rw [List.forall_mem_append, List.forall_mem_singleton] at all
    have small := digit_lt all.2
    have last := digitChar_of_isDigit all.2
    rw [trimmed_append_singleton, value_append_singleton]
    split
    next zeros =>
      rw [(value_eq_zero_iff all.1).mpr zeros, Nat.mul_zero, Nat.zero_add, digits,
        Nat.toDigits_of_lt_base small, last]
    next others =>
      have positive : value cs ≠ 0 := mt (value_eq_zero_iff all.1).mp others
      have quotient : (10 * value cs + (c.toNat - '0'.toNat)) / 10 = value cs := by omega
      have rest : (10 * value cs + (c.toNat - '0'.toNat)) % 10 = c.toNat - '0'.toNat := by omega
      rw [digits, Nat.toDigits_of_base_le (by decide) (by omega), quotient, rest, last, ← ih all.1,
        digits]

inductive Sign where
  | absent
  | plus
  | minus
  deriving DecidableEq

namespace Sign

def chars : Sign → List Char
  | .absent => []
  | .plus => ['+']
  | .minus => ['-']

def apply : Sign → ℕ → ℤ
  | .minus, n => -n
  | _, n => n

end Sign

structure Numeral where
  sign : Sign
  digits : List Char
  digits_ne_nil : digits ≠ []
  isDigit_of_mem : ∀ c ∈ digits, c.isDigit = true

namespace Numeral

def chars (numeral : Numeral) : List Char := numeral.sign.chars ++ numeral.digits

def magnitude (numeral : Numeral) : ℕ := Decimal.value numeral.digits

def value (numeral : Numeral) : ℤ := numeral.sign.apply numeral.magnitude

/-- No plus, no needless zeros and no minus before zero. -/
def canonical (numeral : Numeral) : List Char :=
  let digits := trimmed numeral.digits
  if numeral.sign = .minus ∧ digits ≠ ['0'] then '-' :: digits else digits

theorem exists_cons (numeral : Numeral) :
    ∃ c cs, numeral.digits = c :: cs ∧ c.isDigit = true := by
  obtain ⟨c, cs, shape⟩ := List.exists_cons_of_ne_nil numeral.digits_ne_nil
  exact ⟨c, cs, shape, numeral.isDigit_of_mem c (by simp [shape])⟩

theorem ne_colon_of_mem_chars {numeral : Numeral} {c : Char} (member : c ∈ numeral.chars) :
    c ≠ ':' := by
  rcases List.mem_append.mp member with sign | digit
  · rintro rfl
    cases shape : numeral.sign <;> simp [shape, Sign.chars] at sign
  · exact ne_of_isDigit (numeral.isDigit_of_mem c digit) (by decide)

@[simp] theorem digits?_digits (numeral : Numeral) :
    digits? numeral.digits = some numeral.magnitude :=
  digits?_eq_some_iff.mpr ⟨numeral.digits_ne_nil, numeral.isDigit_of_mem, rfl⟩

end Numeral

theorem exists_numeral (sign : Sign) {cs : List Char} {n : ℕ} (read : digits? cs = some n) :
    ∃ numeral : Numeral, numeral.sign = sign ∧ numeral.digits = cs ∧ numeral.magnitude = n := by
  obtain ⟨nonempty, digits, number⟩ := digits?_eq_some_iff.mp read
  exact ⟨⟨sign, cs, nonempty, digits⟩, rfl, rfl, number⟩

theorem unsigned?_eq_some_iff {cs : List Char} {n : ℕ} :
    unsigned? cs = some n ↔
      ∃ numeral : Numeral, numeral.sign ≠ .minus ∧ numeral.chars = cs ∧ numeral.magnitude = n := by
  constructor
  · intro read
    unfold unsigned? at read
    split at read
    case h_1 cs =>
      obtain ⟨numeral, sign, rfl, number⟩ := exists_numeral .plus read
      exact ⟨numeral, by simp [sign], by simp [Numeral.chars, sign, Sign.chars], number⟩
    case h_2 =>
      obtain ⟨numeral, sign, rfl, number⟩ := exists_numeral .absent read
      exact ⟨numeral, by simp [sign], by simp [Numeral.chars, sign, Sign.chars], number⟩
  · rintro ⟨numeral, unsigned, rfl, rfl⟩
    have number := numeral.digits?_digits
    cases sign : numeral.sign with
    | minus => exact absurd sign unsigned
    | plus => simp [Numeral.chars, sign, Sign.chars, unsigned?]
    | absent =>
      obtain ⟨c, cs, shape, digit⟩ := numeral.exists_cons
      have noPlus : c ≠ '+' := ne_of_isDigit digit (by decide)
      rw [Numeral.chars, sign, Sign.chars, List.nil_append, shape, unsigned?, ← shape, number]
      rintro rest signed
      exact noPlus (List.cons.inj signed).1

theorem signed?_minus (cs : List Char) :
    signed? ('-' :: cs) = (digits? cs).map fun n : ℕ => -(n : ℤ) := by
  rw [signed?]
  cases digits? cs <;> rfl

theorem signed?_of_ne_minus {cs : List Char} (other : ∀ rest, cs ≠ '-' :: rest) :
    signed? cs = (unsigned? cs).map Int.ofNat := by
  rw [signed?]
  exact other

theorem Numeral.chars_ne_minus {numeral : Numeral} (unsigned : numeral.sign ≠ .minus)
    (rest : List Char) : numeral.chars ≠ '-' :: rest := by
  intro signed
  cases sign : numeral.sign with
  | minus => exact unsigned sign
  | plus => simp [chars, sign, Sign.chars] at signed
  | absent =>
    obtain ⟨c, cs, shape, digit⟩ := numeral.exists_cons
    rw [chars, sign, Sign.chars, List.nil_append, shape] at signed
    exact ne_of_isDigit digit (by decide) (List.cons.inj signed).1

theorem Numeral.value_of_ne_minus {numeral : Numeral} (unsigned : numeral.sign ≠ .minus) :
    numeral.value = numeral.magnitude := by
  cases sign : numeral.sign with
  | minus => exact absurd sign unsigned
  | _ => rw [value, sign, Sign.apply]; simp

theorem signed?_eq_some_iff {cs : List Char} {n : ℤ} :
    signed? cs = some n ↔ ∃ numeral : Numeral, numeral.chars = cs ∧ numeral.value = n := by
  constructor
  · intro read
    by_cases minus : ∃ rest, cs = '-' :: rest
    · obtain ⟨rest, rfl⟩ := minus
      rw [signed?_minus] at read
      obtain ⟨k, found, rfl⟩ := Option.map_eq_some_iff.mp read
      obtain ⟨numeral, sign, rfl, rfl⟩ := exists_numeral .minus found
      exact ⟨numeral, by rw [Numeral.chars, sign]; rfl, by rw [Numeral.value, sign]; rfl⟩
    · rw [signed?_of_ne_minus (not_exists.mp minus)] at read
      obtain ⟨k, found, rfl⟩ := Option.map_eq_some_iff.mp read
      obtain ⟨numeral, unsigned, rfl, rfl⟩ := unsigned?_eq_some_iff.mp found
      exact ⟨numeral, rfl, Numeral.value_of_ne_minus unsigned⟩
  · rintro ⟨numeral, rfl, rfl⟩
    by_cases sign : numeral.sign = .minus
    · rw [Numeral.chars, Numeral.value, sign]
      simp [Sign.chars, Sign.apply, signed?_minus]
    · rw [signed?_of_ne_minus (Numeral.chars_ne_minus sign),
        unsigned?_eq_some_iff.mpr ⟨numeral, sign, rfl, rfl⟩, Numeral.value_of_ne_minus sign]
      rfl

/-- Writing the value of a numeral is bringing it into canonical form. -/
theorem chars_value (numeral : Numeral) : chars numeral.value = numeral.canonical := by
  have number : digits numeral.magnitude = trimmed numeral.digits :=
    digits_value numeral.isDigit_of_mem
  have zero : trimmed numeral.digits = ['0'] ↔ numeral.magnitude = 0 := by
    rw [← number]
    constructor
    · intro same
      rw [← value_digits numeral.magnitude, same]
      rfl
    · intro same
      rw [same]
      rfl
  by_cases sign : numeral.sign = .minus
  · have opposite : numeral.value = -numeral.magnitude := by rw [Numeral.value, sign]; rfl
    simp [chars, Numeral.canonical, opposite, sign, zero, number, Nat.pos_iff_ne_zero]
  · simp [chars, Numeral.canonical, Numeral.value_of_ne_minus sign, sign, number]

end Decimal

namespace Hex

theorem toNat_lt_of_isDigit {c : Char} (digit : isDigit c = true) : c.toNat < 128 := by
  unfold isDigit digit? at digit
  split at digit
  next range => exact lt_of_le_of_lt range.2 (by decide)
  split at digit
  next range => exact lt_of_le_of_lt range.2 (by decide)
  split at digit
  next range => exact lt_of_le_of_lt range.2 (by decide)
  next => cases digit

theorem digit_of_isDigit {c : Char} (digit : isDigit c = true) :
    ∃ n < 16, digit? c = some n ∧ Hex.digit n = c.toLower := by
  have all : ∀ k < 128, isDigit (Char.ofNat k) = true →
      ∃ n < 16, digit? (Char.ofNat k) = some n ∧ Hex.digit n = (Char.ofNat k).toLower := by
    decide
  have here := all c.toNat (toNat_lt_of_isDigit digit)
  rw [Char.ofNat_toNat] at here
  exact here digit

def value (cs : List Char) : ℕ := positional 16 (fun c => (digit? c).getD 0) cs

theorem value_append_singleton (cs : List Char) (c : Char) :
    value (cs ++ [c]) = 16 * value cs + (digit? c).getD 0 := positional_append_singleton cs c

theorem value_lt {cs : List Char} (digits : ∀ c ∈ cs, isDigit c = true) :
    value cs < 16 ^ cs.length := by
  apply positional_lt (by decide)
  intro c member
  obtain ⟨n, small, read, _⟩ := digit_of_isDigit (digits c member)
  rwa [read]

theorem number?_eq_some_iff {cs : List Char} {n : ℕ} :
    number? cs = some n ↔ (∀ c ∈ cs, isDigit c = true) ∧ value cs = n := by
  induction cs using List.reverseRecOn generalizing n with
  | nil => simp [number?, value]
  | append_singleton cs c ih =>
    rw [number?_append, value_append_singleton, List.forall_mem_append, List.forall_mem_singleton]
    cases read : digit? c with
    | none => simp [isDigit, read]
    | some d => simp [isDigit, read, Option.bind_eq_some_iff, ih]

theorem fixed_value {cs : List Char} (digits : ∀ c ∈ cs, isDigit c = true) :
    fixed cs.length (value cs) = cs.map Char.toLower := by
  induction cs using List.reverseRecOn with
  | nil => rfl
  | append_singleton cs c ih =>
    rw [List.forall_mem_append, List.forall_mem_singleton] at digits
    obtain ⟨n, small, read, lower⟩ := digit_of_isDigit digits.2
    have quotient : (16 * value cs + n) / 16 = value cs := by omega
    have rest : (16 * value cs + n) % 16 = n := by omega
    rw [value_append_singleton, read, Option.getD_some, List.length_append, List.length_singleton,
      fixed, quotient, rest, ih digits.1, lower, List.map_append, List.map_singleton]

end Hex

end TonTrace
