import TonTrace.Proofs.Literal

/-! The JSON values that stand for an amount.

An amount is written as a text, and read from a text or from a whole number.
No whole number in JSON has more than 64 bits, so that a larger amount has a
text only. A numeral may be of any length as long as its number is one of 128
bits.
-/

set_option autoImplicit false

namespace TonTrace.JettonAmount

/-- The value stands for the number: it is the number itself, of 64 bits at most, or the text of an
unsigned numeral of it, of 128 bits at most. -/
inductive Denotes : Json → ℕ → Prop where
  | whole {n : ℕ} : n < 2 ^ 64 → Denotes (.integer n) n
  | numeral {numeral : Decimal.Numeral} : numeral.sign ≠ .minus → numeral.magnitude < 2 ^ 128 →
      Denotes (.string (String.ofList numeral.chars)) numeral.magnitude

theorem ofText?_eq_some_iff {text : String} {amount : JettonAmount} :
    ofText? text = some amount ↔ ∃ numeral : Decimal.Numeral,
      numeral.sign ≠ .minus ∧ numeral.chars = text.toList ∧ (numeral.magnitude : ℤ) = amount.val := by
  simp only [ofText?, Option.bind_eq_bind, Option.bind_eq_some_iff, Decimal.unsigned?_eq_some_iff,
    Ranged.ofInt?_eq_some_iff]
  constructor
  · rintro ⟨n, ⟨numeral, unsigned, chars, rfl⟩, number⟩
    exact ⟨numeral, unsigned, chars, number.symm⟩
  · rintro ⟨numeral, unsigned, chars, number⟩
    exact ⟨numeral.magnitude, ⟨numeral, unsigned, chars, rfl⟩, number.symm⟩

theorem denotes_of_ofJson? {json : Json} {amount : JettonAmount} {n : ℕ}
    (read : ofJson? json = some amount) (number : amount.val = n) : Denotes json n := by
  have high := amount.le_hi
  unfold ofJson? at read
  split at read
  next text =>
    obtain ⟨numeral, unsigned, chars, magnitude⟩ := ofText?_eq_some_iff.mp read
    obtain rfl : numeral.magnitude = n := by omega
    obtain rfl : String.ofList numeral.chars = text := by rw [chars, String.ofList_toList]
    exact .numeral unsigned (by omega)
  next value =>
    obtain ⟨small, read⟩ := Option.ite_none_right_eq_some.mp read
    obtain rfl : value = n := (Ranged.ofInt?_eq_some_iff.mp read).symm.trans number
    exact .whole (by omega)
  next => cases read

theorem ofJson?_of_denotes {json : Json} {amount : JettonAmount} {n : ℕ} (denotes : Denotes json n)
    (number : amount.val = n) : ofJson? json = some amount := by
  cases denotes with
  | whole small => rw [ofJson?, if_pos (by omega), ← number, Ranged.ofInt?_val]
  | numeral unsigned small =>
    exact ofText?_eq_some_iff.mpr ⟨_, unsigned, String.toList_ofList.symm, number.symm⟩

theorem Denotes.lt {json : Json} {n : ℕ} (denotes : Denotes json n) : n < 2 ^ 128 := by
  cases denotes with
  | whole small => omega
  | numeral unsigned small => exact small

theorem exists_ofJson?_iff {json : Json} {n : ℕ} :
    (∃ amount, ofJson? json = some amount ∧ amount.val = n) ↔ Denotes json n := by
  constructor
  · rintro ⟨amount, read, number⟩
    exact denotes_of_ofJson? read number
  · intro denotes
    have small := denotes.lt
    exact ⟨⟨n, by omega, by omega⟩, ofJson?_of_denotes denotes rfl, rfl⟩

theorem ofJson?_eq_none_iff {json : Json} : ofJson? json = none ↔ ∀ n, ¬Denotes json n := by
  constructor
  · intro refused n denotes
    obtain ⟨amount, read, _⟩ := exists_ofJson?_iff.mpr denotes
    rw [refused] at read
    cases read
  · intro nothing
    cases read : ofJson? json with
    | none => rfl
    | some amount =>
      obtain ⟨n, number⟩ := Int.eq_ofNat_of_zero_le amount.lo_le
      exact absurd (denotes_of_ofJson? read number) (nothing n)

theorem ofJson?_toJson (amount : JettonAmount) : ofJson? amount.toJson = some amount := by
  obtain ⟨n, number⟩ := Int.eq_ofNat_of_zero_le amount.lo_le
  rw [toJson, ofJson?, ofText?, Decimal.text, String.toList_ofList, number, Decimal.chars_natCast,
    Decimal.unsigned?_digits]
  exact Ranged.ofInt?_eq_some_iff.mpr number

theorem exists_ofNumeral?_iff {literal : List Char} {n : ℕ} :
    (∃ json, Json.ofNumeral? literal = some json ∧ Denotes json n) ↔
      literal = Decimal.digits n ∧ n < 2 ^ 64 := by
  rw [← Decimal.chars_natCast]
  constructor
  · rintro ⟨json, read, denotes⟩
    cases denotes with
    | whole small => exact ⟨(Json.ofNumeral?_eq_integer_iff.mp read).1, small⟩
    | numeral => exact absurd read Json.ofNumeral?_ne_string
  · rintro ⟨rfl, small⟩
    have fits : Json.IsWhole n := ⟨by omega, by omega⟩
    exact ⟨.integer n, Json.ofNumeral?_chars fits, .whole small⟩

/-- An amount is read back from the value that it is written as, and that value from its text. A
value is read as the number that it denotes, and refused when it denotes none. Of the literals of
numbers only those are read that have the digits of a number of 64 bits and nothing else. -/
theorem json_exact :
    (∀ amount : JettonAmount, ofJson? amount.toJson = some amount ∧
      Json.parse? amount.toJson.text = some amount.toJson) ∧
    (∀ (json : Json) (n : ℕ),
      (∃ amount, ofJson? json = some amount ∧ amount.val = n) ↔ Denotes json n) ∧
    (∀ json : Json, ofJson? json = none ↔ ∀ n, ¬Denotes json n) ∧
    ∀ (literal : List Char) (n : ℕ),
      (∃ json, Json.ofNumeral? literal = some json ∧ Denotes json n) ↔
        literal = Decimal.digits n ∧ n < 2 ^ 64 := by
  refine ⟨fun amount => ⟨ofJson?_toJson amount, ?_⟩, fun _ _ => exists_ofJson?_iff,
    fun _ => ofJson?_eq_none_iff, fun _ _ => exists_ofNumeral?_iff⟩
  exact Json.parse?_quote _

example : (ofJson? (.string "+007")).map (·.val) = some 7 := by decide

end TonTrace.JettonAmount
