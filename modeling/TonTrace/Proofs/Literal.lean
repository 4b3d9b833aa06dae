import Mathlib.Tactic.SplitIfs
import TonTrace.Json.Reader
import TonTrace.Json.Writer
import TonTrace.Proofs.Amount

/-! What the literals of JSON text are read as.

A string is read back from its text: the scanner takes what is written for one
character after the other and ends up with its code point each time. A literal
is read as a whole number exactly when it is the numeral that is written for
that number.
-/

set_option autoImplicit false

namespace TonTrace

namespace Decimal

theorem chars_natCast (n : ℕ) : chars n = digits n := by
  rw [chars, if_neg (by omega), Int.natAbs_natCast]

theorem front_digits {n : ℕ} (zero : (digits n).head? = some '0') : digits n = ['0'] := by
  rw [eq_zero_of_head?_digits zero]
  rfl

theorem digits_value_of_front {cs : List Char} (all : ∀ c ∈ cs, c.isDigit = true) (nonempty : cs ≠ [])
    (front : cs.head? = some '0' → cs = ['0']) : digits (value cs) = cs := by
  rw [digits_value all]
  cases cs with
  | nil => exact absurd rfl nonempty
  | cons c rest =>
    by_cases zero : c = '0'
    · subst zero
      rw [front rfl]
      rfl
    · rw [trimmed, List.dropWhile_cons_of_neg (by simpa using zero)]

end Decimal

namespace Json

section Strings

open Scanner

variable {soFar : List Nat} {tokens : List Token}

theorem step_text {c : Char} (plain : c ≠ '"') (unescaped : c ≠ '\\') (printed : ¬c.toNat < 32) :
    step { mode := .text soFar, tokens } c = some { mode := .text (c.toNat :: soFar), tokens } := by
  simp only [step, if_neg plain, if_neg unescaped, if_neg printed]

theorem foldlM_step_escape {mark : Char} {point : Nat} (short : mark ≠ 'u')
    (denotes : escaped? mark = some point) :
    ['\\', mark].foldlM step { mode := .text soFar, tokens } =
      some { mode := .text (point :: soFar), tokens } := by
  simp [step, short, denotes]

theorem foldlM_step_codePoint {n : Nat} (small : n < 16 ^ 4) :
    ('\\' :: 'u' :: Hex.fixed 4 n).foldlM step { mode := .text soFar, tokens } =
      some { mode := .text (n :: soFar), tokens } := by
  have number := Hex.number?_fixed 4 n
  have digits : Hex.fixed 4 n = [Hex.digit (n / 16 / 16 / 16 % 16), Hex.digit (n / 16 / 16 % 16),
    Hex.digit (n / 16 % 16), Hex.digit (n % 16)] := rfl
  have read : ∀ m, Hex.digit? (Hex.digit (m % 16)) = some (m % 16) := fun m =>
    Hex.digit?_digit (Nat.mod_lt m (by decide))
  rw [Nat.mod_eq_of_lt small, digits] at number
  rw [digits]
  simp [step, read, number]

/-- A character is written as two, as four digits, or as it is. -/
theorem escape_cases (c : Char) :
    (∃ mark, mark ≠ 'u' ∧ escaped? mark = some c.toNat ∧ escape c = ['\\', mark]) ∨
      (c.toNat < 32 ∧ escape c = '\\' :: 'u' :: Hex.fixed 4 c.toNat) ∨
      (c ≠ '"' ∧ c ≠ '\\' ∧ ¬c.toNat < 32 ∧ escape c = [c]) := by
  unfold escape
  split_ifs with quote backslash point point point point point control
  · exact .inl ⟨'"', by decide, by rw [quote]; rfl, rfl⟩
  · exact .inl ⟨'\\', by decide, by rw [backslash]; rfl, rfl⟩
  · exact .inl ⟨'b', by decide, congrArg some point.symm, rfl⟩
  · exact .inl ⟨'t', by decide, congrArg some point.symm, rfl⟩
  · exact .inl ⟨'n', by decide, congrArg some point.symm, rfl⟩
  · exact .inl ⟨'f', by decide, congrArg some point.symm, rfl⟩
  · exact .inl ⟨'r', by decide, congrArg some point.symm, rfl⟩
  · exact .inr (.inl ⟨control, rfl⟩)
  · exact .inr (.inr ⟨quote, backslash, control, rfl⟩)

theorem foldlM_step_escape_char (c : Char) :
    (escape c).foldlM step { mode := .text soFar, tokens } =
      some { mode := .text (c.toNat :: soFar), tokens } := by
  rcases escape_cases c with ⟨mark, short, denotes, written⟩ | ⟨control, written⟩ |
    ⟨plain, unescaped, printed, written⟩
  · rw [written, foldlM_step_escape short denotes]
  · rw [written, foldlM_step_codePoint (by omega)]
  · simp [written, step_text plain unescaped printed]

theorem foldlM_step_escapes (cs : List Char) :
    (cs.flatMap escape).foldlM step { mode := .text soFar, tokens } =
      some { mode := .text ((cs.map Char.toNat).reverse ++ soFar), tokens } := by
  induction cs generalizing soFar with
  | nil => rfl
  | cons c rest ih =>
    rw [List.flatMap_cons, List.foldlM_append, foldlM_step_escape_char]
    simp [ih]

/-- No character is half of a surrogate pair. -/
theorem joinSurrogates_map_toNat (cs : List Char) : joinSurrogates (cs.map Char.toNat) = some cs := by
  induction cs with
  | nil => rfl
  | cons c rest ih =>
    have valid : c.toNat < 0xd800 ∨ 0xdfff < c.toNat ∧ c.toNat < 0x110000 := c.valid
    have noHigh : ¬(0xd800 ≤ c.toNat ∧ c.toNat < 0xdc00) := by omega
    have noLow : ¬(0xdc00 ≤ c.toNat ∧ c.toNat < 0xe000) := by omega
    rw [List.map_cons, joinSurrogates.eq_def]
    simp only [if_neg noHigh, if_neg noLow, ih, Option.map_some, Char.ofNat_toNat]

theorem tokens?_quote (text : String) : tokens? (quote text) = some [.scalar (.string text)] := by
  have opened : step {} '"' = some { mode := .text [] } := rfl
  have closed : step { mode := .text (text.toList.map Char.toNat).reverse } '"' =
      some { tokens := [.scalar (.string text)] } := by
    simp [step, ofCodePoints, joinSurrogates_map_toNat]
  simp [tokens?, quote, List.foldlM_append, opened, foldlM_step_escapes, closed, finish?]

theorem parse?_quote (text : String) : parse? (quote text) = some (.string text) := by
  rw [parse?, tokens?_quote]
  rfl

end Strings

section Numbers

theorem eq_nil_of_exponent? {cs : List Char} (read : exponent? cs = some false) : cs = [] := by
  cases cs with
  | nil => rfl
  | cons mark rest => simp [exponent?] at read

theorem eq_of_dropFraction? {cs rest : List Char} (read : dropFraction? cs = some (false, rest)) :
    rest = cs := by
  unfold dropFraction? at read
  split at read
  · simp at read
  · simpa using read.symm

theorem ofNumeral?_chars {value : ℤ} (fits : IsWhole value) :
    ofNumeral? (Decimal.chars value) = some (.integer value) := by
  have all : ∀ c ∈ Decimal.digits value.natAbs, c.isDigit = true :=
    fun _ => Decimal.isDigit_of_mem_digits
  have whole := List.takeWhile_eq_self_iff.mpr all
  have rest := List.dropWhile_eq_nil_iff.mpr all
  have nonempty := Decimal.digits_ne_nil value.natAbs
  have front := Decimal.front_digits (n := value.natAbs)
  have number : Nat.ofDigitChars 10 (Decimal.digits value.natAbs) 0 = value.natAbs :=
    Nat.ofDigitChars_ten_toDigits
  -- Nothing is left behind the digits, neither a fraction nor an exponent.
  by_cases negative : value < 0
  · have nonzero : value ≠ 0 := Int.ne_of_lt negative
    rw [Decimal.chars, if_pos negative]
    simpa [ofNumeral?, whole, rest, nonempty, dropFraction?, exponent?, number, nonzero,
      abs_of_neg negative, fits] using front
  · have same : (value.natAbs : ℤ) = value := by omega
    have unsigned : (Decimal.digits value.natAbs).head? ≠ some '-' := by
      obtain ⟨c, cs, shape, digit⟩ := Decimal.exists_digits value.natAbs
      rw [shape, List.head?_cons, ne_eq, Option.some.injEq]
      exact Decimal.ne_of_isDigit digit (by decide)
    rw [Decimal.chars, if_neg negative]
    simp only [ofNumeral?, unsigned]
    simpa [whole, rest, nonempty, dropFraction?, exponent?, number, same, fits] using front

/-- The literal of a whole number has no point, no exponent, no needless zero and no minus before
zero; any other literal of a number stays as it is. -/
theorem ofNumeral?_cases {literal : List Char} {json : Json} (read : ofNumeral? literal = some json) :
    json = .decimal (String.ofList literal) ∨
      ∃ value, json = .integer value ∧ literal = Decimal.chars value ∧ IsWhole value := by
  simp only [ofNumeral?, Option.bind_eq_bind, Option.pure_def] at read
  generalize shape : (if literal.head? = some '-' then literal.tail else literal) = body at read
  rcases ite_eq_iff.mp read with ⟨_, refused⟩ | ⟨canonical, read⟩
  · cases refused
  obtain ⟨⟨fractional, rest⟩, fraction, read⟩ := Option.bind_eq_some_iff.mp read
  obtain ⟨scaled, exponent, read⟩ := Option.bind_eq_some_iff.mp read
  rcases ite_eq_iff.mp read with ⟨_, decimal⟩ | ⟨whole, integer⟩
  · exact .inl (Option.some.inj decimal).symm
  simp only [not_or, Bool.not_eq_true, not_not] at whole
  obtain ⟨rfl, rfl, nonzero, fits⟩ := whole
  refine .inr ⟨_, (Option.some.inj integer).symm, ?_, fits⟩
  -- Without a point and an exponent nothing follows the digits.
  have nothing : body.dropWhile Char.isDigit = [] := by
    rw [← eq_of_dropFraction? fraction]
    exact eq_nil_of_exponent? exponent
  have all := List.dropWhile_eq_nil_iff.mp nothing
  rw [List.takeWhile_eq_self_iff.mpr all, Decimal.ofDigitChars_eq_value] at nonzero ⊢
  rw [List.takeWhile_eq_self_iff.mpr all] at canonical
  simp only [List.isEmpty_iff, not_or, not_and, not_not] at canonical
  have written := Decimal.digits_value_of_front all canonical.1 canonical.2
  by_cases minus : literal.head? = some '-'
  · obtain ⟨cs, rfl⟩ := List.head?_eq_some_iff.mp minus
    simp only [minus, if_true, true_and, List.tail_cons] at shape nonzero ⊢
    subst shape
    rw [Decimal.chars, if_pos (by omega), Int.natAbs_neg, Int.natAbs_natCast, written]
  · simp only [minus, if_false] at shape ⊢
    rw [Decimal.chars_natCast, written, shape]

theorem ofNumeral?_eq_integer_iff {literal : List Char} {value : ℤ} :
    ofNumeral? literal = some (.integer value) ↔ literal = Decimal.chars value ∧ IsWhole value := by
  constructor
  · intro read
    rcases ofNumeral?_cases read with decimal | ⟨_, integer, written, fits⟩
    · cases decimal
    · cases integer
      exact ⟨written, fits⟩
  · rintro ⟨rfl, fits⟩
    exact ofNumeral?_chars fits

theorem ofNumeral?_ne_string {literal : List Char} {text : String} :
    ofNumeral? literal ≠ some (.string text) := by
  intro read
  rcases ofNumeral?_cases read with decimal | ⟨_, integer, _⟩
  · cases decimal
  · cases integer

end Numbers

end Json

end TonTrace
