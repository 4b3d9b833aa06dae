import Mathlib.Data.List.DropRight
import Mathlib.Tactic.FieldSimp
import TonTrace.Proofs.Numeral

/-! The text of amounts is exact and canonical.

An amount is written as a whole number and, behind a point, the digits of what
is left over. No digit of the amount is lost and none is written that could be
left out, so that different amounts never look the same.
-/

set_option autoImplicit false

namespace TonTrace

namespace Decimal

theorem eq_zero_of_head?_digits {n : ℕ} (zero : (digits n).head? = some '0') : n = 0 := by
  have shape : digits n = trimmed (digits n) := by
    rw [← digits_value fun _ => isDigit_of_mem_digits, value_digits]
  obtain ⟨rest, head⟩ := List.head?_eq_some_iff.mp zero
  cases others : (digits n).dropWhile (· == '0') with
  | nil =>
    rw [trimmed, others] at shape
    rw [← value_digits n, shape]
    rfl
  | cons c cs =>
    have first : (c == '0') = false := by
      have notZero := List.head?_dropWhile_not (· == '0') (digits n)
      rwa [others] at notZero
    rw [trimmed, others, head] at shape
    rw [← (List.cons.inj shape).1] at first
    cases first

/-- A number with a point: a whole number, and the digits behind the point up to the last one that
is not zero. -/
structure PointedNumeral where
  whole : ℕ
  fraction : List Char
  isDigit_of_mem : ∀ c ∈ fraction, c.isDigit = true
  last_ne_zero : fraction.getLast? ≠ some '0'

namespace PointedNumeral

def rest (p : PointedNumeral) : List Char := if p.fraction = [] then [] else '.' :: p.fraction

def text (p : PointedNumeral) : String := p.whole.repr ++ String.ofList p.rest

def value (p : PointedNumeral) : ℚ := p.whole + Decimal.value p.fraction / 10 ^ p.fraction.length

theorem toList_text (p : PointedNumeral) : p.text.toList = digits p.whole ++ p.rest := by
  simp [text, digits]

/-- No digit is a point, so the whole number ends at the first one. -/
theorem takeWhile_text (p : PointedNumeral) :
    p.text.toList.takeWhile (· != '.') = digits p.whole := by
  have noPoint : ∀ c ∈ digits p.whole, (c != '.') = true := fun c member =>
    bne_iff_ne.mpr (ne_of_isDigit (isDigit_of_mem_digits member) (by decide))
  have nothing : p.rest.takeWhile (· != '.') = [] := by
    unfold rest
    split <;> simp
  rw [toList_text, List.takeWhile_append_of_pos noPoint, nothing, List.append_nil]

theorem head?_text (p : PointedNumeral) : p.text.toList.head? = (digits p.whole).head? := by
  obtain ⟨c, cs, shape, _⟩ := exists_digits p.whole
  rw [toList_text, shape, List.cons_append, List.head?_cons, List.head?_cons]

theorem text_injective : Function.Injective text := by
  intro p q same
  have heads : digits p.whole = digits q.whole := by rw [← takeWhile_text, same, takeWhile_text]
  have wholes : p.whole = q.whole := by rw [← value_digits p.whole, heads, value_digits]
  have tails : p.rest = q.rest := by
    have lists := congrArg String.toList same
    rw [toList_text, toList_text, heads] at lists
    exact List.append_cancel_left lists
  have fractions : p.fraction = q.fraction := by
    unfold rest at tails
    split at tails <;> split at tails
    next first second => rw [first, second]
    next => cases tails
    next => cases tails
    next => exact (List.cons.inj tails).2
  cases p
  cases q
  cases wholes
  cases fractions
  rfl

/-- The number is `amount` units of which `10 ^ places` make a whole one. -/
structure Shows (p : PointedNumeral) (amount places : ℕ) : Prop where
  whole_eq : p.whole = amount / 10 ^ places
  head_ne_zero : p.whole ≠ 0 → p.text.toList.head? ≠ some '0'
  length_le : p.fraction.length ≤ places
  value_eq : p.value * 10 ^ places = amount

theorem Shows.unique {p : PointedNumeral} {first second places : ℕ} (left : p.Shows first places)
    (right : p.Shows second places) : first = second := by
  have same : (first : ℚ) = second := left.value_eq.symm.trans right.value_eq
  exact Nat.cast_injective same

end PointedNumeral

theorem isDigit_of_mem_padded {width n : ℕ} : ∀ c ∈ padded width n, c.isDigit = true := by
  intro c member
  rcases List.mem_append.mp member with zero | digit
  · rw [(List.mem_replicate.mp zero).2]
    rfl
  · exact isDigit_of_mem_digits digit

theorem value_padded (width n : ℕ) : value (padded width n) = n := by
  rw [padded, value_append, value_replicate_zero, value_digits, Nat.zero_mul, Nat.zero_add]

theorem length_padded {width n : ℕ} (positive : 0 < width) (small : n < 10 ^ width) :
    (padded width n).length = width := by
  have bound : (digits n).length ≤ width :=
    (Nat.length_toDigits_le_iff (by decide) positive).mpr small
  rw [padded, List.length_append, List.length_replicate]
  omega

theorem fraction_eq_rdropWhile (width n : ℕ) :
    fraction width n = (padded width n).rdropWhile (· == '0') := rfl

theorem isDigit_of_mem_fraction {width n : ℕ} : ∀ c ∈ fraction width n, c.isDigit = true := by
  intro c member
  rw [fraction_eq_rdropWhile] at member
  exact isDigit_of_mem_padded c ((List.rdropWhile_prefix _ _).subset member)

theorem getLast?_fraction (width n : ℕ) : (fraction width n).getLast? ≠ some '0' := by
  intro last
  have nonempty : fraction width n ≠ [] := by
    rintro none
    rw [none] at last
    cases last
  have notZero := List.rdropWhile_last_not (· == '0') (padded width n) nonempty
  exact notZero (beq_iff_eq.mpr (List.getLast_of_getLast?_eq_some last))

theorem exists_zeros (width n : ℕ) :
    ∃ k, fraction width n ++ List.replicate k '0' = padded width n := by
  refine ⟨((padded width n).rtakeWhile (· == '0')).length, ?_⟩
  have zeros : (padded width n).rtakeWhile (· == '0') =
      List.replicate ((padded width n).rtakeWhile (· == '0')).length '0' :=
    List.eq_replicate_length.mpr fun c member => by simpa using List.mem_rtakeWhile_imp member
  rw [fraction_eq_rdropWhile, ← zeros, List.rdropWhile_append_rtakeWhile]

theorem value_fraction {width n : ℕ} (small : n < 10 ^ width) :
    ∃ k, (fraction width n).length + k = width ∧ value (fraction width n) * 10 ^ k = n := by
  rcases Nat.eq_zero_or_pos width with rfl | positive
  · obtain rfl : n = 0 := by omega
    exact ⟨0, rfl, rfl⟩
  obtain ⟨k, zeros⟩ := exists_zeros width n
  refine ⟨k, ?_, ?_⟩
  · have length := length_padded positive small
    rwa [← zeros, List.length_append, List.length_replicate] at length
  · have number := value_padded width n
    rwa [← zeros, value_append, value_replicate_zero, List.length_replicate, Nat.add_zero] at number

def pointed (amount places : ℕ) : PointedNumeral where
  whole := amount / 10 ^ places
  fraction := fraction places (amount % 10 ^ places)
  isDigit_of_mem := isDigit_of_mem_fraction
  last_ne_zero := getLast?_fraction _ _

theorem fixedPoint_eq_text (amount places : ℕ) :
    fixedPoint amount places = (pointed amount places).text := by
  apply String.toList_injective
  rw [PointedNumeral.toList_text]
  unfold fixedPoint pointed PointedNumeral.rest
  by_cases nothing : fraction places (amount % 10 ^ places) = [] <;> simp [nothing, Nat.pow_eq]

theorem shows_pointed (amount places : ℕ) : (pointed amount places).Shows amount places := by
  have small : amount % 10 ^ places < 10 ^ places := Nat.mod_lt _ (by positivity)
  obtain ⟨k, length, number⟩ := value_fraction small
  refine ⟨rfl, ?_, ?_, ?_⟩
  · intro positive zero
    rw [PointedNumeral.head?_text] at zero
    exact positive (eq_zero_of_head?_digits zero)
  · exact Nat.le.intro length
  · -- The digits behind the point and the zeros taken off them are what the division leaves.
    have split : amount = amount / 10 ^ places * 10 ^ places +
        value (fraction places (amount % 10 ^ places)) * 10 ^ k := by
      rw [number, Nat.div_add_mod']
    have scale : (10 : ℚ) ^ places =
        10 ^ (fraction places (amount % 10 ^ places)).length * 10 ^ k := by
      rw [← pow_add, length]
    calc (pointed amount places).value * 10 ^ places
        = (amount / 10 ^ places : ℕ) * 10 ^ places +
            value (fraction places (amount % 10 ^ places)) * 10 ^ k := by
          rw [PointedNumeral.value, add_mul, pointed, scale]
          field_simp
      _ = amount := by exact_mod_cast split.symm

end Decimal

namespace Amount

open Decimal

theorem minus_append_ne_text (p q : PointedNumeral) : "-" ++ p.text ≠ q.text := by
  intro same
  obtain ⟨c, cs, shape, digit⟩ := exists_digits q.whole
  have lists := congrArg String.toList same
  rw [String.toList_append, PointedNumeral.toList_text q, shape] at lists
  exact ne_of_isDigit digit (by decide) (List.cons.inj lists).1.symm

theorem tokenText?_eq_some {places : ℕ} (small : places ≤ 38) (amount : JettonAmount) :
    tokenText? amount places = some (pointed amount.val.toNat places).text := by
  rw [tokenText?, if_pos small, fixedPoint_eq_text]

theorem tonText_eq (value : Nanotons) :
    tonText value = (if value.val < 0 then "-" else "") ++ (pointed value.val.natAbs 9).text := by
  rw [tonText, fixedPoint_eq_text]

theorem eq_of_text_pointed_eq {first second places : ℕ}
    (same : (pointed first places).text = (pointed second places).text) : first = second := by
  have shown := shows_pointed second places
  rw [← PointedNumeral.text_injective same] at shown
  exact (shows_pointed first places).unique shown

theorem tokenText?_injective {places : ℕ} (small : places ≤ 38) :
    Function.Injective (tokenText? · places) := by
  intro first second same
  simp only [tokenText?_eq_some small, Option.some.injEq] at same
  have magnitudes := eq_of_text_pointed_eq same
  have low := first.lo_le
  have high := second.lo_le
  apply Ranged.ext
  omega

theorem tonText_injective : Function.Injective tonText := by
  intro first second same
  rw [tonText_eq, tonText_eq] at same
  apply Ranged.ext
  split at same <;> split at same
  next negative minus =>
    have magnitudes := eq_of_text_pointed_eq ((String.append_right_inj _).mp same)
    omega
  next =>
    rw [String.empty_append] at same
    exact absurd same (minus_append_ne_text _ _)
  next =>
    rw [String.empty_append] at same
    exact absurd same.symm (minus_append_ne_text _ _)
  next positive plus =>
    have magnitudes := eq_of_text_pointed_eq ((String.append_right_inj _).mp same)
    omega

/-- An amount is written as its whole number, without needless zeros, and behind a point the digits
of the rest, at most as many as there are places and the last of them not zero; the point is left
out when no digit follows it. The number that is written is the amount itself, so that no two
amounts have the same text. A TON amount has nine places, and a minus in front exactly when it is
negative. -/
theorem text_exact :
    (∀ places ≤ 38,
      (∀ amount : JettonAmount, ∃ p : PointedNumeral,
        tokenText? amount places = some p.text ∧ p.Shows amount.val.toNat places) ∧
      Function.Injective (tokenText? · places)) ∧
    (∀ value : Nanotons, ∃ p : PointedNumeral,
      tonText value = (if value.val < 0 then "-" else "") ++ p.text ∧ p.Shows value.val.natAbs 9) ∧
    Function.Injective tonText := by
  refine ⟨fun places small => ⟨fun amount => ?_, tokenText?_injective small⟩, fun value => ?_,
    tonText_injective⟩
  · exact ⟨_, tokenText?_eq_some small amount, shows_pointed _ _⟩
  · exact ⟨_, tonText_eq value, shows_pointed _ _⟩

/-- The greatest amount with the most places, and the least number of nanotons. -/
theorem text_exact_extreme :
    (∃ p : PointedNumeral, tokenText? (.clamp (2 ^ 128 - 1)) 38 = some p.text ∧
      p.Shows (2 ^ 128 - 1) 38 ∧ p.text = "3.40282366920938463463374607431768211455") ∧
    ∃ p : PointedNumeral, tonText (.clamp (-2 ^ 63)) = "-" ++ p.text ∧
      p.Shows (2 ^ 63) 9 ∧ p.text = "9223372036.854775808" := by
  have greatest : tokenText? (.clamp (2 ^ 128 - 1)) 38 =
      some "3.40282366920938463463374607431768211455" := by decide +kernel
  have least : tonText (.clamp (-2 ^ 63)) = "-9223372036.854775808" := by decide +kernel
  obtain ⟨p, token, shown⟩ := (text_exact.1 38 (by decide)).1 (.clamp (2 ^ 128 - 1))
  obtain ⟨q, ton, shows⟩ := text_exact.2.1 (.clamp (-2 ^ 63))
  refine ⟨⟨p, token, shown, ?_⟩, q, ton, shows, ?_⟩
  · exact Option.some.inj (token.symm.trans greatest)
  · exact (String.append_right_inj "-").mp (ton.symm.trans least)

end Amount

end TonTrace
