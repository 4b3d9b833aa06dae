import TonTrace.Ranged

/-! Decimal text of whole numbers.

A numeral is one or more ASCII digits; leading zeros are allowed on input and
never written. Signed numerals allow one sign, unsigned ones only a plus.
-/

set_option autoImplicit false

namespace TonTrace.Decimal

def digits? (cs : List Char) : Option Nat :=
  if cs ≠ [] ∧ cs.all Char.isDigit then some (Nat.ofDigitChars 10 cs 0) else none

def unsigned? : List Char → Option Nat
  | '+' :: cs => digits? cs
  | cs => digits? cs

def signed? : List Char → Option Int
  | '-' :: cs => (digits? cs).map fun n => -(n : Int)
  | cs => (unsigned? cs).map Int.ofNat

def digits (n : Nat) : List Char := Nat.toDigits 10 n

def chars (n : Int) : List Char :=
  if n < 0 then '-' :: digits n.natAbs else digits n.natAbs

def text (n : Int) : String := String.ofList (chars n)

def padded (width n : Nat) : List Char :=
  List.replicate (width - (digits n).length) '0' ++ digits n

/-- The digits that follow the point: `width` places without their trailing zeros. -/
def fraction (width n : Nat) : List Char :=
  ((padded width n).reverse.dropWhile (· == '0')).reverse

/-- The text of `amount` units of which `10 ^ places` make a whole one. The
point is left out when nothing follows it. -/
def fixedPoint (amount places : Nat) : String :=
  let whole := Nat.pow 10 places
  let tail := fraction places (amount % whole)
  let head := digits (amount / whole)
  String.ofList (if tail.isEmpty then head else head ++ '.' :: tail)

theorem digits_ne_nil (n : Nat) : digits n ≠ [] := Nat.toDigits_ne_nil

theorem all_isDigit_digits (n : Nat) : (digits n).all Char.isDigit = true :=
  List.all_eq_true.mpr fun _ member => Nat.isDigit_of_mem_toDigits (by decide) (by decide) member

@[simp] theorem digits?_digits (n : Nat) : digits? (digits n) = some n := by
  rw [digits?, if_pos ⟨digits_ne_nil n, all_isDigit_digits n⟩]
  exact congrArg some Nat.ofDigitChars_ten_toDigits

end TonTrace.Decimal
