import Mathlib.Algebra.Ring.Nat
import TonTrace.Json.Scalar

/-! What is written as text is read back: hexadecimal and decimal numerals,
bytes, hashes and addresses. -/

set_option autoImplicit false

namespace TonTrace

namespace Hex

@[simp] theorem digit?_digit {n : Nat} (small : n < 16) : digit? (digit n) = some n := by
  revert n
  decide

theorem isDigit_digit {n : Nat} (small : n < 16) : isDigit (digit n) = true := by
  simp [isDigit, small]

theorem isBlank_eq_false {c : Char} (digit : isDigit c = true) : isBlank c = false := by
  by_contra blank
  simp only [isBlank, Bool.or_eq_true, decide_eq_true_eq, Bool.not_eq_false, or_assoc] at blank
  rcases blank with rfl | rfl | rfl | rfl <;> revert digit <;> decide

@[simp] theorem length_fixed (width n : Nat) : (fixed width n).length = width := by
  induction width generalizing n with
  | zero => rfl
  | succ width ih => simp [fixed, ih]

theorem isDigit_of_mem_fixed {c : Char} (width n : Nat) (member : c ∈ fixed width n) :
    isDigit c = true := by
  induction width generalizing n with
  | zero => simp [fixed] at member
  | succ width ih =>
    simp only [fixed, List.mem_append, List.mem_singleton] at member
    cases member with
    | inl earlier => exact ih (n / 16) earlier
    | inr last => exact last ▸ isDigit_digit (Nat.mod_lt n (by decide))

theorem number?_append (front back : List Char) :
    number? (front ++ back) =
      (number? front).bind fun start =>
        back.foldlM (fun sofar c => (digit? c).map (16 * sofar + ·)) start := by
  simp [number?, List.foldlM_append]

theorem number?_fixed (width n : Nat) : number? (fixed width n) = some (n % 16 ^ width) := by
  induction width generalizing n with
  | zero => simp [fixed, number?, Nat.mod_one]
  | succ width ih =>
    have last : digit? (digit (n % 16)) = some (n % 16) := digit?_digit (Nat.mod_lt n (by decide))
    have split : n % (16 * 16 ^ width) = n % 16 + 16 * (n / 16 % 16 ^ width) := Nat.mod_mul
    simp [fixed, number?_append, ih, last, Nat.pow_succ', split, Nat.add_comm]

theorem isSome_bytes? {cs : List Char} (even : cs.length % 2 = 0)
    (digits : ∀ c ∈ cs, isDigit c = true) : (bytes? cs).isSome = true := by
  induction cs using bytes?.induct with
  | case1 => rfl
  | case2 => simp at even
  | case3 high low rest ih =>
    simp only [List.forall_mem_cons] at digits
    obtain ⟨highDigit, lowDigit, restDigits⟩ := digits
    obtain ⟨h, readHigh⟩ := Option.isSome_iff_exists.mp highDigit
    obtain ⟨l, readLow⟩ := Option.isSome_iff_exists.mp lowDigit
    have restEven : rest.length % 2 = 0 := by
      simp only [List.length_cons] at even
      omega
    obtain ⟨tail, readTail⟩ := Option.isSome_iff_exists.mp (ih restEven restDigits)
    simp [bytes?, readHigh, readLow, readTail]

theorem ofBytes_cons (byte : UInt8) (rest : List UInt8) :
    ofBytes (byte :: rest) =
      digit (byte.toNat / 16 % 16) :: digit (byte.toNat % 16) :: ofBytes rest := rfl

@[simp] theorem bytes?_ofBytes (bytes : List UInt8) : bytes? (ofBytes bytes) = some bytes := by
  induction bytes with
  | nil => rfl
  | cons byte rest ih =>
    have high : digit? (digit (byte.toNat / 16 % 16)) = some (byte.toNat / 16 % 16) :=
      digit?_digit (Nat.mod_lt _ (by decide))
    have low : digit? (digit (byte.toNat % 16)) = some (byte.toNat % 16) :=
      digit?_digit (Nat.mod_lt _ (by decide))
    have whole : 16 * (byte.toNat / 16 % 16) + byte.toNat % 16 = byte.toNat := by
      have small : byte.toNat < 256 := byte.toNat_lt
      omega
    rw [ofBytes_cons, bytes?, high, low, ih]
    simp only [Option.bind_eq_bind, Option.bind_some, whole, UInt8.ofNat_toNat, Option.pure_def]

/-- Bytes start with two digits, so no marker is taken off them. -/
@[simp] theorem dropMarkers_ofBytes (bytes : List UInt8) :
    dropMarkers (ofBytes bytes) = ofBytes bytes := by
  cases bytes with
  | nil => rfl
  | cons byte rest =>
    have noMarker : digit (byte.toNat % 16) ≠ 'x' := by
      intro marker
      have isDigit := isDigit_digit (Nat.mod_lt byte.toNat (by decide : 16 > 0))
      rw [marker] at isDigit
      exact absurd isDigit (by decide)
    rw [ofBytes_cons, dropMarkers]
    rintro others marked
    exact noMarker (List.cons.inj (List.cons.inj marked).2).1

end Hex

namespace Hash

@[simp] theorem length_digits (hash : Hash) : hash.digits.length = 64 := Hex.length_fixed ..

theorem isDigit_of_mem_digits {hash : Hash} {c : Char} (member : c ∈ hash.digits) :
    Hex.isDigit c = true := Hex.isDigit_of_mem_fixed _ _ member

@[simp] theorem ofDigits?_digits (hash : Hash) : ofDigits? hash.digits = some hash := by
  have small : hash.bits.toNat % 16 ^ 64 = hash.bits.toNat := Nat.mod_eq_of_lt hash.bits.isLt
  rw [ofDigits?, if_pos hash.length_digits, digits, Hex.number?_fixed, small]
  simp

/-- The digits of a hash come in pairs and have no blanks among them, so they are read as they stand. -/
@[simp] theorem ofText?_text (hash : Hash) : ofText? hash.text = some hash := by
  have unmarked : Hex.dropMarker hash.text.toList = hash.digits := by simp [text, Hex.dropMarker]
  have unblanked : (hash.digits.filter fun c => !Hex.isBlank c) = hash.digits := by
    rw [List.filter_eq_self]
    intro c member
    simp [Hex.isBlank_eq_false (isDigit_of_mem_digits member)]
  have digits : hash.digits.all Hex.isDigit = true :=
    List.all_eq_true.mpr fun _ => isDigit_of_mem_digits
  have whole : hash.digits.take 64 = hash.digits := List.take_of_length_le (by simp)
  simp [ofText?, unmarked, unblanked, digits, whole]

end Hash

namespace Decimal

theorem ne_of_isDigit {c mark : Char} (digit : c.isDigit = true) (noDigit : mark.isDigit = false) :
    c ≠ mark := by
  rintro rfl
  simp [digit] at noDigit

theorem isDigit_of_mem_digits {c : Char} {n : Nat} (member : c ∈ digits n) : c.isDigit = true :=
  List.all_eq_true.mp (all_isDigit_digits n) c member

theorem exists_digits (n : Nat) : ∃ c cs, digits n = c :: cs ∧ c.isDigit = true := by
  obtain ⟨c, cs, shape⟩ := List.exists_cons_of_ne_nil (digits_ne_nil n)
  exact ⟨c, cs, shape, isDigit_of_mem_digits (n := n) (by simp [shape])⟩

@[simp] theorem unsigned?_digits (n : Nat) : unsigned? (digits n) = some n := by
  obtain ⟨c, cs, shape, digit⟩ := exists_digits n
  have unsigned : c ≠ '+' := ne_of_isDigit digit (by decide)
  have number := digits?_digits n
  rw [shape] at number ⊢
  rw [unsigned?, number]
  rintro rest signed
  exact unsigned (List.cons.inj signed).1

@[simp] theorem signed?_chars (n : Int) : signed? (chars n) = some n := by
  by_cases negative : n < 0
  · have opposite : -(n.natAbs : Int) = n := by omega
    rw [chars, if_pos negative, signed?, digits?_digits]
    exact congrArg some opposite
  · have same : (n.natAbs : Int) = n := by omega
    obtain ⟨c, cs, shape, digit⟩ := exists_digits n.natAbs
    have unsigned : c ≠ '-' := ne_of_isDigit digit (by decide)
    have number := unsigned?_digits n.natAbs
    rw [chars, if_neg negative]
    rw [shape] at number ⊢
    rw [signed?, number, Option.map_some, Int.ofNat_eq_natCast, same]
    rintro rest signed
    exact unsigned (List.cons.inj signed).1

theorem ne_colon_of_mem_chars {n : Int} {c : Char} (member : c ∈ chars n) : c ≠ ':' := by
  have ofDigit {k : Nat} (inside : c ∈ digits k) : c ≠ ':' :=
    ne_of_isDigit (isDigit_of_mem_digits inside) (by decide)
  unfold chars at member
  split at member
  · cases List.mem_cons.mp member with
    | inl sign => exact sign ▸ by decide
    | inr inside => exact ofDigit inside
  · exact ofDigit member

end Decimal

namespace Address

@[simp] theorem readHash_digits (hash : Hash) : readHash hash.digits = .ok hash := by
  obtain ⟨bytes, read⟩ := Option.isSome_iff_exists.mp
    (Hex.isSome_bytes? (by simp) fun c (member : c ∈ hash.digits) => Hash.isDigit_of_mem_digits member)
  simp [readHash, read]

theorem ofChars_append {front back : List Char} (noColon : ':' ∉ front) :
    ofChars (front ++ ':' :: back) =
      match (Decimal.signed? front).bind Ranged.ofInt? with
      | none => .error .badWorkchain
      | some workchain => (readHash back).map fun hash => ⟨workchain, hash⟩ := by
  have others : ∀ c ∈ front, (c != ':') = true := fun c member =>
    bne_iff_ne.mpr fun colon => noColon (colon ▸ member)
  have before : (front ++ ':' :: back).takeWhile (· != ':') = front := by
    simp [List.takeWhile_append_of_pos others]
  have after : (front ++ ':' :: back).dropWhile (· != ':') = ':' :: back := by
    simp [List.dropWhile_append_of_pos others]
  cases number : (Decimal.signed? front).bind Ranged.ofInt? <;>
    simp [ofChars, before, after, number]

@[simp] theorem ofChars_chars (a : Address) : ofChars a.chars = .ok a := by
  have noColon : ':' ∉ Decimal.chars a.workchain.val := fun member =>
    Decimal.ne_colon_of_mem_chars member rfl
  rw [chars, ofChars_append noColon]
  simp [Except.map]

@[simp] theorem parse_text (a : Address) : parse a.text = .ok a := by
  simp [parse, text]

end Address

end TonTrace
