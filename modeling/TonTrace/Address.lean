import TonTrace.Amount

/-! Transaction hashes and account addresses.

An address is written `workchain:hash`. Addresses are ordered by workchain as a
signed number and then by the bytes of the hash.
-/

set_option autoImplicit false

namespace TonTrace

/-- The 256-bit name of a transaction or of an account's state. -/
structure Hash where
  bits : BitVec 256
  deriving DecidableEq, Inhabited

namespace Hash

def digits (hash : Hash) : List Char := Hex.fixed 64 hash.bits.toNat

def bareText (hash : Hash) : String := String.ofList hash.digits

def text (hash : Hash) : String := String.ofList ('0' :: 'x' :: hash.digits)

def ofDigits? (cs : List Char) : Option Hash :=
  if cs.length = 64 then (Hex.number? cs).map fun n => ⟨BitVec.ofNat 256 n⟩ else none

/-- Read 64 characters behind an optional marker. Blanks among the digits are
skipped. Each byte takes a pair of digits, and the bytes left without one are zero. -/
def ofText? (text : String) : Option Hash :=
  let cs := Hex.dropMarker text.toList
  let digits := cs.filter fun c => !Hex.isBlank c
  let pairs := digits.take (2 * (digits.length / 2))
  if cs.length = 64 ∧ digits.all Hex.isDigit then
    ofDigits? (pairs ++ List.replicate (64 - pairs.length) '0')
  else none

end Hash

/-- An account: a workchain and the hash of the account's initial state. -/
structure Address where
  workchain : Workchain
  hash : Hash
  deriving DecidableEq

/-- Why a text is not an address. The first fault in this order is the one reported. -/
inductive AddressFault where
  | noWorkchain
  | badWorkchain
  | badHash
  | badLength
  deriving DecidableEq

namespace Address

/-- The all-zero account, which stands for an unknown one. -/
def zero : Address := ⟨0, default⟩

instance : Inhabited Address := ⟨zero⟩

def isZero (a : Address) : Bool := a = zero

def chars (a : Address) : List Char := Decimal.chars a.workchain.val ++ ':' :: a.hash.digits

def text (a : Address) : String := String.ofList a.chars

def readHash (cs : List Char) : Except AddressFault Hash :=
  match Hex.bytes? cs with
  | none => .error .badHash
  | some _ =>
    match Hash.ofDigits? cs with
    | none => .error .badLength
    | some hash => .ok hash

/-- Read `workchain:hash`, where the workchain ends at the first colon. -/
def ofChars (cs : List Char) : Except AddressFault Address :=
  match cs.dropWhile (· != ':') with
  | [] => .error .noWorkchain
  | _ :: hashDigits =>
    match (Decimal.signed? (cs.takeWhile (· != ':'))).bind Ranged.ofInt? with
    | none => .error .badWorkchain
    | some workchain => (readHash hashDigits).map fun hash => ⟨workchain, hash⟩

def parse (text : String) : Except AddressFault Address := ofChars text.toList

instance : LT Address where
  lt a b := a.workchain.val < b.workchain.val ∨
    a.workchain.val = b.workchain.val ∧ a.hash.bits.toNat < b.hash.bits.toNat

instance (a b : Address) : Decidable (a < b) :=
  inferInstanceAs (Decidable (_ ∨ _))

theorem lt_def {a b : Address} : a < b ↔ a.workchain.val < b.workchain.val ∨
    a.workchain.val = b.workchain.val ∧ a.hash.bits.toNat < b.hash.bits.toNat := Iff.rfl

theorem lt_irrefl (a : Address) : ¬a < a := by
  rw [lt_def]; omega

theorem lt_trans {a b c : Address} (first : a < b) (second : b < c) : a < c := by
  rw [lt_def] at *; omega

theorem eq_of_not_lt {a b : Address} (notBelow : ¬a < b) (notAbove : ¬b < a) : a = b := by
  rw [lt_def] at notBelow notAbove
  obtain ⟨⟨aw, alo, ahi⟩, ⟨ah⟩⟩ := a
  obtain ⟨⟨bw, blo, bhi⟩, ⟨bh⟩⟩ := b
  simp only at notBelow notAbove
  have sameChain : aw = bw := by omega
  subst sameChain
  have sameHash : ah = bh := BitVec.eq_of_toNat_eq (by omega)
  subst sameHash
  rfl

end Address

end TonTrace
