import TonTrace.Decimal
import TonTrace.Hex

/-! The number types of the chain and the text of amounts. -/

set_option autoImplicit false

namespace TonTrace

/-- TON amounts and their changes, in billionths. -/
abbrev Nanotons := Ranged (-0x8000000000000000) 0x7fffffffffffffff

abbrev UnixTime := Ranged (-0x8000000000000000) 0x7fffffffffffffff

abbrev JettonAmount := Ranged 0 0xffffffffffffffffffffffffffffffff

abbrev JettonDelta :=
  Ranged (-0x80000000000000000000000000000000) 0x7fffffffffffffffffffffffffffffff

abbrev Word64 := Ranged 0 0xffffffffffffffff

abbrev Word32 := Ranged 0 0xffffffff

abbrev Workchain := Ranged (-0x80000000) 0x7fffffff

instance : SpansZero (-0x8000000000000000) 0x7fffffffffffffff := ⟨by decide, by decide⟩
instance : SpansZero 0 0xffffffffffffffffffffffffffffffff := ⟨by decide, by decide⟩
instance : SpansZero (-0x80000000000000000000000000000000) 0x7fffffffffffffffffffffffffffffff :=
  ⟨by decide, by decide⟩
instance : SpansZero 0 0xffffffffffffffff := ⟨by decide, by decide⟩
instance : SpansZero 0 0xffffffff := ⟨by decide, by decide⟩
instance : SpansZero (-0x80000000) 0x7fffffff := ⟨by decide, by decide⟩

/-- A received amount as a balance change; amounts beyond the range of changes count as its maximum. -/
def JettonAmount.credit (amount : JettonAmount) : JettonDelta := .clamp amount.val

/-- A sent amount as a balance change. The credit is never negative, so its opposite is in range. -/
def JettonAmount.debit (amount : JettonAmount) : JettonDelta := .clamp (-amount.credit.val)

/-- TON as an asset amount; a negative value counts as nothing. -/
def Nanotons.toAmount (value : Nanotons) : JettonAmount := (Ranged.ofInt? value.val).getD 0

def JettonAmount.ofText? (text : String) : Option JettonAmount := do
  Ranged.ofInt? (← Decimal.unsigned? text.toList)

namespace Amount

def codeText (code : Word32) : String := String.ofList ('0' :: 'x' :: Hex.fixed 8 code.val.toNat)

def tonText (value : Nanotons) : String :=
  (if value.val < 0 then "-" else "") ++ Decimal.fixedPoint value.val.natAbs 9

/-- A token amount with up to `places` places. The scale has to fit the
amount's own width, so 39 places or more are refused. -/
def tokenText? (amount : JettonAmount) (places : Nat) : Option String :=
  if places ≤ 38 then some (Decimal.fixedPoint amount.val.toNat places) else none

end Amount

end TonTrace
