/-! Integers confined to an interval.

Chain amounts have a fixed width. A value carries the proof that it fits, so a
sum either clamps to the nearest bound or is refused; it never wraps.
-/

set_option autoImplicit false

namespace TonTrace

/-- An integer from `lo` to `hi`, both included. -/
structure Ranged (lo hi : Int) where
  val : Int
  lo_le : lo ≤ val
  le_hi : val ≤ hi
  deriving DecidableEq

/-- The interval contains zero, and so is not empty. -/
class SpansZero (lo hi : Int) : Prop where
  lo_le_zero : lo ≤ 0
  zero_le_hi : 0 ≤ hi

namespace Ranged

variable {lo hi : Int}

theorem ext {x y : Ranged lo hi} (same : x.val = y.val) : x = y := by
  cases x; cases y; cases same; rfl

def ofInt? (x : Int) : Option (Ranged lo hi) :=
  if h : lo ≤ x ∧ x ≤ hi then some ⟨x, h.1, h.2⟩ else none

@[simp] theorem ofInt?_val (x : Ranged lo hi) : ofInt? x.val = some x := by
  simp [ofInt?, x.lo_le, x.le_hi]

theorem ofInt?_eq_some_iff {x : Int} {y : Ranged lo hi} : ofInt? x = some y ↔ y.val = x := by
  constructor
  · intro h
    unfold ofInt? at h
    split at h
    · cases h; rfl
    · cases h
  · rintro rfl
    exact ofInt?_val y

protected def max (x y : Ranged lo hi) : Ranged lo hi := if x.val ≤ y.val then y else x

variable [SpansZero lo hi]

instance : OfNat (Ranged lo hi) 0 := ⟨⟨0, SpansZero.lo_le_zero hi, SpansZero.zero_le_hi lo⟩⟩

instance : Inhabited (Ranged lo hi) := ⟨0⟩

@[simp] theorem val_zero : (0 : Ranged lo hi).val = 0 := rfl

def clamp (x : Int) : Ranged lo hi where
  val := max lo (min hi x)
  lo_le := Int.le_max_left ..
  le_hi := by
    have low : lo ≤ 0 := SpansZero.lo_le_zero hi
    have high : 0 ≤ hi := SpansZero.zero_le_hi lo
    omega

theorem val_clamp_of_mem {x : Int} (low : lo ≤ x) (high : x ≤ hi) :
    (clamp x : Ranged lo hi).val = x := by
  simp only [clamp]
  omega

def saturatingAdd (x y : Ranged lo hi) : Ranged lo hi := clamp (x.val + y.val)

def saturatingSub (x y : Ranged lo hi) : Ranged lo hi := clamp (x.val - y.val)

def saturatingNeg (x : Ranged lo hi) : Ranged lo hi := clamp (-x.val)

def add? (x y : Ranged lo hi) : Option (Ranged lo hi) := ofInt? (x.val + y.val)

/-- The sum of a list taken from zero, refused as soon as a partial sum leaves the interval. -/
def sum? (xs : List (Ranged lo hi)) : Option (Ranged lo hi) := xs.foldlM add? 0

end Ranged

end TonTrace
