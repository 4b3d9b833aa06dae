import Mathlib.Algebra.Order.BigOperators.Group.List
import Mathlib.Algebra.Order.Ring.Int
import TonTrace.Amount

/-! When clamped and refused arithmetic is exact: what fits, single sums and
sums of lists, and the range of TON amounts. -/

set_option autoImplicit false

namespace TonTrace

namespace Ranged

variable {lo hi : Int}

def Fits (lo hi x : Int) : Prop := lo ≤ x ∧ x ≤ hi

theorem val_inj {x y : Ranged lo hi} : x.val = y.val ↔ x = y := ⟨ext, congrArg val⟩

theorem fits_val (x : Ranged lo hi) : Fits lo hi x.val := ⟨x.lo_le, x.le_hi⟩

theorem fits_iff_exists {x : Int} : Fits lo hi x ↔ ∃ y : Ranged lo hi, y.val = x := by
  constructor
  · intro fits
    exact ⟨⟨x, fits.1, fits.2⟩, rfl⟩
  · rintro ⟨y, rfl⟩
    exact fits_val y

theorem add?_eq_some_iff {x y sum : Ranged lo hi} : x.add? y = some sum ↔ sum.val = x.val + y.val :=
  ofInt?_eq_some_iff

theorem foldlM_add?_of_fits (xs : List (Ranged lo hi)) (start : Ranged lo hi)
    (fits : ∀ before after, xs = before ++ after → Fits lo hi (start.val + (before.map val).sum)) :
    ∃ total, xs.foldlM add? start = some total ∧ total.val = start.val + (xs.map val).sum := by
  induction xs generalizing start with
  | nil => exact ⟨start, rfl, by simp⟩
  | cons x rest ih =>
    obtain ⟨next, reached⟩ := fits_iff_exists.mp (fits [x] rest rfl)
    have here : next.val = start.val + x.val := by simpa using reached
    have further : ∀ before after, rest = before ++ after →
        Fits lo hi (next.val + (before.map val).sum) := by
      intro before after parts
      have longer := fits (x :: before) after (by rw [parts, List.cons_append])
      rwa [List.map_cons, List.sum_cons, ← Int.add_assoc, ← here] at longer
    obtain ⟨total, sum, exact⟩ := ih next further
    refine ⟨total, ?_, ?_⟩
    · rw [List.foldlM_cons, add?_eq_some_iff.mpr here]
      exact sum
    · rw [exact, here, List.map_cons, List.sum_cons, Int.add_assoc]

variable [SpansZero lo hi]

theorem val_clamp_iff (x : Int) : (clamp x : Ranged lo hi).val = x ↔ Fits lo hi x := by
  constructor
  · intro same
    rw [← same]
    exact fits_val _
  · intro fits
    exact val_clamp_of_mem fits.1 fits.2

theorem val_saturatingAdd_iff (x y : Ranged lo hi) :
    (x.saturatingAdd y).val = x.val + y.val ↔ Fits lo hi (x.val + y.val) := val_clamp_iff _

theorem val_saturatingSub_iff (x y : Ranged lo hi) :
    (x.saturatingSub y).val = x.val - y.val ↔ Fits lo hi (x.val - y.val) := val_clamp_iff _

theorem val_saturatingNeg_iff (x : Ranged lo hi) :
    x.saturatingNeg.val = -x.val ↔ Fits lo hi (-x.val) := val_clamp_iff _

theorem saturatingAdd_zero (x : Ranged lo hi) : x.saturatingAdd 0 = x := by
  have exact := (val_saturatingAdd_iff x 0).mpr (by simpa using fits_val x)
  exact ext (by simpa using exact)

theorem zero_saturatingAdd (x : Ranged lo hi) : (0 : Ranged lo hi).saturatingAdd x = x := by
  have exact := (val_saturatingAdd_iff 0 x).mpr (by simpa using fits_val x)
  exact ext (by simpa using exact)

theorem saturatingAdd_comm (x y : Ranged lo hi) : x.saturatingAdd y = y.saturatingAdd x :=
  congrArg clamp (Int.add_comm _ _)

/-- Two sums in a row can be regrouped when neither of the inner sums is clamped. -/
theorem saturatingAdd_assoc {x y z : Ranged lo hi} (left : Fits lo hi (x.val + y.val))
    (right : Fits lo hi (y.val + z.val)) :
    x.saturatingAdd (y.saturatingAdd z) = (x.saturatingAdd y).saturatingAdd z := by
  have first : (x.saturatingAdd y).val = x.val + y.val := (val_saturatingAdd_iff x y).mpr left
  have second : (y.saturatingAdd z).val = y.val + z.val := (val_saturatingAdd_iff y z).mpr right
  unfold saturatingAdd at first second ⊢
  rw [first, second, Int.add_assoc]

theorem sum?_of_fits {xs : List (Ranged lo hi)}
    (fits : ∀ before after, xs = before ++ after → Fits lo hi (before.map val).sum) :
    ∃ total, sum? xs = some total ∧ total.val = (xs.map val).sum := by
  have sum := foldlM_add?_of_fits xs 0
  simp only [val_zero, Int.zero_add] at sum
  exact sum fits

end Ranged

namespace Nanotons

abbrev bound : Nat := 0x7fffffffffffffff

abbrev Fits (x : Int) : Prop := Ranged.Fits (-0x8000000000000000) 0x7fffffffffffffff x

theorem fits_of_natAbs_le {x : Int} (small : x.natAbs ≤ bound) : Fits x := by
  constructor <;> simp only [bound] at small <;> omega

end Nanotons

theorem natAbs_sum_le (xs : List Int) : xs.sum.natAbs ≤ (xs.map Int.natAbs).sum := by
  induction xs with
  | nil => rfl
  | cons x rest ih =>
    rw [List.sum_cons, List.map_cons, List.sum_cons]
    exact (Int.natAbs_add_le x rest.sum).trans (Nat.add_le_add_left ih _)

theorem sum_natAbs_le {α : Type} {f g : α → Int} {xs : List α}
    (each : ∀ x ∈ xs, (f x).natAbs ≤ g x) : (xs.map fun x => (f x).natAbs).sum ≤ (xs.map g).sum := by
  induction xs with
  | nil => simp
  | cons x rest ih =>
    obtain ⟨first, others⟩ := List.forall_mem_cons.mp each
    have bounded := ih others
    simp only [List.map_cons, List.sum_cons]
    omega

end TonTrace
