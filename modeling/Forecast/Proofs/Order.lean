import Mathlib.Data.Prod.Lex
import Mathlib.Order.Basic
import Mathlib.Order.Compare

namespace Forecast

open Float.Model

/-- Where a float stands: below, at or above zero, and there by its exponent and its mantissa. What
is not a number stands nowhere. -/
def unpackedRank? : UnpackedFloat → Option (ℤ ×ₗ ℤ ×ₗ ℤ)
  | .notANumber => none
  | .infinity .negative => some (toLex (-2, toLex (0, 0)))
  | .finite .negative m e _ => some (toLex (-1, toLex (-e, -m)))
  | .zero _ => some (toLex (0, toLex (0, 0)))
  | .finite .positive m e _ => some (toLex (1, toLex (e, m)))
  | .infinity .positive => some (toLex (2, toLex (0, 0)))

theorem compare_neg_neg (a b : ℤ) : compare (-a) (-b) = compare b a := by
  rw [Int.compare_eq_ite_lt, Int.compare_eq_ite_lt]
  simp only [Int.neg_lt_neg_iff]

theorem compare_natCast (m n : ℕ) : compare (m : ℤ) n = compare m n := by
  rw [Int.compare_eq_ite_lt, Nat.compare_eq_ite_lt]
  simp only [Int.ofNat_lt]

theorem compare_eq_compare_rank (a b : UnpackedFloat) :
    a.compare b = (unpackedRank? a).bind fun i => (unpackedRank? b).map (compare i) := by
  have hself : ∀ a : ℤ, compare a a = .eq := fun _ => Int.compare_eq_eq.mpr rfl
  rcases a with (_ | _) | _ | (_ | _) | ⟨_ | _, m, e, hm⟩ <;>
    rcases b with (_ | _) | _ | (_ | _) | ⟨_ | _, m', e', hm'⟩
  case finite.negative.finite.negative =>
      change some ((compare e e').then (compare m m')).swap =
        some ((compare (-1 : ℤ) (-1)).then
          ((compare (-e) (-e')).then (compare (-(m : ℤ)) (-(m' : ℤ)))))
      rw [hself, compare_neg_neg, compare_neg_neg, compare_natCast, Ordering.swap_then,
        Int.compare_swap, Nat.compare_swap]
      rfl
  case finite.positive.finite.positive =>
      change some ((compare e e').then (compare m m')) =
        some ((compare (1 : ℤ) 1).then ((compare e e').then (compare (m : ℤ) (m' : ℤ))))
      rw [hself, compare_natCast]
      rfl
  -- Everywhere else the first parts of the ranks decide.
  all_goals rfl

def rank? (x : Float) : Option (ℤ ×ₗ ℤ ×ₗ ℤ) := unpackedRank? x.toModel.unpack

section Compare

variable {x y : Float}

theorem lt_iff_compare : x < y ↔ x.toModel.unpack.compare y.toModel.unpack = some .lt := by
  change decide (x.toModel.unpack.lt y.toModel.unpack = true) = true ↔ _
  rw [decide_eq_true_iff, UnpackedFloat.lt, beq_iff_eq]

theorem le_iff_compare : x ≤ y ↔ (x.toModel.unpack.compare y.toModel.unpack).any (·.isLE) := by
  change decide (x.toModel.unpack.le y.toModel.unpack = true) = true ↔ _
  rw [decide_eq_true_iff, UnpackedFloat.le]

theorem lt_iff_rank? : x < y ↔ ∃ i j, rank? x = some i ∧ rank? y = some j ∧ i < j := by
  rw [lt_iff_compare, compare_eq_compare_rank, rank?, rank?]
  simp [Option.bind_eq_some_iff, compare_lt_iff_lt]

theorem le_iff_rank? : x ≤ y ↔ ∃ i j, rank? x = some i ∧ rank? y = some j ∧ i ≤ j := by
  rw [le_iff_compare, compare_eq_compare_rank, rank?, rank?]
  cases unpackedRank? x.toModel.unpack <;> cases unpackedRank? y.toModel.unpack <;>
    simp [← Ordering.ne_gt_iff_isLE, compare_le_iff_le]

end Compare

theorem isNaN_eq_false_iff {x : Float} : x.isNaN = false ↔ ∃ i, rank? x = some i := by
  change x.toModel.unpack.isNaN = false ↔ _
  rw [rank?]
  cases x.toModel.unpack with
  | notANumber => exact iff_of_false (by decide) (by rintro ⟨i, ⟨⟩⟩)
  | infinity sign | zero sign | finite sign m e hm =>
      cases sign <;> exact iff_of_true rfl ⟨_, rfl⟩

/-- Numbers are ordered totally, perhaps with several in one place, and nothing else is ordered. -/
structure OrdersNumbers (le lt : Float → Float → Prop) : Prop where
  isNaN_left : ∀ {x y}, le x y → x.isNaN = false
  isNaN_right : ∀ {x y}, le x y → y.isNaN = false
  total : ∀ {x y}, x.isNaN = false → y.isNaN = false → le x y ∨ le y x
  trans : ∀ {x y z}, le x y → le y z → le x z
  lt_iff : ∀ {x y}, lt x y ↔ le x y ∧ ¬ le y x

namespace OrdersNumbers

variable {le lt : Float → Float → Prop}

theorem refl (h : OrdersNumbers le lt) {x : Float} (hx : x.isNaN = false) : le x x :=
  (h.total hx hx).elim id id

theorem le_of_not_lt (h : OrdersNumbers le lt) {x y : Float} (hx : x.isNaN = false)
    (hy : y.isNaN = false) (hlt : ¬ lt x y) : le y x := by
  rcases h.total hx hy with hle | hle
  · exact by_contra fun hge => hlt (h.lt_iff.mpr ⟨hle, hge⟩)
  · exact hle

theorem flip (h : OrdersNumbers le lt) : OrdersNumbers (fun x y => le y x) (fun x y => lt y x) where
  isNaN_left := h.isNaN_right
  isNaN_right := h.isNaN_left
  total hx hy := h.total hy hx
  trans hxy hyz := h.trans hyz hxy
  lt_iff := h.lt_iff

end OrdersNumbers

theorem ordersNumbers : OrdersNumbers (· ≤ ·) (· < ·) where
  isNaN_left h := by
    obtain ⟨i, j, hi, -, -⟩ := le_iff_rank?.mp h
    exact isNaN_eq_false_iff.mpr ⟨i, hi⟩
  isNaN_right h := by
    obtain ⟨i, j, -, hj, -⟩ := le_iff_rank?.mp h
    exact isNaN_eq_false_iff.mpr ⟨j, hj⟩
  total hx hy := by
    obtain ⟨i, hi⟩ := isNaN_eq_false_iff.mp hx
    obtain ⟨j, hj⟩ := isNaN_eq_false_iff.mp hy
    rcases le_total i j with hij | hji
    · exact .inl (le_iff_rank?.mpr ⟨i, j, hi, hj, hij⟩)
    · exact .inr (le_iff_rank?.mpr ⟨j, i, hj, hi, hji⟩)
  trans hxy hyz := by
    obtain ⟨i, j, hi, hj, hij⟩ := le_iff_rank?.mp hxy
    obtain ⟨j', k, hj', hk, hjk⟩ := le_iff_rank?.mp hyz
    obtain rfl := Option.some.inj (hj.symm.trans hj')
    exact le_iff_rank?.mpr ⟨i, k, hi, hk, hij.trans hjk⟩
  lt_iff := by
    intro x y
    rw [lt_iff_rank?, le_iff_rank?, le_iff_rank?]
    constructor
    · rintro ⟨i, j, hi, hj, hij⟩
      refine ⟨⟨i, j, hi, hj, hij.le⟩, ?_⟩
      rintro ⟨j', i', hj', hi', hji⟩
      obtain rfl := Option.some.inj (hi.symm.trans hi')
      obtain rfl := Option.some.inj (hj.symm.trans hj')
      exact hij.not_ge hji
    · rintro ⟨⟨i, j, hi, hj, -⟩, hji⟩
      exact ⟨i, j, hi, hj, lt_of_not_ge fun hle => hji ⟨j, i, hj, hi, hle⟩⟩

end Forecast
