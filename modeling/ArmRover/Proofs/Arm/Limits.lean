import ArmRover.Arm.Joints
import ArmRover.Proofs.Scalar.Order

/-!
# The limits of the joints

An angle that is brought into the range of a joint and is not missing lies in the range, and one
that lies in the range stays as it is.

* `Joint.Ranged` — scalars in which the ranges of the joints hold zero.
* `Joints.within_clamp`, `Joints.clamp_of_within` — configurations.
-/

namespace ArmRover

open Scalar (isNaN)

/-- Scalars in which every range of a joint holds zero. -/
class Joint.Ranged (α : Type) [Scalar α] : Prop where
  neg_limit_le_zero (j : Joint) : -(j.limit : α) ≤ 0
  zero_le_limit (j : Joint) : (0 : α) ≤ j.limit

instance : Joint.Ranged ℝ where
  neg_limit_le_zero j := by
    cases j <;> simp [Joint.limit]
  zero_le_limit j := by
    cases j <;> simp [Joint.limit]

instance : Joint.Ranged Float where
  neg_limit_le_zero j := by
    cases j <;> decide
  zero_le_limit j := by
    cases j <;> decide

variable {α : Type} [Scalar α]

theorem Joint.within_iff {j : Joint} {x : α} :
    j.within x = true ↔ -j.limit ≤ x ∧ x ≤ j.limit := by
  simp [within]

theorem Joints.within_iff {q : Joints α} :
    q.within = true ↔ ∀ j : Joint, j.within (q.get j) = true := by
  unfold within
  simp only [Bool.and_eq_true, and_assoc]
  constructor
  · rintro ⟨hb, hs, he, hw, hg⟩ j
    cases j <;> assumption
  · exact fun h => ⟨h .base, h .shoulder, h .elbow, h .wrist, h .gripper⟩

/-- A joint that is set leaves the others in their limits. -/
theorem Joints.within_set {q : Joints α} {j : Joint} {x : α} (hq : q.within = true)
    (hx : j.within x = true) : (q.set j x).within = true := by
  refine within_iff.mpr fun k => ?_
  by_cases hjk : j = k
  · subst hjk
    rw [get_set_self]
    exact hx
  · rw [get_set_of_ne hjk]
    exact within_iff.mp hq k

/-! ### What lies in the limits stays -/

section Ordered

open Scalar.Ordered

variable [Scalar.Ordered α]

theorem Joint.clamp_of_within {j : Joint} {x : α} (h : j.within x = true) : j.clamp x = x := by
  obtain ⟨hlower, hupper⟩ := within_iff.mp h
  have hbelow : ¬ x < -j.limit := fun hlt =>
    (lt_iff_not_le (not_nan_of_le hupper).1 (not_nan_of_le hlower).1).mp hlt hlower
  have habove : ¬ j.limit < x := fun hlt =>
    (lt_iff_not_le (not_nan_of_le hupper).2 (not_nan_of_le hlower).2).mp hlt hupper
  unfold clamp Scalar.clamp Scalar.lesser Scalar.greater
  rw [if_neg hbelow, if_neg habove]

theorem Joints.clamp_of_within {q : Joints α} (h : q.within = true) : q.clamp = q := by
  refine ext_get fun j => ?_
  unfold clamp
  rw [get_map]
  exact Joint.clamp_of_within (within_iff.mp h j)

end Ordered

/-! ### What is brought into the limits -/

section Ranged

open Scalar.Ordered

variable [Joint.Ranged α]

theorem Joint.within_zero (j : Joint) : j.within (0 : α) = true :=
  within_iff.mpr ⟨Ranged.neg_limit_le_zero j, Ranged.zero_le_limit j⟩

theorem Joints.within_zero : (zero : Joints α).within = true :=
  within_iff.mpr fun j => by cases j <;> exact Joint.within_zero _

variable [Scalar.Ordered α]

theorem Joint.neg_limit_le_limit (j : Joint) : -(j.limit : α) ≤ j.limit :=
  le_trans (Ranged.neg_limit_le_zero j) (Ranged.zero_le_limit j)

theorem Joint.within_clamp {j : Joint} {x : α} (h : isNaN (j.clamp x) = false) :
    j.within (j.clamp x) = true := by
  have hlimits : -(j.limit : α) ≤ j.limit := neg_limit_le_limit j
  obtain ⟨hlower, hupper⟩ := not_nan_of_le hlimits
  rw [within_iff]
  unfold clamp Scalar.clamp Scalar.lesser Scalar.greater at h ⊢
  by_cases hbelow : x < -j.limit
  · rw [if_pos hbelow] at h ⊢
    have hle : ¬ j.limit < -(j.limit : α) := fun hlt => (lt_iff_not_le hupper hlower).mp hlt hlimits
    rw [if_neg hle]
    exact ⟨le_refl hlower, hlimits⟩
  · rw [if_neg hbelow] at h ⊢
    by_cases habove : j.limit < x
    · rw [if_pos habove]
      exact ⟨hlimits, le_refl hupper⟩
    · rw [if_neg habove] at h ⊢
      exact ⟨le_of_not_lt h hlower hbelow, le_of_not_lt hupper h habove⟩

theorem Joints.within_clamp {q : Joints α} (h : ∀ j : Joint, isNaN (q.clamp.get j) = false) :
    q.clamp.within = true := by
  rw [within_iff]
  intro j
  have hj := h j
  unfold clamp at hj ⊢
  rw [get_map] at hj ⊢
  exact Joint.within_clamp hj

end Ranged

end ArmRover
