import ArmRover.Fault

/-!
# Joints of the arm

Five joints carry the hand: the base turns about the vertical, shoulder, elbow and wrist bend in
one vertical plane, and the gripper rotates about the hand. Angles are in degrees.

* `Joint` — the joints and their limits.
* `Joints` — a configuration of the arm.
* `Joints.clamp`, `Joints.within` — bringing a configuration into the limits, and the test.
-/

namespace ArmRover

/-- The joints, from the ground up. -/
inductive Joint where
  | base
  | shoulder
  | elbow
  | wrist
  | gripper
  deriving DecidableEq, Repr

namespace Joint

/-- The largest magnitude of the joint's angle. The ranges are symmetric about zero. -/
@[inline] def limit [Scalar α] : Joint → α
  | base => 180
  | shoulder => 90
  | elbow => 150
  | wrist => 90
  | gripper => 180

/-- An angle brought into the range of the joint. -/
@[inline] def clamp [Scalar α] (j : Joint) (angle : α) : α := Scalar.clamp angle (-j.limit) j.limit

/-- Whether an angle lies in the range of the joint. -/
def within [Scalar α] (j : Joint) (angle : α) : Bool := -j.limit ≤ angle && angle ≤ j.limit

/-- The joint with a given number, from 0, or backwards from -1. -/
def numbered? : Int → Option Joint
  | 0 | -5 => some base
  | 1 | -4 => some shoulder
  | 2 | -3 => some elbow
  | 3 | -2 => some wrist
  | 4 | -1 => some gripper
  | _ => none

end Joint

/-- One number for each joint. -/
structure Joints (α : Type) where
  base : α
  shoulder : α
  elbow : α
  wrist : α
  gripper : α
  deriving DecidableEq, Repr

namespace Joints

/-- The number of a joint. -/
def get (q : Joints α) : Joint → α
  | .base => q.base
  | .shoulder => q.shoulder
  | .elbow => q.elbow
  | .wrist => q.wrist
  | .gripper => q.gripper

/-- Replace the number of a joint. -/
def set (q : Joints α) (j : Joint) (x : α) : Joints α :=
  match j with
  | .base => { q with base := x }
  | .shoulder => { q with shoulder := x }
  | .elbow => { q with elbow := x }
  | .wrist => { q with wrist := x }
  | .gripper => { q with gripper := x }

/-- Apply a function joint by joint. -/
def map (f : Joint → α → β) (q : Joints α) : Joints β :=
  ⟨f .base q.base, f .shoulder q.shoulder, f .elbow q.elbow, f .wrist q.wrist,
    f .gripper q.gripper⟩

/-- Combine two configurations joint by joint. -/
def zipWith (f : α → β → γ) (p : Joints α) (q : Joints β) : Joints γ :=
  ⟨f p.base q.base, f p.shoulder q.shoulder, f p.elbow q.elbow, f p.wrist q.wrist,
    f p.gripper q.gripper⟩

/-- The numbers from the base to the gripper. -/
def toList (q : Joints α) : List α := [q.base, q.shoulder, q.elbow, q.wrist, q.gripper]

/-- The configuration with the given angles, which have to be five. -/
def ofList? : List α → Except (Fault α) (Joints α)
  | [base, shoulder, elbow, wrist, gripper] => .ok ⟨base, shoulder, elbow, wrist, gripper⟩
  | angles => .error (.jointCount angles.length)

@[simp] theorem ofList?_toList (q : Joints α) : ofList? q.toList = .ok q := rfl

@[simp] theorem get_set_self (q : Joints α) (j : Joint) (x : α) : (q.set j x).get j = x := by
  cases j <;> rfl

theorem get_set_of_ne {j k : Joint} (h : j ≠ k) (q : Joints α) (x : α) :
    (q.set j x).get k = q.get k := by
  cases j <;> cases k <;> first | rfl | exact absurd rfl h

@[simp] theorem set_set (q : Joints α) (j : Joint) (x y : α) : (q.set j x).set j y = q.set j y := by
  cases j <;> rfl

@[simp] theorem set_get (q : Joints α) (j : Joint) : q.set j (q.get j) = q := by
  cases j <;> rfl

@[simp] theorem get_map (f : Joint → α → β) (q : Joints α) (j : Joint) :
    (q.map f).get j = f j (q.get j) := by
  cases j <;> rfl

@[simp] theorem get_zipWith (f : α → β → γ) (p : Joints α) (q : Joints β) (j : Joint) :
    (zipWith f p q).get j = f (p.get j) (q.get j) := by
  cases j <;> rfl

/-- Configurations with the same angle at every joint are equal. -/
theorem ext_get {p q : Joints α} (h : ∀ j, p.get j = q.get j) : p = q := by
  obtain ⟨_, _, _, _, _⟩ := p
  obtain ⟨_, _, _, _, _⟩ := q
  have hb := h .base
  have hs := h .shoulder
  have he := h .elbow
  have hw := h .wrist
  have hg := h .gripper
  simp only [get] at hb hs he hw hg
  subst hb hs he hw hg
  rfl

variable [Scalar α]

/-- All joints at zero. -/
def zero : Joints α := ⟨0, 0, 0, 0, 0⟩

/-- Every joint brought into its range. -/
def clamp (q : Joints α) : Joints α := q.map Joint.clamp

/-- Whether every joint lies in its range. -/
def within (q : Joints α) : Bool :=
  Joint.base.within q.base && Joint.shoulder.within q.shoulder && Joint.elbow.within q.elbow
    && Joint.wrist.within q.wrist && Joint.gripper.within q.gripper

end Joints

end ArmRover
