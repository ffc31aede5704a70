import ArmRover.Proofs.Geometry.Points
import ArmRover.Proofs.Rover.Advance

/-!
# How far the rover gets

In a stretch of time the rover gets at most as far as its velocities at the start would bring it,
and it stays where it is once the watchdog has run out. That holds also for a stretch that a fault
stops, and for a rover that is not active.

* `Rover.position`, `Rover.pose` — where the rover is, and where it looks.
* `Drive.Drifted` — what a stretch can do at most, `Drive.drifted_of_advance` — a stretch.
-/

namespace ArmRover

open ArmRover.Action

/-- Where the rover is. -/
noncomputable def Rover.position (r : Rover ℝ) : Point ℝ := ⟨r.x, r.height.amount, r.z⟩

/-- Where the rover is and where it looks. -/
noncomputable def Rover.pose (r : Rover ℝ) : Point ℝ × ℝ := (r.position, r.heading)

theorem Rover.position_driven (r : Rover ℝ) (vx wz dt : ℝ) :
    (r.driven vx wz dt).position = ⟨r.x + vx * Real.sin r.heading * dt, r.height.amount,
      r.z + vx * Real.cos r.heading * dt⟩ := by
  unfold Rover.position
  rw [Rover.amount_height_driven]
  rfl

/-- The way of a rover that moves is as long as its velocity makes it. -/
theorem Rover.norm_driven (r : Rover ℝ) (vx wz dt : ℝ) :
    ((r.driven vx wz dt).position - r.position).norm = |vx * dt| := by
  rw [Rover.position_driven]
  unfold Rover.position
  rw [Point.mk_sub_mk_real, sub_self, add_sub_cancel_left, add_sub_cancel_left]
  refine Point.norm_of_sq_add_sq ?_
  linear_combination (vx * dt) ^ 2 * Real.sin_sq_add_cos_sq r.heading

theorem Point.norm_sub_self (p : Point ℝ) : (p - p).norm = 0 := by
  obtain ⟨x, y, z⟩ := p
  rw [mk_sub_mk_real, sub_self, sub_self, sub_self]
  exact (norm_of_sq_add_sq (by norm_num : (0 : ℝ) ^ 2 + 0 ^ 2 = 0 ^ 2)).trans abs_zero

namespace Drive

variable {driving : Settings.Driving ℝ} {dt now : ℝ} {r r' : Rover ℝ}

/-- What a stretch of time can do to a rover at most: no velocity grows, the way and the turn are no
more than the velocities at the start allow, and there is neither if these are zero or the watchdog
has run out. -/
structure Drifted (driving : Settings.Driving ℝ) (dt now : ℝ) (r r' : Rover ℝ) : Prop where
  vx : |r'.vx.value| ≤ |r.vx.value|
  wz : |r'.wz.value| ≤ |r.wz.value|
  lastCommand : r'.lastCommand = r.lastCommand
  way : (r'.position - r.position).norm ≤ |r.vx.value| * dt
  turn : |r'.heading - r.heading| ≤ |r.wz.value| * dt
  stays : Stale driving r now ∨ (r.vx.value = 0 ∧ r.wz.value = 0) → r'.pose = r.pose

theorem Drifted.refl (driving : Settings.Driving ℝ) (hdt : 0 ≤ dt) (now : ℝ) (r : Rover ℝ) :
    Drifted driving dt now r r where
  vx := le_refl _
  wz := le_refl _
  lastCommand := rfl
  way := by
    rw [Point.norm_sub_self]
    exact mul_nonneg (abs_nonneg _) hdt
  turn := by
    rw [sub_self, abs_zero]
    exact mul_nonneg (abs_nonneg _) hdt
  stays _ := rfl

/-- A rover that turns by what is left of its velocities, and moves by it or not. -/
theorem Slowed.drifted {vx wz : Number ℝ} (h : Slowed driving dt now r vx wz)
    (hdamped : driving.Damped) (hdt : 0 ≤ dt) (hvx : r'.vx = vx) (hwz : r'.wz = wz)
    (hlast : r'.lastCommand = r.lastCommand) (hheading : r'.heading = r.heading + wz.value * dt)
    (hposition : r'.position = r.position ∨
      r'.position = (r.driven vx.value wz.value dt).position) : Drifted driving dt now r r' where
  vx := by
    rw [hvx, h.vx]
    exact abs_remaining_le hdamped hdt r now _
  wz := by
    rw [hwz, h.wz]
    exact abs_remaining_le hdamped hdt r now _
  lastCommand := hlast
  way := by
    rcases hposition with hstay | hmove
    · rw [hstay, Point.norm_sub_self]
      exact mul_nonneg (abs_nonneg _) hdt
    · rw [hmove, Rover.norm_driven, abs_mul, abs_of_nonneg hdt, h.vx]
      exact mul_le_mul_of_nonneg_right (abs_remaining_le hdamped hdt r now _) hdt
  turn := by
    rw [hheading, add_sub_cancel_left, abs_mul, abs_of_nonneg hdt, h.wz]
    exact mul_le_mul_of_nonneg_right (abs_remaining_le hdamped hdt r now _) hdt
  stays hstill := by
    obtain ⟨hvx, hwz⟩ : vx.value = 0 ∧ wz.value = 0 := by
      rw [h.vx, h.wz]
      rcases hstill with hstale | ⟨hvx, hwz⟩
      · exact ⟨remaining_of_stale hstale dt _, remaining_of_stale hstale dt _⟩
      · rw [hvx, hwz]
        exact ⟨remaining_zero r dt now, remaining_zero r dt now⟩
    rw [hwz, zero_mul, add_zero] at hheading
    rw [hvx, Rover.position_driven, zero_mul, zero_mul, zero_mul, zero_mul, add_zero,
      add_zero] at hposition
    exact Prod.ext (hposition.elim id id) hheading

/-- A stretch of time, also one that fails, and also for a rover that is not active. -/
theorem drifted_of_advance {s : Station ℝ} (h : driving.Damped) (hdt : 0 ≤ dt) (now : ℝ)
    (hwithin : s.rover.Within driving) :
    Drifted driving dt now s.rover (final (advance driving dt now s)).rover := by
  by_cases hactive : s.active = .rover
  · rcases advance_cases h hdt now hactive hwithin with
      ⟨vx, wz, hslowed, hadvance⟩ | ⟨-, fault, hadvance⟩
    · rw [hadvance]
      rcases displace_cases vx.value wz.value dt { s with rover := { s.rover with vx, wz } } with
        hmove | ⟨-, fault, hstay⟩
      · rw [run_bind hmove]
        rcases Station.addSample_cases now driving.historyTime { s with
          rover := Rover.driven { s.rover with vx, wz } vx.value wz.value dt } with
          hsample | ⟨-, fault, hsample⟩
        all_goals
          rw [hsample]
          exact hslowed.drifted h hdt rfl rfl rfl rfl (.inr rfl)
      · rw [run_bind_error hstay]
        exact hslowed.drifted h hdt rfl rfl rfl rfl (.inl rfl)
    · rw [hadvance]
      exact .refl driving hdt now s.rover
  · have hidle : advance driving dt now s = .ok () s := by
      unfold advance
      rw [run_get_bind, if_pos hactive]
      rfl
    rw [hidle]
    exact .refl driving hdt now s.rover

end Drive

end ArmRover
