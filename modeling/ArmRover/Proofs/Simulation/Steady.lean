import ArmRover.Proofs.Settings.Standard
import ArmRover.Proofs.Simulation.Course

/-!
# Time with the arm

While the arm is active, the rover and its sensors are left alone, and all that time needs is a time
for the stroke of the gripper, other than zero, and an effort threshold that is a number. No command
takes that away, so time never fails.

* `Station.Steady` — stations for which time can pass with the arm.
* `Simulation.yields_pass_steady` — the first half of a frame, `Simulation.steady_frames` — so many
  frames.
* `Simulation.smooth_of_steady` — time never fails.
-/

namespace ArmRover

open ArmRover.Action

/-- The arm is active, and the effort threshold of its gripper is a number. -/
def Station.Steady (s : Station ℝ) : Prop := s.active = .arm ∧ s.gripper.maxEffort.IsNumber

/-- Settings with which time can pass for the arm. -/
structure Rig.Steady (rig : Rig ℝ) : Prop where
  strokeTime : rig.grip.strokeTime.IsNumber
  stroke_ne_zero : rig.grip.strokeTime.amount ≠ 0
  maxEffort : rig.grip.maxEffort.IsNumber

theorem Settings.steady_standard : (Settings.standard : Settings ℝ).toRig.Steady where
  strokeTime := ⟨_, rfl⟩
  stroke_ne_zero := by
    show ((25 : Nat) : ℝ) / 10 ^ 2 ≠ 0
    norm_num
  maxEffort := ⟨_, rfl⟩

namespace Station.Steady

theorem aged {s t : Station ℝ} (h : s.Steady) (hst : s.Aged t) : t.Steady := by
  refine ⟨hst.active.trans h.1, ?_⟩
  rcases hst.maxEffort with heffort | ⟨e, heffort⟩
  · rw [heffort]
    exact h.2
  · rw [heffort]
    exact ⟨_, rfl⟩

theorem home {s : Station ℝ} {rig : Rig ℝ} (h : s.Steady) (hrig : rig.Steady) :
    (s.home rig).Steady := by
  unfold Station.home
  rw [h.1]
  exact ⟨h.1, hrig.maxEffort⟩

end Station.Steady

/-! ### The first half of a frame -/

theorem Feedback.yields_advance_steady {stroke : Value ℝ} (hstroke : stroke.IsNumber)
    (hzero : stroke.amount ≠ 0) (dt : ℝ) :
    Yields Station.Steady (Feedback.advance stroke dt) fun _ => Station.Steady := by
  have htravel : ∀ step, Yields (fun g : Gripper ℝ => g.maxEffort.IsNumber)
      (Feedback.travel stroke.amount step dt) fun _ g => g.maxEffort.IsNumber := by
    intro step
    unfold Feedback.travel
    refine yields_get fun g hg => ?_
    obtain ⟨n, hn⟩ := hg
    refine yields_bind (Q := fun _ g' => g'.maxEffort = g.maxEffort)
      (yields_modify fun _ h => h ▸ rfl) fun _ => ?_
    refine yields_lift hn ?_
    exact yields_modify fun _ h => ⟨n, h ▸ hn⟩
  unfold Feedback.advance
  refine yields_get fun s hs => yields_of (V := Station.Steady) (fun t ht => ht ▸ hs) ?_
  refine yields_ite (fun _ => yields_pure fun _ h => h) fun _ => ?_
  refine yields_bind (Q := fun _ => Station.Steady) (yields_modify fun _ h => h) fun _ => ?_
  refine yields_lift (Value.scalar?_of_isNumber hstroke) ?_
  refine yields_lift (Scalar.divide?_real hzero) ?_
  exact yields_on (fun _ h => h.2) (htravel _) fun _ _ _ h hg => ⟨h.1, hg⟩

theorem Drive.yields_advance_steady (driving : Settings.Driving ℝ) (dt now : ℝ) :
    Yields Station.Steady (Drive.advance driving dt now) fun _ => Station.Steady := by
  unfold Drive.advance
  refine yields_get fun s hs => yields_of (V := Station.Steady) (fun t ht => ht ▸ hs) ?_
  refine yields_ite (fun _ => yields_pure fun _ h => h) fun hrover => ?_
  rw [hs.1] at hrover
  exact absurd nofun hrover

theorem Sensors.yields_refresh_steady (senses : Settings.Senses ℝ)
    (mapping : Settings.Mapping ℝ) (world : World ℝ) (now : ℝ) :
    Yields Station.Steady (Sensors.refresh senses mapping world now) fun _ => Station.Steady := by
  unfold Sensors.refresh
  refine yields_get fun s hs => yields_of (V := Station.Steady) (fun t ht => ht ▸ hs) ?_
  refine yields_ite (fun _ => yields_pure fun _ h => h) fun hrover => ?_
  rw [hs.1] at hrover
  exact absurd nofun hrover

namespace Simulation

variable {cfg : Settings ℝ}

theorem yields_pass_steady (hcfg : cfg.toRig.Steady) (dt : ℝ) :
    Yields (fun s => s.scene.station.Steady) (pass cfg dt) fun _ s => s.scene.station.Steady := by
  refine yields_bind (Q := fun _ s => s.scene.station.Steady) (yields_modify fun s hs => hs)
    fun _ => ?_
  refine yields_get fun s hs => ?_
  refine yields_of (V := fun s => s.scene.station.Steady) (fun t ht => ht ▸ hs) ?_
  refine yields_bind (yields_onStation
    (Feedback.yields_advance_steady hcfg.strokeTime hcfg.stroke_ne_zero dt)) fun _ => ?_
  refine yields_bind (yields_onStation (Drive.yields_advance_steady _ dt _)) fun _ => ?_
  exact yields_onStation (Sensors.yields_refresh_steady _ _ _ _)

/-! ### Frames -/

theorem steady_serve (hcfg : cfg.toRig.Steady) {s : Simulation ℝ} (h : s.scene.station.Steady) :
    (s.serve cfg).scene.station.Steady := by
  have hrun : ∀ commands steps readings, Preserves (fun t : Scene ℝ => t.station.Steady)
      (Execution.run cfg commands steps readings) :=
    fun commands steps readings t ht =>
      ht.aged (Execution.preserves_run cfg commands steps readings t (.refl t.station))
  refine serve_preserves cfg (fun _ ht => ht) (fun commands => ?_) (fun rest => hrun _ _ _) h
  unfold Execution.begin
  refine preserves_bind preserves_get fun s => ?_
  exact preserves_bind (preserves_modify fun t ht => ht.home hcfg) fun _ => hrun _ _ _

theorem steady_frames (hcfg : cfg.toRig.Steady) (dt : ℝ) {s : Simulation ℝ}
    (h : s.scene.station.Steady) (n : Nat) : (s.frames cfg dt n).scene.station.Steady := by
  induction n generalizing s with
  | zero => exact h
  | succ n ih =>
    obtain ⟨_, t, hpass, ht⟩ := yields_pass_steady hcfg dt s h
    rw [frames_succ_of_pass hpass]
    exact ih (steady_serve hcfg ht)

/-- With the arm time never fails. -/
theorem smooth_of_steady (hcfg : cfg.toRig.Steady) (dt : ℝ) {s : Simulation ℝ}
    (h : s.scene.station.Steady) : s.Smooth cfg dt := by
  intro n _
  obtain ⟨_, t, hpass, -⟩ := yields_pass_steady hcfg dt _ (steady_frames hcfg dt h n)
  exact ⟨t, hpass⟩

end Simulation

end ArmRover
