import ArmRover.Proofs.Arm.Stroke
import ArmRover.Proofs.Execution.Stretch
import ArmRover.Proofs.Simulation.Envelope

/-!
# The effort threshold in every state

The threshold for the effort has two writers. Whoever asks the gripper to open or close brings the
threshold into the range from zero to one, but a reset takes the one of the settings as it is. The
effort never exceeds the threshold, nor one.

* `Gripper.Capped` — what holds of the gripper in every state, `Station.enduring_capped` — nothing
  breaks it.
* `Simulation.Occurs` — the states of all runs, `Station.Enduring.of_occurs` — what endures holds in
  all of them.
* `Execution.closed` — closing without a threshold, `Execution.amount_maxEffort_closed` — the
  threshold that this leaves.
* `Simulation.threshold_in_range_iff` — the threshold is in the range in every state exactly if the
  one of the settings is.
-/

namespace ArmRover

open ArmRover.Action

/-! ### The gripper -/

/-- The threshold is the one of the settings or in the range from zero to one, and the effort is at
most one and at least zero, or at least the threshold of the settings if that is less. -/
structure Gripper.Capped (grip : Settings.Grip ℝ) (g : Gripper ℝ) : Prop where
  opening_nonneg : 0 ≤ g.opening
  opening_le_one : g.opening ≤ 1
  isNumber : g.maxEffort.IsNumber
  threshold : g.maxEffort.amount = grip.maxEffort.amount ∨ g.maxEffort.InRange 1
  le_effort : min 0 grip.maxEffort.amount ≤ g.effort.value
  effort_le_one : g.effort.value ≤ 1

namespace Gripper.Capped

variable {grip : Settings.Grip ℝ} {g g' : Gripper ℝ} {dt : ℝ}

theorem home (hnumber : grip.maxEffort.IsNumber) : (Gripper.home grip).Capped grip where
  opening_nonneg := Scalar.zero_real.ge
  opening_le_one := Scalar.zero_real.trans_le zero_le_one
  isNumber := hnumber
  threshold := .inl rfl
  le_effort := (min_le_left _ _).trans Scalar.zero_real.ge
  effort_le_one := Scalar.zero_real.trans_le zero_le_one

/-- No threshold is below zero and below that of the settings. -/
theorem le_threshold (h : g.Capped grip) : min 0 grip.maxEffort.amount ≤ g.maxEffort.amount := by
  rcases h.threshold with hsame | hrange
  · exact (min_le_right _ _).trans hsame.ge
  · exact (min_le_left _ _).trans hrange.nonneg

theorem travelled (h : g.Capped grip) (hgrip : grip.Moves) (hdt : 0 < dt)
    (htravelled : Feedback.Travelled grip.strokeTime.amount dt g g') : g'.Capped grip := by
  have hpos := hgrip.strokeTime_pos
  refine ⟨htravelled.opening_nonneg hpos hdt h.opening_nonneg,
    htravelled.opening_le_one hpos hdt h.opening_le_one, htravelled.maxEffort ▸ h.isNumber,
    htravelled.maxEffort ▸ h.threshold, ?_, htravelled.effort_le_one hpos hdt h.opening_le_one⟩
  have hrate : 0 ≤ max 0 (g.opening - g'.opening) * grip.strokeTime.amount / dt :=
    div_nonneg (mul_nonneg (le_max_left _ _) hpos.le) hdt.le
  rw [htravelled.effort]
  exact le_min h.le_threshold ((min_le_left _ _).trans hrate)

/-- A threshold that is asked for is brought into the range. -/
theorem setGripper {s : Station ℝ} (h : s.gripper.Capped grip) (mode : Gripper.Mode)
    (maxEffort : Option ℝ) : (s.setGripper mode maxEffort).gripper.Capped grip := by
  cases maxEffort with
  | none => exact { h with }
  | some e =>
    have hrange : (s.setGripper mode (some e)).gripper.maxEffort.InRange 1 := by
      refine ⟨⟨_, rfl⟩, ?_, ?_⟩
      · rw [Station.amount_setGripper]
        exact le_min (le_max_right _ _) zero_le_one
      · rw [Station.amount_setGripper]
        exact min_le_right _ _
    exact { h with isNumber := hrange.isNumber, threshold := .inr hrange }

end Gripper.Capped

/-! ### The station -/

variable {cfg : Settings ℝ}

/-- Nothing takes the threshold out of the range but a reset, and nothing the effort. -/
theorem Station.enduring_capped (hgrip : cfg.grip.Moves) (hnumber : cfg.grip.maxEffort.IsNumber) :
    Station.Enduring cfg fun s => s.gripper.Capped cfg.grip := by
  have hpaced : Station.Paced cfg.driving fun s : Station ℝ => s.gripper.Capped cfg.grip :=
    ⟨fun _ _ _ _ h => h, fun _ _ _ _ h => h⟩
  exact
    { advanced := fun dt s h => by
        by_cases hcounts : Feedback.Counts s dt
        case pos =>
          obtain ⟨gripper, hadvance, htravelled⟩ := Feedback.exists_advance hgrip.strokeTime
            hgrip.strokeTime_pos hcounts h.isNumber h.opening_nonneg h.opening_le_one
          rw [hadvance]
          exact h.travelled hgrip hcounts.2 htravelled
        case neg =>
          rw [Feedback.advance_of_not_counts _ hcounts]
          exact h
      steered := { hpaced with
        placed := fun _ _ h => h
        turned := fun _ _ h => h
        logged := fun _ _ h => h }
      kept :=
        { turned := fun _ _ _ h => h
          posed := fun _ _ h => h
          previewed := fun _ _ h => h
          gripped := fun _ mode maxEffort h => h.setGripper mode maxEffort
          driven := fun vx wz _ => Station.preserves_setVelocities_of hpaced vx wz fun _ h => h
          lit := fun _ _ h => h }
      switched := fun _ _ h => h
      homeArm := fun _ _ => .home hnumber
      homeRover := fun _ h => h
      reset := fun _ h => h
      refreshed := fun _ _ =>
        Sensors.preserves_refresh (Sensors.preserves_lookAhead (fun _ h => h) fun _ _ h => h)
          (fun _ h => h) (Sensors.preserves_scanAround (fun _ _ h => h) fun _ _ h => h) }

/-! ### The states of all runs -/

/-- A state of a run that begins with a new simulation: whatever is done to it and its rover, with
the moments at which a program waits or ends, and whatever the gripper is asked for. -/
inductive Simulation.Occurs {α : Type} [Scalar α] (cfg : Settings α) (world : World α) :
    Simulation α → Prop
  | new : Occurs cfg world (.new cfg world)
  | intervene {s : Simulation α} (act : Intervention α) (h : Occurs cfg world s) :
      Occurs cfg world (s.intervene cfg act)
  | during {s t : Simulation α} (act : Intervention α) (h : Occurs cfg world s)
      (hmem : t ∈ s.duringIntervention cfg act) : Occurs cfg world t
  | grip {s : Simulation α} (mode : Gripper.Mode) (maxEffort : Option α)
      (h : Occurs cfg world s) : Occurs cfg world
        (final (Simulation.onStation (modify fun t => t.setGripper mode maxEffort) s))

theorem Station.Enduring.of_occurs {α : Type} [Scalar α] {cfg : Settings α}
    {P : Station α → Prop} (h : Enduring cfg P) {world : World α}
    (hnew : P (.new cfg.toRig)) {s : Simulation α} (hs : Simulation.Occurs cfg world s) :
    P s.scene.station := by
  induction hs with
  | new => exact hnew
  | intervene act _ ih => exact h.intervene act ih
  | during act _ hmem ih => exact h.duringIntervention act ih _ hmem
  | grip mode maxEffort _ ih =>
    exact Simulation.preserves_station
      (preserves_modify fun t ht => h.kept.gripped t mode maxEffort ht) _ ih

/-! ### Closing without a threshold -/

theorem Step.preserves_station_pausing (pause : Value ℝ) (station : Station ℝ) :
    Preserves (fun s : Scene ℝ => s.station = station) ((pausing pause).take cfg) := by
  unfold pausing Step.using
  split
  · refine preserves_modifyGet fun s h => ?_
    unfold Step.pause
    split <;> exact h
  · exact preserves_throw _

theorem Step.toClose_none (hnumber : cfg.grip.maxEffort.IsNumber) :
    toClose cfg none = [.grip .closed none, .grip .closed (some cfg.grip.maxEffort.amount)] := by
  have hnull : cfg.grip.maxEffort ≠ .null := by
    obtain ⟨n, hn⟩ := hnumber
    intro h
    rw [h] at hn
    cases hn
  unfold toClose
  split
  · next h => cases h
  · next h => exact absurd h hnull
  · rw [Value.numeric?_of_isNumber hnumber]
    rfl

namespace Execution

theorem preserves_station_run_pausing (pause : Value ℝ) (station : Station ℝ) :
    Preserves (fun s : Scene ℝ => s.station = station)
      (run cfg [] [Step.pausing pause] []) := by
  have hsteps : Preserves (fun s : Scene ℝ => s.station = station)
      (takeSteps cfg [Step.pausing pause] []) := by
    unfold takeSteps
    refine preserves_bind (Step.preserves_station_pausing pause station) fun outcome => ?_
    cases outcome <;> exact preserves_pure _
  unfold run
  refine preserves_bind hsteps ?_
  rintro ⟨readings, _ | wait⟩ <;> exact preserves_pure _

/-- The scene after a program that only closes the gripper, without a threshold. -/
def closed {α : Type} [Scalar α] (cfg : Settings α) (scene : Scene α) : Scene α :=
  final (run cfg [.closeGripper none] [] [] scene)

/-- Closing the gripper without a threshold leaves the one of the settings, brought into the range,
also if the pause after it is of no use. -/
theorem amount_maxEffort_closed (hnumber : cfg.grip.maxEffort.IsNumber) (scene : Scene ℝ) :
    (closed cfg scene).station.gripper.maxEffort.amount =
      min (max cfg.grip.maxEffort.amount 0) 1 := by
  let asked := scene.onStation (·.setGripper .closed none)
  let done := asked.onStation (·.setGripper .closed (some cfg.grip.maxEffort.amount))
  have hsteps : Command.steps? cfg scene (.closeGripper none) = .ok [.grip .closed none,
      .grip .closed (some cfg.grip.maxEffort.amount), Step.pausing cfg.pauses.gripper] := by
    show (Except.ok (Step.toClose cfg none ++ _) : Except (Fault ℝ) _) = _
    rw [Step.toClose_none hnumber]
    rfl
  have hrun : run cfg [.closeGripper none] [] [] scene =
      run cfg [] [Step.pausing cfg.pauses.gripper] [] done := by
    rw [run_command hsteps, run_done (t := asked) rfl, run_done (t := done) rfl]
  have hstation : (closed cfg scene).station = done.station := by
    unfold closed
    rw [hrun]
    exact preserves_station_run_pausing cfg.pauses.gripper done.station done rfl
  rw [hstation]
  exact Station.amount_setGripper _ _ _

end Execution

/-! ### The range -/

/-- Where the fingers have a time for their stroke and the threshold of the settings is a number:
in every state the threshold is that one or in the range from zero to one, and the effort is at
most one. In every state the threshold is in the range, and so is the effort, exactly if the one of
the settings is in the range; and only then a program that closes the gripper without a threshold
right after a reset leaves it as it is. -/
theorem Simulation.threshold_in_range_iff (hgrip : cfg.grip.Moves)
    (hnumber : cfg.grip.maxEffort.IsNumber) (world : World ℝ) :
    (∀ s, Occurs cfg world s →
        (s.scene.station.gripper.maxEffort.amount = cfg.grip.maxEffort.amount ∨
          s.scene.station.gripper.maxEffort.InRange 1) ∧
        s.scene.station.gripper.effort.value ≤ 1) ∧
      ((∀ s, Occurs cfg world s → s.scene.station.gripper.maxEffort.InRange 1 ∧
          0 ≤ s.scene.station.gripper.effort.value ∧ s.scene.station.gripper.effort.value ≤ 1) ↔
        cfg.grip.maxEffort.InRange 1) ∧
      ((∀ scene : Scene ℝ, let home := scene.onStation (·.homeArm cfg.toRig)
          (Execution.closed cfg home).station.gripper.maxEffort.amount =
            home.station.gripper.maxEffort.amount) ↔
        cfg.grip.maxEffort.InRange 1) := by
  have henduring := Station.enduring_capped hgrip hnumber
  have hcapped (s : Simulation ℝ) (hs : Occurs cfg world s) :
      s.scene.station.gripper.Capped cfg.grip := henduring.of_occurs (.home hnumber) hs
  refine ⟨fun s hs => ⟨(hcapped s hs).threshold, (hcapped s hs).effort_le_one⟩, ⟨?_, ?_⟩, ⟨?_, ?_⟩⟩
  · intro hall
    exact (hall _ .new).1
  · intro hrange s hs
    have hgripper := hcapped s hs
    refine ⟨?_, ?_, hgripper.effort_le_one⟩
    · rcases hgripper.threshold with hsame | hin
      · exact ⟨hgripper.isNumber, hsame ▸ hrange.nonneg, hsame ▸ hrange.le⟩
      · exact hin
    · exact (min_eq_left hrange.nonneg).ge.trans hgripper.le_effort
  · intro hall
    have hsame : min (max cfg.grip.maxEffort.amount 0) 1 = cfg.grip.maxEffort.amount :=
      (Execution.amount_maxEffort_closed hnumber _).symm.trans (hall (new cfg world).scene)
    refine ⟨hnumber, ?_, ?_⟩
    · exact hsame ▸ le_min (le_max_right _ _) zero_le_one
    · exact hsame ▸ min_le_right _ _
  · intro hrange scene
    refine (Execution.amount_maxEffort_closed hnumber _).trans ?_
    rw [max_eq_left hrange.nonneg, min_eq_left hrange.le]
    rfl

/-- With the built-in threshold of four fifths all is in the range. -/
theorem Simulation.threshold_in_range_iff_standard :
    let cfg : Settings ℝ := .standard
    (∀ s, Occurs cfg [] s → s.scene.station.gripper.maxEffort.InRange 1 ∧
        0 ≤ s.scene.station.gripper.effort.value ∧ s.scene.station.gripper.effort.value ≤ 1) ∧
      ∀ scene : Scene ℝ, let home := scene.onStation (·.homeArm cfg.toRig)
        (Execution.closed cfg home).station.gripper.maxEffort.amount =
          home.station.gripper.maxEffort.amount := by
  intro cfg
  have hamount : cfg.grip.maxEffort.amount = 4 / 5 :=
    (Value.amount_decimal 8 1).trans (by norm_num)
  have hrange : cfg.grip.maxEffort.InRange 1 :=
    ⟨⟨_, rfl⟩, hamount ▸ by norm_num, hamount ▸ by norm_num⟩
  obtain ⟨-, hstates, hclosing⟩ := threshold_in_range_iff Settings.moves_standard
    hrange.isNumber []
  exact ⟨hstates.mpr hrange, hclosing.mpr hrange⟩

/-- A threshold of two in the settings is what a reset leaves, although nobody can ask for it, and
closing without a threshold then brings it down to one. -/
theorem Simulation.threshold_two_after_reset :
    let cfg : Settings ℝ :=
      { Settings.standard with grip := { Settings.standard.grip with maxEffort := .real 2 } }
    let s := (Simulation.new cfg []).intervene cfg (.operation .homeArm)
    cfg.grip.Moves ∧ cfg.grip.maxEffort.IsNumber ∧ Occurs cfg [] s ∧
      s.scene.station.gripper.maxEffort.amount = 2 ∧
      (Execution.closed cfg s.scene).station.gripper.maxEffort.amount = 1 := by
  intro cfg s
  have hnumber : cfg.grip.maxEffort.IsNumber := ⟨_, rfl⟩
  refine ⟨⟨Settings.moves_standard.strokeTime, Settings.moves_standard.strokeTime_pos⟩, hnumber,
    .intervene _ .new, rfl, ?_⟩
  refine (Execution.amount_maxEffort_closed hnumber _).trans ?_
  show min (max 2 0) 1 = (1 : ℝ)
  norm_num

end ArmRover
