import ArmRover.Proofs.Scalar.Real
import ArmRover.Settings.Basic

/-!
# The built-in settings

The settings of the built-in configuration, over the real numbers.
-/

namespace ArmRover

/-- The settings of the built-in configuration. -/
def Settings.standard {α : Type} [Scalar α] : Settings α where
  robot := .arm
  grip := ⟨.real 0.25, .real 0.8⟩
  driving :=
    { groundOffset := .real 0.1
      maxLinear := .real 2.0
      maxAngular := .real 1.5
      friction := .real 0.95
      frictionRate := .number (.whole 60)
      leastSpeed := .real 0.01
      watchdog := .real 0.5
      historyTime := .real 10.0
      light := .text "#ffffff" }
  senses := ⟨.real 5.0, 1 / 10, .whole 36, .real 0.1⟩
  mapping := ⟨.whole 10, .whole 5, .real 0.95⟩
  run := ⟨1 / 60, .real 120.0⟩
  motion :=
    { jointNames := .list
        [.text "Base", .text "Shoulder", .text "Elbow", .text "Wrist", .text "GripperRotation"]
      jointTime := .real 1.0
      poseTime := .real 2.0
      segments := .number (.whole 20)
      previewTime := .real 0.5 }
  solver := ⟨.number (.whole 50), .real 0.01⟩
  pauses := ⟨.real 0.5, .real 0.3, .real 0.05, .real 0.1, .real 0.1⟩

namespace Settings

theorem size?_standard :
    Grid.size? (.number (.whole 10) : Value ℝ) (.number (.whole 5)) = .ok 50 := rfl

/-- The built-in map has cells. -/
theorem extent?_standard (empty : Fault ℝ) :
    Grid.extent? (.number (.whole 10)) (.number (.whole 5)) empty = .ok (.whole 10, .whole 5) := by
  have hside : (Number.whole 10 : Number ℝ).atMost (Scalar.ofInt 0) = false :=
    Number.whole_atMost_zero (by decide)
  have hdensity : (Number.whole 5 : Number ℝ).atMost (Scalar.ofInt 0) = false :=
    Number.whole_atMost_zero (by decide)
  show (do
    if (Number.whole 10 : Number ℝ).atMost (Scalar.ofInt 0) then throw empty
    if (Number.whole 5 : Number ℝ).atMost (Scalar.ofInt 0) then throw empty
    return (.whole 10, .whole 5) : Except (Fault ℝ) (Number ℝ × Number ℝ)) = _
  rw [hside, hdensity]
  rfl

theorem new?_standard :
    ∃ g, (Grid.new? (.number (.whole 10)) (.number (.whole 5)) : Except (Fault ℝ) (Grid ℝ)) =
      .ok g := by
  refine ⟨⟨.whole 10, .whole 5, 50, .replicate _ .unknown⟩, ?_⟩
  unfold Grid.new?
  rw [extent?_standard, size?_standard]
  rfl

theorem senses?_standard :
    senses? (Sections.standard : Sections ℝ) = .ok (standard.senses, standard.mapping) := by
  have hrays : (Number.whole 36 : Number ℝ).below (Scalar.ofInt 1) = false :=
    Number.whole_below_one (by decide)
  have hrate : (Number.whole 10 : Number ℝ).atMost (Scalar.ofInt 0) = false :=
    Number.whole_atMost_zero (by decide)
  show (do
    if (Number.whole 36 : Number ℝ).below (Scalar.ofInt 1) then
      throw (Fault.lidarRayCount (.number (.whole 36)))
    let (side, density) ←
      Grid.extent? (.number (.whole 10) : Value ℝ) (.number (.whole 5)) .mapSettings
    if (Number.whole 10 : Number ℝ).atMost (Scalar.ofInt 0) then
      throw (Fault.updateRate (.number (.whole 10)))
    return (standard.senses, ⟨side, density, standard.mapping.hitRatio⟩) :
    Except (Fault ℝ) (Senses ℝ × Mapping ℝ)) = _
  rw [hrays, extent?_standard, hrate]
  rfl

theorem frameTime?_standard :
    frameTime? (Sections.standard : Sections ℝ) = .ok standard.run.frameTime := by
  have hrate : ((Scalar.ofInt 60 : ℝ) == Scalar.ofInt 0) = false := by
    apply beq_eq_false_iff_ne.mpr
    norm_num
  show (if (Scalar.ofInt 60 : ℝ) == Scalar.ofInt 0 then Except.error Fault.divisionByZero
    else .ok (standard.run.frameTime : ℝ)) = _
  rw [hrate]
  rfl

/-- The built-in configuration has settings. -/
theorem ofSections?_standard : ofSections? (Sections.standard : Sections ℝ) = .ok standard := by
  have hrobot : robot? (Sections.standard : Sections ℝ) = .ok .arm := rfl
  have hgrip : Grip.ofSections? (Sections.standard : Sections ℝ) = .ok standard.grip := rfl
  have hdriving : Driving.ofSections? (Sections.standard : Sections ℝ) = .ok standard.driving := rfl
  have hsolver : Solver.ofSections? (Sections.standard : Sections ℝ) = .ok standard.solver := rfl
  have hmotion : Motion.ofSections? (Sections.standard : Sections ℝ) = .ok standard.motion := rfl
  have hpauses : Pauses.ofSections? (Sections.standard : Sections ℝ) = .ok standard.pauses := rfl
  unfold ofSections?
  rw [hrobot, hgrip, hdriving, hsolver, hmotion, hpauses, senses?_standard, frameTime?_standard]
  rfl

end Settings

end ArmRover
