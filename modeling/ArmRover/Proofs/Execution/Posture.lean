import ArmRover.Proofs.Arm.Turning
import ArmRover.Proofs.Execution.Stretch
import ArmRover.Proofs.Execution.Timing
import ArmRover.Proofs.Station.Passing

/-!
# Where a program leaves the arm

Every step of a program for the arm aims at a posture, whenever it is taken and however often it
has to wait: what is still to be taken of the step aims at the same posture again. So does what is
left of a program at each of its waits, and when nothing is left the posture is there.

* `Posture` — the joints, and what the gripper is asked to be, `Station.posture` — that of a station.
* `Step.aim`, `Command.aim` — the posture that a step and a command aim at, from another one.
* `Step.aim_of_take`, `Execution.aim_of_takeSteps`, `Execution.aim_of_run` — what is left aims at the
  same posture.
* `Command.leaves`, `Command.foldl_aim` — the posture that many commands aim at, by the last command
  for each part of it.
-/

namespace ArmRover

open ArmRover.Action

/-! ### Postures -/

/-- The joints of the arm, and what its gripper is asked to be. -/
structure Posture (α : Type) where
  joints : Joints α
  mode : Gripper.Mode
  maxEffort : Value α

section Aims

variable {α : Type} [Scalar α]

omit [Scalar α] in
/-- The posture of the arm of a station. -/
def Station.posture (s : Station α) : Posture α :=
  ⟨s.arm.joints, s.gripper.mode, s.gripper.maxEffort⟩

/-- The posture of an arm at home. -/
def Posture.home (grip : Settings.Grip α) : Posture α := ⟨.zero, .closed, grip.maxEffort⟩

namespace Posture

/-- Turn a joint to an angle brought into its range. -/
def turn (p : Posture α) (j : Joint) (angle : α) : Posture α :=
  { p with joints := p.joints.set j (j.clamp angle) }

/-- Ask the gripper to open or close, with an effort threshold if one is given. -/
def grip (p : Posture α) (mode : Gripper.Mode) (maxEffort : Option α) : Posture α :=
  { p with
    mode
    maxEffort := (maxEffort.map fun e => Value.real (Scalar.clamp e 0 1)).getD p.maxEffort }

end Posture

/-- The posture that a step aims at. -/
def Step.aim (p : Posture α) : Step α → Posture α
  | .turn j _ target _ => p.turn j target
  | .pose q => { p with joints := q.clamp }
  | .grip mode maxEffort => p.grip mode maxEffort
  | .preview _ | .drive .. | .light _ | .sleep _ | .reading _ | .fail _ => p

namespace Command

omit [Scalar α] in
/-- Whether a command brings the tip to a point. -/
def posed : Command α → Bool
  | .moveToPose _ => true
  | _ => false

omit [Scalar α] in
/-- The angle that a command turns a joint to. -/
def angle? (j : Joint) : Command α → Option α
  | .moveJoint number angle => if Joint.numbered? number = some j then some angle else none
  | _ => none

omit [Scalar α] in
theorem angle?_moveJoint (j : Joint) (number : Int) (angle : α) :
    angle? j (.moveJoint number angle) =
      if Joint.numbered? number = some j then some angle else none := rfl

omit [Scalar α] in
/-- What a command asks the gripper to be. -/
def mode? : Command α → Option Gripper.Mode
  | .openGripper => some .open
  | .closeGripper _ => some .closed
  | _ => none

/-- The effort threshold that a command sets: one that closes the gripper sets the one it is given,
or else the one of the settings, if that is a number. -/
def threshold? (cfg : Settings α) : Command α → Option α
  | .closeGripper (some e) => some e
  | .closeGripper none => cfg.grip.maxEffort.numeric?.toOption
  | _ => none

/-- The angle at which commands leave a joint that was at home: that of the last command for it,
brought into its range. -/
def leaves (commands : List (Command α)) (j : Joint) : α :=
  ((commands.filterMap (angle? j)).getLast?.map j.clamp).getD 0

/-- The posture that a command aims at, if it does not bring the tip to a point. -/
def aim (cfg : Settings α) (p : Posture α) (c : Command α) : Posture α :=
  match c with
  | .moveJoint number angle => (Joint.numbered? number).elim p fun j => p.turn j angle
  | .openGripper => p.grip .open none
  | .closeGripper _ => p.grip .closed (c.threshold? cfg)
  | _ => p

theorem aim_moveJoint (cfg : Settings α) (p : Posture α) (number : Int) (angle : α) :
    aim cfg p (.moveJoint number angle) =
      (Joint.numbered? number).elim p fun j => p.turn j angle := rfl

end Command

/-- The posture that what is left of a program aims at. -/
def Execution.goal (cfg : Settings α) (rest : Execution α) (p : Posture α) : Posture α :=
  rest.commands.foldl (Command.aim cfg) (rest.steps.foldl Step.aim p)

/-- The posture that a program aims at, as far as it has come. -/
def Progress.goal (cfg : Settings α) (p : Posture α) : Progress α → Posture α
  | waiting _ rest => rest.goal cfg p
  | done _ => p

theorem Step.aim_pausing (p : Posture α) (pause : Value α) : (pausing pause).aim p = p := by
  unfold pausing Step.using
  split <;> rfl

/-- A threshold of the settings that is no number is not set. -/
theorem Step.aim_toClose (cfg : Settings α) (effort : Option α) (p : Posture α) :
    (toClose cfg effort).foldl aim p =
      p.grip .closed ((Command.closeGripper effort).threshold? cfg) := by
  unfold toClose Command.threshold?
  cases effort with
  | some e => rfl
  | none =>
    cases hdefault : cfg.grip.maxEffort with
    | null => rfl
    | _ =>
      dsimp only
      unfold Step.using
      split
      · next he =>
        rw [he]
        rfl
      · next he =>
        rw [he]
        rfl

/-- The steps of a command aim at what the command aims at. -/
theorem Command.aim_steps? {cfg : Settings α} {c : Command α} {s : Scene α} {steps : List (Step α)}
    (h : c.steps? cfg s = .ok steps) (hposed : c.posed = false) (p : Posture α) :
    steps.foldl Step.aim p = c.aim cfg p := by
  cases c with
  | moveJoint number angle =>
    unfold steps? at h
    unfold aim
    dsimp only at h ⊢
    split at h
    · next j hj =>
      cases h
      rw [hj]
      rfl
    · cases h
  | openGripper =>
    cases h
    exact Step.aim_pausing _ _
  | closeGripper effort =>
    cases h
    rw [List.foldl_append]
    exact (Step.aim_pausing _ _).trans (Step.aim_toClose cfg effort p)
  | moveToPose target => cases hposed
  | move vx wz =>
    cases h
    exact Step.aim_pausing _ _
  | getDistance =>
    cases h
    rw [List.foldl_cons, Step.aim_pausing]
    split <;> rfl
  | setLight color =>
    cases h
    exact Step.aim_pausing _ _
  | other robot kind => cases h

omit [Scalar α] in
/-- The robots move without a change of the posture: it is what is asked of the arm. -/
theorem Station.lasting_posture (p : Posture α) : Station.Lasting fun s => s.posture = p where
  arm s arm hjoints _ h := by
    rw [← h]
    unfold posture
    rw [hjoints]
  gripper s gripper hmode heffort h := by
    rw [← h]
    unfold posture
    rw [hmode, heffort]
  rover _ _ _ h := h

end Aims

/-! ### Steps -/

variable {cfg : Settings ℝ} {s t : Scene ℝ}

namespace Step

/-- What is left of a step that was taken. -/
def Outcome.left : Outcome ℝ → List (Step ℝ)
  | .waits _ again => again
  | _ => []

/-- A joint that turns is written in every frame, and is done when all of its time has passed. -/
theorem of_take_turn {j : Joint} {start target since : ℝ} {outcome : Outcome ℝ}
    (h : (turn j start target since).take cfg s = .ok outcome t) :
    ∃ share, progress? (s.clock.now - since) cfg.motion.jointTime = .ok share ∧
      t.station.posture = { s.station.posture with
        joints := s.station.arm.joints.set j (j.turned start target share) } ∧
      (share = 1 ∧ outcome = .done ∨
        ∃ ticket, outcome = .waits ticket [turn j start target since]) := by
  simp only [take] at h
  rw [run_get_bind] at h
  obtain ⟨share, u, hrun, h⟩ := exists_of_bind_eq_ok h
  obtain ⟨hshare, rfl⟩ := of_lift_eq_ok hrun
  obtain ⟨_, u, hwrite, h⟩ := exists_of_bind_eq_ok h
  cases hwrite
  refine ⟨share, hshare, ?_⟩
  split at h
  · next hcomplete =>
    cases h
    rw [Scalar.one_real] at hcomplete
    exact ⟨rfl, .inl ⟨le_antisymm (progress?_le_one hshare) hcomplete, rfl⟩⟩
  · cases h
    exact ⟨rfl, .inr ⟨_, rfl⟩⟩

/-- What is left of a step aims at the same posture. -/
theorem aim_of_take {step : Step ℝ} {outcome : Outcome ℝ} (h : step.take cfg s = .ok outcome t) :
    outcome.left.foldl aim t.station.posture = step.aim s.station.posture := by
  cases step with
  | turn j start target since =>
    obtain ⟨share, -, hposture, ⟨rfl, rfl⟩ | ⟨ticket, rfl⟩⟩ := of_take_turn h
    · rw [hposture, Joint.turned_one]
      rfl
    · rw [hposture]
      show Posture.mk ((s.station.arm.joints.set j _).set j _) _ _ = _
      rw [Joints.set_set]
      rfl
  | pose q =>
    cases h
    rfl
  | preview path =>
    cases h
    rfl
  | grip mode effort =>
    cases h
    cases effort <;> rfl
  | drive vx wz =>
    simp only [take] at h
    rw [run_get_bind] at h
    obtain ⟨_, u, hset, h⟩ := exists_of_bind_eq_ok h
    cases h
    have hkept : Preserves (fun u : Scene ℝ => u.station.posture = s.station.posture)
        (Action.on Scene.station (fun scene station => { scene with station })
          (Station.setVelocities cfg.driving vx wz (some s.clock.now))) :=
      preserves_on (fun _ hu => hu)
        (Station.preserves_setVelocities (Station.lasting_posture s.station.posture) _ _ _ _)
        fun _ _ _ hu => hu
    exact hkept.of_ok hset rfl
  | light color =>
    cases h
    rfl
  | sleep seconds =>
    have hpause : Step.pause (.sleep seconds) [] s = (outcome, t) := by
      cases h
      rfl
    unfold pause at hpause
    split at hpause
    · cases hpause
      rfl
    · cases hpause
      rfl
  | reading distance =>
    cases h
    rfl
  | fail fault => cases h

end Step

/-! ### Programs -/

namespace Execution

variable {commands : List (Command ℝ)} {steps : List (Step ℝ)} {readings : List (Value ℝ)}

theorem aim_of_takeSteps {answer : List (Value ℝ) × Option (Nat × List (Step ℝ))}
    (h : takeSteps cfg steps readings s = .ok answer t) :
    (answer.2.elim [] Prod.snd).foldl Step.aim t.station.posture =
      steps.foldl Step.aim s.station.posture := by
  induction steps generalizing readings s with
  | nil =>
    cases h
    rfl
  | cons step rest ih =>
    unfold takeSteps at h
    obtain ⟨outcome, u, hstep, h⟩ := exists_of_bind_eq_ok h
    have haim := Step.aim_of_take hstep
    rw [List.foldl_cons, ← haim]
    cases outcome with
    | done => exact ih h
    | reading distance => exact ih h
    | waits ticket again =>
      cases h
      exact List.foldl_append

/-- What a stretch leaves of a program aims at the same posture. -/
theorem aim_of_run {progress : Progress ℝ}
    (h : run cfg commands steps readings s = .ok progress t)
    (hposed : ∀ c ∈ commands, c.posed = false) :
    progress.goal cfg t.station.posture = goal cfg ⟨steps, commands, readings⟩ s.station.posture := by
  induction commands generalizing steps readings s with
  | nil =>
    obtain ⟨_, _, _, hsteps, rfl⟩ | ⟨_, hsteps, rfl⟩ := exists_of_run_nil h
    · exact aim_of_takeSteps hsteps
    · exact aim_of_takeSteps hsteps
  | cons command rest ih =>
    obtain ⟨_, _, _, hsteps, rfl⟩ | ⟨handed, u, plan, hsteps, hplan, hrun⟩ := exists_of_run_cons h
    · exact congrArg (fun p => (command :: rest).foldl (Command.aim cfg) p) (aim_of_takeSteps hsteps)
    · obtain ⟨hcommand, hrest⟩ := List.forall_mem_cons.mp hposed
      rw [ih hrun hrest]
      unfold goal
      rw [Command.aim_steps? hplan hcommand, List.foldl_cons, ← aim_of_takeSteps hsteps]
      rfl

end Execution

/-! ### The last command for each part -/

namespace Command

theorem get_aim (cfg : Settings ℝ) (p : Posture ℝ) (c : Command ℝ) (j : Joint) :
    (aim cfg p c).joints.get j = ((c.angle? j).map j.clamp).getD (p.joints.get j) := by
  cases c with
  | moveJoint number angle =>
    rw [aim_moveJoint, angle?_moveJoint]
    cases Joint.numbered? number with
    | none => rfl
    | some k =>
      by_cases hkj : k = j
      · subst hkj
        rw [if_pos rfl]
        exact Joints.get_set_self _ _ _
      · rw [if_neg fun h => hkj (Option.some.inj h)]
        exact Joints.get_set_of_ne hkj _ _
  | _ => rfl

theorem mode_aim (cfg : Settings ℝ) (p : Posture ℝ) (c : Command ℝ) :
    (aim cfg p c).mode = c.mode?.getD p.mode := by
  cases c with
  | moveJoint number angle =>
    rw [aim_moveJoint]
    cases Joint.numbered? number <;> rfl
  | _ => rfl

theorem maxEffort_aim (cfg : Settings ℝ) (p : Posture ℝ) (c : Command ℝ) :
    (aim cfg p c).maxEffort = ((c.threshold? cfg).map
      fun e => Value.real (Scalar.clamp e 0 1)).getD p.maxEffort := by
  cases c with
  | moveJoint number angle =>
    rw [aim_moveJoint]
    cases Joint.numbered? number <;> rfl
  | closeGripper effort =>
    show (p.grip .closed _).maxEffort = _
    simp only [Posture.grip, Scalar.zero_real, Scalar.one_real]
  | _ => rfl

/-- What only some commands set is in the end as the last of them sets it. -/
theorem read_foldl_aim {β : Type} (read : Posture ℝ → β) (set? : Command ℝ → Option β)
    (h : ∀ p c, read (aim cfg p c) = (set? c).getD (read p)) (commands : List (Command ℝ))
    (p : Posture ℝ) :
    read (commands.foldl (aim cfg) p) = (commands.filterMap set?).getLast?.getD (read p) := by
  induction commands generalizing p with
  | nil => rfl
  | cons c rest ih =>
    rw [List.foldl_cons, ih, h]
    cases hset : set? c with
    | none => rw [List.filterMap_cons_none hset, Option.getD_none]
    | some b =>
      rw [List.filterMap_cons_some hset, List.getLast?_cons, Option.getD_some, Option.getD_some]

theorem joints_foldl_aim (cfg : Settings ℝ) (commands : List (Command ℝ)) (p : Posture ℝ)
    (j : Joint) : (commands.foldl (aim cfg) p).joints.get j =
      ((commands.filterMap (angle? j)).getLast?.map j.clamp).getD (p.joints.get j) := by
  rw [read_foldl_aim (fun p => p.joints.get j) _ (fun p c => get_aim cfg p c j),
    ← List.getLast?_map, List.map_filterMap]

theorem mode_foldl_aim (cfg : Settings ℝ) (commands : List (Command ℝ)) (p : Posture ℝ) :
    (commands.foldl (aim cfg) p).mode = (commands.filterMap mode?).getLast?.getD p.mode :=
  read_foldl_aim Posture.mode mode? (mode_aim cfg) commands p

theorem maxEffort_foldl_aim (cfg : Settings ℝ) (commands : List (Command ℝ)) (p : Posture ℝ) :
    (commands.foldl (aim cfg) p).maxEffort =
      ((commands.filterMap (threshold? cfg)).getLast?.map
        fun e => Value.real (Scalar.clamp e 0 1)).getD p.maxEffort := by
  rw [read_foldl_aim Posture.maxEffort _ (maxEffort_aim cfg), ← List.getLast?_map,
    List.map_filterMap]

end Command

end ArmRover
