import ArmRover.Proofs.Execution.Effect
import ArmRover.Proofs.Execution.Plan
import ArmRover.Proofs.Station.Distance

/-!
# What a stretch of a program hands out

The readings of a program are those that it has handed out and those that its steps still hold. A
stretch adds the distance that is stored when a command for it begins, and never writes to it: no
step moves the rover, stores a distance, or makes a sensor look.

* `Step.preserves_outlook` — a step, `Execution.of_mem_begun` — the scenes in which commands begin.
* `Execution.account` — the readings of what is left of a program, `Progress.account` — and of how
  far it has come.
* `Execution.account_run` — what a stretch adds.
-/

namespace ArmRover

open ArmRover.Action

/-! ### What a stretch leaves alone -/

section Outlook

variable {α : Type} [Scalar α]

theorem Station.kept_outlook (cfg : Settings α)
    (outlook : (Vantage α × α) × Value α × Option α) :
    Station.Kept cfg fun s => s.outlook = outlook where
  turned _ _ _ h := h
  posed _ _ h := h
  previewed _ _ h := h
  gripped _ _ _ h := h
  driven vx wz time := by
    unfold setVelocities
    refine preserves_bind (preserves_lift _) fun vx => ?_
    refine preserves_bind (preserves_modify fun _ h => h) fun _ => ?_
    refine preserves_bind (preserves_lift _) fun wz => ?_
    exact preserves_modify fun _ h => h
  lit _ _ h := h

theorem Step.preserves_outlook (cfg : Settings α) (step : Step α)
    (outlook : (Vantage α × α) × Value α × Option α) :
    Preserves (fun s : Scene α => s.station.outlook = outlook) (step.take cfg) :=
  preserves_take_of (Station.kept_outlook cfg outlook) step

/-- Each command begins in a scene with what every step preserves. -/
theorem Execution.of_mem_begun {P : Scene α → Prop} {cfg : Settings α}
    (h : ∀ step : Step α, Preserves P (step.take cfg)) {commands : List (Command α)}
    {steps : List (Step α)} {readings : List (Value α)} {s : Scene α} (hs : P s) :
    ∀ entry ∈ begun cfg commands steps readings s, P entry.2 := by
  induction commands generalizing steps readings s with
  | nil => exact List.forall_mem_nil _
  | cons command rest ih =>
    have hend := preserves_takeSteps_of h steps readings s hs
    unfold begun
    split
    · next hrun =>
      rw [hrun] at hend
      refine List.forall_mem_cons.mpr ⟨hend, ?_⟩
      split
      · exact ih hend
      · exact List.forall_mem_nil _
    · exact List.forall_mem_nil _

end Outlook

/-! ### Readings -/

/-- The readings that a program has handed out, and those that its steps still hold. -/
def Execution.account (rest : Execution ℝ) : List (Value ℝ) :=
  rest.readings ++ rest.steps.filterMap Step.reading?

/-- The readings of a program, as far as it has come. -/
def Progress.account : Progress ℝ → List (Value ℝ)
  | waiting _ rest => rest.account
  | done readings => readings

variable {cfg : Settings ℝ} {s t : Scene ℝ}

namespace Step

theorem reading?_pausing (pause : Value ℝ) : (pausing pause).reading? = none := by
  unfold pausing Step.using
  split <;> rfl

/-- What a step hands out at once, and what it holds back for the time after a wait. -/
def Outcome.Hands (step : Step ℝ) : Outcome ℝ → Prop
  | .done => step.reading? = none
  | .reading distance => step.reading? = some distance
  | .waits _ again => step.reading? = none ∧ again.filterMap reading? = []

theorem hands_pause (p : Pause ℝ) {step : Step ℝ} {again : List (Step ℝ)} {outcome : Outcome ℝ}
    (hstep : step.reading? = none) (hagain : again.filterMap reading? = [])
    (h : (modifyGet (pause p again) : Action ℝ (Scene ℝ) (Outcome ℝ)) s = .ok outcome t) :
    outcome.Hands step := by
  have hpause : (pause p again s).1 = outcome := by
    cases h
    rfl
  unfold pause at hpause
  split at hpause
  · rw [← hpause]
    exact hstep
  · rw [← hpause]
    exact ⟨hstep, hagain⟩

theorem hands_take {step : Step ℝ} {outcome : Outcome ℝ} (h : step.take cfg s = .ok outcome t) :
    outcome.Hands step := by
  have hwrite : ∀ {f : Station ℝ → Station ℝ}, (write f : Action ℝ (Scene ℝ) _) s = .ok outcome t →
      outcome = .done := by
    intro f hrun
    cases hrun
    rfl
  cases step with
  | turn j start target since =>
    simp only [take] at h
    rw [run_get_bind] at h
    obtain ⟨progress, _, -, h⟩ := exists_of_bind_eq_ok h
    obtain ⟨_, u, -, h⟩ := exists_of_bind_eq_ok h
    split at h
    · cases h
      rfl
    · exact hands_pause .nextFrame rfl rfl h
  | pose q => rw [hwrite h]; rfl
  | preview path => rw [hwrite h]; rfl
  | grip mode effort => rw [hwrite h]; rfl
  | drive vx wz =>
    simp only [take] at h
    rw [run_get_bind] at h
    obtain ⟨_, _, -, h⟩ := exists_of_bind_eq_ok h
    cases h
    rfl
  | light color => rw [hwrite h]; rfl
  | sleep seconds => exact hands_pause (.sleep seconds) rfl rfl h
  | reading distance =>
    cases h
    rfl
  | fail fault => cases h

end Step

/-- What a command holds when it begins, with a distance that is stored, is its reading. -/
theorem Command.readings_steps? {c : Command ℝ} {steps : List (Step ℝ)}
    (h : c.steps? cfg s = .ok steps) (hstored : s.station.rover.distance ≠ .null) :
    steps.filterMap Step.reading? = (c.reading? s).toList := by
  have hpausing : ∀ (pause : Value ℝ) (rest : List (Step ℝ)),
      (Step.pausing pause :: rest).filterMap Step.reading? = rest.filterMap Step.reading? :=
    fun pause rest => List.filterMap_cons_none (Step.reading?_pausing pause)
  cases c with
  | moveJoint number angle =>
    simp only [steps?] at h
    split at h
    · cases h
      rfl
    · cases h
  | openGripper =>
    cases h
    exact hpausing _ _
  | closeGripper effort =>
    cases h
    rw [List.filterMap_append, hpausing]
    unfold Step.toClose
    split
    · rfl
    · rfl
    · cases cfg.grip.maxEffort.numeric? <;> rfl
  | moveToPose target =>
    obtain ⟨goal, -, h⟩ := Action.bind_eq_ok.mp h
    obtain ⟨path, -, h⟩ := Action.bind_eq_ok.mp h
    obtain ⟨tips, -, h⟩ := Action.bind_eq_ok.mp h
    cases h
    rw [List.filterMap_append, hpausing]
    cases Step.share? cfg.motion.poseTime (path.length - 1) with
    | ok seconds => exact congrArg (· ++ []) (Step.readings_follow path.tail seconds)
    | error fault => rfl
  | move vx wz =>
    cases h
    exact hpausing _ _
  | getDistance =>
    cases h
    rw [hpausing]
    split
    · next hnull => exact absurd hnull hstored
    · rfl
  | setLight color =>
    cases h
    exact hpausing _ _
  | other robot kind => cases h

namespace Execution

/-- Steps that are taken move readings from what they hold to what is handed out. -/
theorem account_takeSteps {steps : List (Step ℝ)} {readings : List (Value ℝ)}
    {answer : List (Value ℝ) × Option (Nat × List (Step ℝ))}
    (h : takeSteps cfg steps readings s = .ok answer t) :
    answer.1 ++ (answer.2.elim [] Prod.snd).filterMap Step.reading? =
      readings ++ steps.filterMap Step.reading? := by
  induction steps generalizing readings s with
  | nil =>
    cases h
    rfl
  | cons step rest ih =>
    unfold takeSteps at h
    obtain ⟨outcome, u, hstep, h⟩ := exists_of_bind_eq_ok h
    have hhands := Step.hands_take hstep
    cases outcome with
    | done => rw [ih h, List.filterMap_cons_none hhands]
    | reading distance =>
      rw [ih h, List.filterMap_cons_some hhands, List.append_assoc, List.singleton_append]
    | waits ticket again =>
      cases h
      show readings ++ (again ++ rest).filterMap Step.reading? = _
      rw [List.filterMap_append, hhands.2, List.nil_append, List.filterMap_cons_none hhands.1]

/-- A stretch adds the readings of the commands that begin in it. -/
theorem account_run {commands : List (Command ℝ)} {steps : List (Step ℝ)}
    {readings : List (Value ℝ)} {progress : Progress ℝ}
    (h : run cfg commands steps readings s = .ok progress t)
    (hstored : s.station.rover.distance ≠ .null) :
    progress.account = readings ++ steps.filterMap Step.reading? ++
      Command.readings (begun cfg commands steps readings s) := by
  induction commands generalizing steps readings s with
  | nil =>
    obtain ⟨_, _, _, hsteps, rfl⟩ | ⟨_, hsteps, rfl⟩ := exists_of_run_nil h
    · rw [← account_takeSteps hsteps]
      exact (List.append_nil _).symm
    · rw [← account_takeSteps hsteps]
      exact ((List.append_nil _).trans (List.append_nil _)).symm
  | cons command rest ih =>
    obtain ⟨_, _, _, hsteps, rfl⟩ | ⟨handed, u, plan, hsteps, hplan, hrun⟩ := exists_of_run_cons h
    · have hbegun : begun cfg (command :: rest) steps readings s = [] := by
        rw [begun, hsteps]
      rw [← account_takeSteps hsteps, hbegun]
      exact (List.append_nil _).symm
    · -- the steps before the command have left the stored distance alone
      have houtlook := (preserves_takeSteps_of
        (fun step => step.preserves_outlook cfg s.station.outlook) steps readings).of_ok hsteps rfl
      have hstored' : u.station.rover.distance ≠ .null := by
        rw [(Prod.mk.inj (Prod.mk.inj houtlook).2).1]
        exact hstored
      rw [ih hrun hstored', Command.readings_steps? hplan hstored', ← account_takeSteps hsteps]
      have hbegun : begun cfg (command :: rest) steps readings s =
          (command, u) :: begun cfg rest plan handed u := by
        rw [begun, hsteps]
        show (command, u) :: _ = _
        rw [hplan]
      rw [hbegun, Command.readings_cons, List.append_assoc, List.append_assoc]
      rfl

end Execution

end ArmRover
