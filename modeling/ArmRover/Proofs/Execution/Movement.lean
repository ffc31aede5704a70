import ArmRover.Proofs.Execution.Effect
import ArmRover.Proofs.Execution.Preview
import ArmRover.Proofs.Execution.Sights

/-!
# A movement of the tip, step by step

The joints and the path that is shown are seen when a command begins and after each of its steps.
While the tip is brought to a point, what is seen are the configurations of the way there, one after
the other, each of them twice, since it is held for a while, with one and the same path; it is shown
before the first of them, and taken away after the last.

* `Step.outlined` — what is seen after a step of a movement, `Step.exists_takeSteps_of_moves` — as
  far as a stretch comes.
* `Outline.along` — what is seen along a way, `Step.scanl_along` — it is what its steps show.
* `Movement` — a movement of the tip in a program, `Movement.Whole` — all that is seen of it,
  `Movement.Begun` — some of it, `Movement.Course` — how far a program has come with it,
  `Movement.Course.told` — which is seen.
* `Movement.reached_run` — how far a program comes with a movement in a stretch, also if that fails.
-/

namespace ArmRover

open ArmRover.Action

/-! ### Steps of a movement -/

namespace Step

variable {α : Type} [Scalar α]

/-- What is seen of the arm after a step of a movement. -/
def outlined (o : Outline α) : Step α → Outline α
  | .pose q => ⟨q.clamp, o.preview⟩
  | .preview path => ⟨o.joints, path⟩
  | _ => o

theorem scanl_outlined_eq_cons (o : Outline α) (steps : List (Step α)) :
    steps.scanl outlined o = o :: (steps.scanl outlined o).tail := by
  cases steps with
  | nil => rfl
  | cons step rest => rw [List.scanl_cons, List.tail_cons]

/-- The steps that movements of the tip are made of. -/
def Moves {α : Type} : Step α → Prop
  | .pose _ | .preview _ | .sleep _ => True
  | _ => False

/-- A step of a movement never fails, and it is not taken again after a wait. -/
theorem exists_take_of_moves (cfg : Settings α) {step : Step α} (h : step.Moves) (s : Scene α) :
    ∃ outcome t, step.take cfg s = .ok outcome t ∧
      t.station.outline = outlined s.station.outline step ∧
      (outcome = .done ∨ ∃ ticket, outcome = .waits ticket []) := by
  cases step with
  | pose q => exact ⟨.done, s.onStation (·.setJoints q), rfl, rfl, .inl rfl⟩
  | preview path => exact ⟨.done, s.onStation (·.setPreview path), rfl, rfl, .inl rfl⟩
  | sleep seconds =>
    refine ⟨(pause (.sleep seconds) [] s).1, (pause (.sleep seconds) [] s).2, rfl, ?_, ?_⟩
    · unfold pause
      split <;> rfl
    · unfold pause
      split
      · exact .inl rfl
      · exact .inr ⟨_, rfl⟩
  | _ => exact absurd h id

open Execution in
/-- A stretch takes some of the steps of a movement, and shows what these show. The others are left
after a wait. -/
theorem exists_takeSteps_of_moves (cfg : Settings α) {steps : List (Step α)}
    (h : ∀ step ∈ steps, step.Moves) (readings : List (Value α)) (s : Scene α) :
    ∃ taken left wait t, steps = taken ++ left ∧
      takeSteps cfg steps readings s = .ok (readings, wait) t ∧
      views Station.outline cfg steps s = (taken.scanl outlined s.station.outline).tail ∧
      t.station.outline = taken.foldl outlined s.station.outline ∧
      (wait = none ∧ left = [] ∨ ∃ ticket, wait = some (ticket, left)) := by
  induction steps generalizing s with
  | nil => exact ⟨[], [], none, s, rfl, rfl, rfl, rfl, .inl ⟨rfl, rfl⟩⟩
  | cons step rest ih =>
    obtain ⟨hstep, hrest⟩ := List.forall_mem_cons.mp h
    obtain ⟨outcome, u, htake, hseen, rfl | ⟨ticket, rfl⟩⟩ := exists_take_of_moves cfg hstep s
    · obtain ⟨taken, left, wait, t, hsplit, hsteps, hviews, hlast, hwait⟩ := ih hrest u
      rw [hseen] at hviews hlast
      refine ⟨step :: taken, left, wait, t, congrArg (step :: ·) hsplit,
        (takeSteps_done htake).trans hsteps, ?_, hlast, hwait⟩
      unfold views
      rw [htake, List.scanl_cons, List.tail_cons]
      dsimp only
      rw [hviews, hseen]
      exact (scanl_outlined_eq_cons _ taken).symm
    · refine ⟨[step], rest, some (ticket, rest), u, rfl, takeSteps_waits htake, ?_, hseen,
        .inr ⟨ticket, rfl⟩⟩
      unfold views
      rw [htake, List.scanl_cons, List.tail_cons, List.scanl_nil]
      exact congrArg (fun o => [o]) hseen

end Step

/-! ### Along a way -/

/-- What is seen of an arm that goes a way to a goal. -/
noncomputable def Outline.along (begin : Outline ℝ) (goal : Joints ℝ) (way : List (Joints ℝ)) :
    List (Outline ℝ) :=
  let path := some (Trajectory.tips (begin.joints :: way))
  [begin, ⟨begin.joints, path⟩] ++ way.flatMap (fun q => [⟨q, path⟩, ⟨q, path⟩]) ++
    [⟨goal, path⟩, ⟨goal, none⟩]

namespace Step

variable {way : List (Joints ℝ)} {goal : Joints ℝ}

theorem moves_along (cfg : Settings ℝ) (start : Joints ℝ) (way : List (Joints ℝ)) :
    ∀ step ∈ along cfg start way, step.Moves := by
  refine List.forall_mem_append.mpr ⟨List.forall_mem_cons.mpr ⟨trivial, fun step hstep => ?_⟩, ?_⟩
  · obtain ⟨q, -, hstep⟩ := List.mem_flatMap.mp hstep
    rcases List.mem_pair.mp hstep with rfl | rfl
    · trivial
    · trivial
  · refine List.forall_mem_cons.mpr ⟨trivial, fun step hstep => ?_⟩
    rcases List.mem_singleton.mp hstep with rfl
    trivial

theorem outlined_pose {q : Joints ℝ} (h : q.within = true) (o : Outline ℝ) :
    outlined o (pose q) = ⟨q, o.preview⟩ :=
  congrArg (Outline.mk · o.preview) (Joints.clamp_of_within h)

/-- Each configuration is taken as it is, and held. -/
theorem scanl_follow (h : ∀ q ∈ way, q.within = true) (seconds : ℝ) (o : Outline ℝ) :
    (follow way seconds).scanl outlined o =
      o :: way.flatMap (fun q => [⟨q, o.preview⟩, ⟨q, o.preview⟩]) := by
  induction way generalizing o with
  | nil => exact List.scanl_nil
  | cons q way ih =>
    obtain ⟨hq, hway⟩ := List.forall_mem_cons.mp h
    rw [follow_cons, List.scanl_cons, List.scanl_cons, outlined_pose hq]
    exact congrArg (fun seen => o :: ⟨q, o.preview⟩ :: seen) (ih hway ⟨q, o.preview⟩)

theorem foldl_follow (h : ∀ q ∈ way, q.within = true) (seconds : ℝ) (o : Outline ℝ) :
    (follow way seconds).foldl outlined o = ⟨way.getLast?.getD o.joints, o.preview⟩ := by
  induction way generalizing o with
  | nil => rfl
  | cons q way ih =>
    obtain ⟨hq, hway⟩ := List.forall_mem_cons.mp h
    rw [follow_cons, List.foldl_cons, List.foldl_cons, outlined_pose hq, List.getLast?_cons]
    exact ih hway ⟨q, o.preview⟩

/-- What the steps along a way within the limits show. -/
theorem scanl_along (cfg : Settings ℝ) (h : ∀ q ∈ way, q.within = true)
    (hgoal : way.getLast? = some goal) (begin : Outline ℝ) :
    (along cfg begin.joints way).scanl outlined begin = begin.along goal way := by
  unfold along Outline.along
  rw [List.scanl_append, List.scanl_cons, List.foldl_cons]
  rw [scanl_follow h, foldl_follow h, hgoal]
  rfl

end Step

/-! ### Movements -/

/-- A movement of the tip to a point, in a program. -/
structure Movement where
  target : Point ℝ
  /-- The commands after it. -/
  after : List (Command ℝ)

namespace Movement

variable {movement : Movement} {cfg : Settings ℝ}

/-- All that is seen of a movement from within the limits, when it is done. -/
def Whole (movement : Movement) (cfg : Settings ℝ) (seen : List (Outline ℝ)) : Prop :=
  ∃ (begin : Outline ℝ) (goal : Joints ℝ) (way : List (Joints ℝ)), begin.joints.within = true ∧
    Arm.Way cfg movement.target begin.joints goal way ∧ seen = begin.along goal way

/-- How far a program has come with a movement, of which something may have been seen. -/
inductive Course (movement : Movement) (cfg : Settings ℝ) :
    List (Outline ℝ) → Execution ℝ → Outline ℝ → Prop where
  | ahead {rest : Execution ℝ} {o : Outline ℝ} (before : List (Command ℝ)) :
    rest.commands = before ++ .moveToPose movement.target :: movement.after →
    o.joints.within = true → Course movement cfg [] rest o
  | underway {rest : Execution ℝ} {begin : Outline ℝ} {goal : Joints ℝ} {way : List (Joints ℝ)}
    (taken : List (Step ℝ)) :
    begin.joints.within = true → Arm.Way cfg movement.target begin.joints goal way →
    Step.along cfg begin.joints way = taken ++ rest.steps → rest.commands = movement.after →
    Course movement cfg (taken.scanl Step.outlined begin) rest (taken.foldl Step.outlined begin)
  | past {rest : Execution ℝ} {o : Outline ℝ} {seen : List (Outline ℝ)} :
    rest.commands.length < movement.after.length → movement.Whole cfg seen →
    Course movement cfg seen rest o

/-- Something has been seen of a movement from within the limits, and if it is not done yet,
something holds while it is going on. -/
def Begun (movement : Movement) (cfg : Settings ℝ) (seen : List (Outline ℝ)) (going : Prop) :
    Prop :=
  ∃ (begin : Outline ℝ) (goal : Joints ℝ) (way : List (Joints ℝ)), begin.joints.within = true ∧
    Arm.Way cfg movement.target begin.joints goal way ∧ seen <+: begin.along goal way ∧
    (seen ≠ begin.along goal way → going)

section Begun

variable {seen : List (Outline ℝ)} {going going' : Prop}

theorem Begun.imp (h : movement.Begun cfg seen going) (himp : going → going') :
    movement.Begun cfg seen going' := by
  obtain ⟨begin, goal, way, hwithin, hway, hprefix, hgoing⟩ := h
  exact ⟨begin, goal, way, hwithin, hway, hprefix, fun hne => himp (hgoing hne)⟩

theorem Whole.begun (h : movement.Whole cfg seen) : movement.Begun cfg seen going := by
  obtain ⟨begin, goal, way, hwithin, hway, rfl⟩ := h
  exact ⟨begin, goal, way, hwithin, hway, List.prefix_rfl, fun hne => absurd rfl hne⟩

/-- What is seen of a movement tells how far a program has come with it. -/
theorem Course.told {rest : Execution ℝ} {o : Outline ℝ} (h : movement.Course cfg seen rest o) :
    (seen = [] ∧ ∃ more, rest.commands = more ++ .moveToPose movement.target :: movement.after) ∨
      movement.Begun cfg seen (rest.commands = movement.after ∧ seen.getLast? = some o ∧
        ∃ start way taken, Step.along cfg start way = taken ++ rest.steps) := by
  cases h with
  | ahead before hcommands _ => exact .inl ⟨rfl, before, hcommands⟩
  | @underway _ begin goal way taken hwithin hway hplan hcommands =>
    refine .inr ⟨begin, goal, way, hwithin, hway, ?_, fun _ =>
      ⟨hcommands, List.getLast?_scanl, begin.joints, way, taken, hplan⟩⟩
    rw [← Step.scanl_along cfg (hway.within hwithin) hway.getLast?, hplan, List.scanl_append]
    exact List.prefix_append _ _
  | past _ hwhole => exact .inr hwhole.begun

end Begun

/-- How far a program has come with a movement, after a stretch. A stretch may fail before the
movement, or after it. -/
def Reached (movement : Movement) (cfg : Settings ℝ) (seen : List (Outline ℝ)) :
    EStateM.Result (Fault ℝ) (Scene ℝ) (Progress ℝ) → Prop
  | .ok (.waiting _ rest) t => movement.Course cfg seen rest t.station.outline
  | .ok (.done _) _ => movement.Whole cfg seen
  | .error _ _ => seen = [] ∨ movement.Whole cfg seen

section Stretches

variable {readings : List (Value ℝ)} {s : Scene ℝ}

open Execution in
/-- A stretch goes on along the way, or comes to its end. -/
theorem reached_of_underway (begin : Outline ℝ) {goal : Joints ℝ} {way : List (Joints ℝ)}
    (taken : List (Step ℝ)) {steps : List (Step ℝ)} (hwithin : begin.joints.within = true)
    (hway : Arm.Way cfg movement.target begin.joints goal way)
    (hplan : Step.along cfg begin.joints way = taken ++ steps)
    (hseen : s.station.outline = taken.foldl Step.outlined begin) :
    movement.Reached cfg
      (taken.scanl Step.outlined begin ++ Sight.during movement.after.length
        (sights Station.outline cfg movement.after steps readings s))
      (run cfg movement.after steps readings s) := by
  have hmoves : ∀ step ∈ steps, step.Moves := fun step hstep =>
    Step.moves_along cfg begin.joints way step (hplan ▸ List.mem_append_right _ hstep)
  obtain ⟨more, left, wait, t, rfl, hsteps, hviews, hlast, hwait⟩ :=
    Step.exists_takeSteps_of_moves cfg hmoves readings s
  rw [during_length_sights, hviews, hseen, ← List.scanl_append]
  rw [hseen, ← List.foldl_append] at hlast
  rcases hwait with ⟨rfl, rfl⟩ | ⟨ticket, rfl⟩
  · -- the end of the way is reached, and the next commands begin
    have hwhole : movement.Whole cfg ((taken ++ more).scanl Step.outlined begin) := by
      refine ⟨begin, goal, way, hwithin, hway, ?_⟩
      rw [List.append_nil] at hplan
      rw [← hplan, Step.scanl_along cfg (hway.within hwithin) hway.getLast?]
    cases hrun : run cfg movement.after (more ++ []) readings s with
    | error fault u => exact .inr hwhole
    | ok progress u =>
      cases progress with
      | done handed => exact hwhole
      | waiting ticket rest => exact .past (length_lt_of_run hsteps hrun) hwhole
  · rw [run_of_wait hsteps]
    show movement.Course cfg _ _ t.station.outline
    rw [hlast]
    refine .underway (taken ++ more) hwithin hway ?_ rfl
    rw [hplan, List.append_assoc]

open Execution in
theorem within_of_takeSteps {steps : List (Step ℝ)} {t : Scene ℝ}
    {answer : List (Value ℝ) × Option (Nat × List (Step ℝ))}
    (hwithin : s.station.arm.joints.within = true)
    (h : takeSteps cfg steps readings s = .ok answer t) :
    t.station.arm.joints.within = true :=
  (preserves_takeSteps_of (Step.preserves_take_of (Station.kept_within Scalar.isNaN_real cfg))
    steps readings).of_ok h hwithin

open Execution in
/-- A stretch that waits or fails before a movement shows nothing of it. -/
theorem reached_of_stop (before : List (Command ℝ)) {commands : List (Command ℝ)} {c : Command ℝ}
    {steps : List (Step ℝ)}
    (hcommands : before ++ .moveToPose movement.target :: movement.after = c :: commands)
    (hwithin : s.station.arm.joints.within = true)
    (hstop : ∀ handed t, takeSteps cfg steps readings s ≠ .ok (handed, none) t) :
    movement.Reached cfg
      (Sight.during movement.after.length
        (sights Station.outline cfg (c :: commands) steps readings s))
      (run cfg (c :: commands) steps readings s) := by
  have hlater : movement.after.length ≤ commands.length := by
    have hlength := congrArg List.length hcommands
    rw [List.length_append, List.length_cons, List.length_cons] at hlength
    omega
  rw [during_sights_of_stop hstop hlater]
  cases hsteps : takeSteps cfg steps readings s with
  | error fault t =>
    rw [run_of_error hsteps]
    exact .inl rfl
  | ok answer t =>
    have hkept := within_of_takeSteps hwithin hsteps
    obtain ⟨handed, _ | ⟨ticket, left⟩⟩ := answer
    · exact absurd hsteps (hstop handed t)
    · rw [run_of_wait hsteps]
      exact .ahead before hcommands.symm hkept

open Execution in
/-- A stretch goes on with the commands before a movement, and may begin it. -/
theorem reached_of_ahead (hpose : cfg.motion.poseTime.IsNumber)
    (hpreview : cfg.motion.previewTime.IsNumber)
    (hserves : cfg.Serves (.moveToPose movement.target)) {before : List (Command ℝ)}
    {steps : List (Step ℝ)} (hwithin : s.station.arm.joints.within = true) :
    movement.Reached cfg
      (Sight.during movement.after.length
        (sights Station.outline cfg (before ++ .moveToPose movement.target :: movement.after) steps
          readings s))
      (run cfg (before ++ .moveToPose movement.target :: movement.after) steps readings s) := by
  induction before generalizing steps readings s with
  | nil =>
    by_cases hdone : ∃ handed u, takeSteps cfg steps readings s = .ok (handed, none) u
    · obtain ⟨handed, u, hsteps⟩ := hdone
      have hkept := within_of_takeSteps hwithin hsteps
      obtain ⟨goal, way, hway⟩ := Step.exists_way_of_serves hserves u.station.arm.joints
      have hplan : Command.steps? cfg u (.moveToPose movement.target) =
          .ok (Step.along cfg u.station.arm.joints way) := Step.toPose?_of_way hpose hpreview hway
      rw [List.nil_append, during_sights_of_command hsteps hplan (Nat.le_refl _),
        Sight.during_cons_self, run_of_done hsteps, run_command hplan]
      exact reached_of_underway u.station.outline [] hkept hway rfl rfl
    · exact reached_of_stop [] rfl hwithin fun handed u hsteps => hdone ⟨handed, u, hsteps⟩
  | cons c before ih =>
    by_cases hdone : ∃ handed u, takeSteps cfg steps readings s = .ok (handed, none) u
    · obtain ⟨handed, u, hsteps⟩ := hdone
      have hkept := within_of_takeSteps hwithin hsteps
      have hlater : movement.after.length <
          (before ++ .moveToPose movement.target :: movement.after).length := by
        rw [List.length_append, List.length_cons]
        omega
      rw [List.cons_append, run_of_done hsteps]
      cases hplan : c.steps? cfg u with
      | error fault =>
        rw [during_sights_of_no_steps hsteps hplan hlater, run_no_steps hplan]
        exact .inl rfl
      | ok plan =>
        rw [during_sights_of_command hsteps hplan hlater.le, Sight.during_cons_of_ne hlater.ne',
          run_command hplan]
        exact ih hkept
    · exact reached_of_stop (c :: before) rfl hwithin fun handed u hsteps =>
        hdone ⟨handed, u, hsteps⟩

open Execution in
/-- A stretch of a program goes on with a movement, wherever it stands. -/
theorem reached_run (hpose : cfg.motion.poseTime.IsNumber)
    (hpreview : cfg.motion.previewTime.IsNumber)
    (hserves : cfg.Serves (.moveToPose movement.target)) {rest : Execution ℝ}
    {seen : List (Outline ℝ)} (h : movement.Course cfg seen rest s.station.outline) :
    movement.Reached cfg
      (seen ++ Sight.during movement.after.length
        (sights Station.outline cfg rest.commands rest.steps rest.readings s))
      (run cfg rest.commands rest.steps rest.readings s) := by
  generalize ho : s.station.outline = o at h
  cases h with
  | ahead before hcommands hwithin =>
    rw [hcommands]
    subst ho
    exact reached_of_ahead hpose hpreview hserves hwithin
  | underway taken hwithin hway hplan hcommands =>
    rw [hcommands]
    exact reached_of_underway _ taken hwithin hway hplan ho
  | past hlength hwhole =>
    rw [during_sights_of_lt hlength, List.append_nil]
    cases hrun : run cfg rest.commands rest.steps rest.readings s with
    | error fault t => exact .inr hwhole
    | ok progress t =>
      cases progress with
      | done handed => exact hwhole
      | waiting ticket left => exact .past ((suffix_of_run hrun).length_le.trans_lt hlength) hwhole

end Stretches

end Movement

end ArmRover
