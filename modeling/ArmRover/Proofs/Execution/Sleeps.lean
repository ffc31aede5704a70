import ArmRover.Proofs.Execution.Effect

/-!
# The sleeps of a program

How often a program can sleep is told by its steps and commands. Whenever it waits, the sleeps of
what is left, together with the wait if that is one, are no more than those that were ahead of it.

* `Due.sleeps` — the waits that are sleeps.
* `Step.sleeps_follow`, `Command.sleeps_steps?` — the steps of a command sleep no more often than
  the command can.
* `Scene.Parks` — opening a wait uses up a sleep, if it is one. `Step.parks_take` — steps,
  `Execution.parks_takeSteps`, `Execution.parks_run` — stretches of a program.
-/

namespace ArmRover

-- Sums start from the core library's zero, whatever algebra is imported.
attribute [local instance (high)] Zero.ofOfNat0

variable {α : Type} [Scalar α]

open ArmRover.Action

/-! ### The steps of a command -/

namespace Step

omit [Scalar α] in
theorem follow_cons (q : Joints α) (path : List (Joints α)) (seconds : α) :
    follow (q :: path) seconds = .pose q :: .sleep seconds :: follow path seconds := rfl

omit [Scalar α] in
theorem sleeps_follow (path : List (Joints α)) (seconds : α) :
    ((follow path seconds).map Execution.stepSleeps).sum = path.length := by
  induction path with
  | nil => rfl
  | cons q path ih =>
    rw [follow_cons, List.map_cons, List.map_cons, List.sum_cons, List.sum_cons, ih,
      List.length_cons]
    show 0 + (1 + path.length) = path.length + 1
    omega

omit [Scalar α] in
theorem sleeps_using {value : Except (Fault α) β} {step : β → Step α} {n : Nat}
    (h : ∀ b, Execution.stepSleeps (step b) ≤ n) : Execution.stepSleeps (Step.using value step) ≤ n := by
  cases value with
  | ok b => exact h b
  | error fault => exact Nat.zero_le n

theorem sleeps_pausing (pause : Value α) : Execution.stepSleeps (pausing pause) ≤ 1 :=
  sleeps_using fun _ => Nat.le_refl 1

theorem sleeps_toClose (cfg : Settings α) (effort : Option α) :
    ((toClose cfg effort).map Execution.stepSleeps).sum = 0 := by
  unfold toClose
  split
  · rfl
  · rfl
  · have hnone : Execution.stepSleeps
        (Step.using cfg.grip.maxEffort.numeric? fun e => .grip .closed (some e)) = 0 :=
      Nat.le_zero.mp (sleeps_using fun _ => Nat.le_refl 0)
    rw [List.map_cons, List.map_singleton, List.sum_cons, List.sum_singleton, hnone]
    rfl

/-- A path has one sleep for each of its segments, which are a whole number of them. -/
theorem sleeps_toPose? {cfg : Settings α} {target : Point α} {current : Joints α}
    {steps : List (Step α)} (h : toPose? cfg target current = .ok steps) :
    (steps.map Execution.stepSleeps).sum ≤ Execution.commandSleeps cfg (.moveToPose target) := by
  unfold toPose? at h
  obtain ⟨goal, -, h⟩ := bind_eq_ok.mp h
  obtain ⟨path, hpath, h⟩ := bind_eq_ok.mp h
  obtain ⟨tips, -, h⟩ := bind_eq_ok.mp h
  obtain rfl := Except.ok.inj h
  unfold Trajectory.rows? at hpath
  obtain ⟨number, hsegments, hpath⟩ := bind_eq_ok.mp hpath
  obtain ⟨start, -, hpath⟩ := bind_eq_ok.mp hpath
  obtain ⟨finish, -, hpath⟩ := bind_eq_ok.mp hpath
  obtain ⟨n, hn, hpath⟩ := bind_eq_ok.mp hpath
  obtain rfl := Except.ok.inj hpath
  have hnumber : cfg.motion.segments.number? = .ok (.whole n) := by
    unfold Trajectory.segments? at hsegments
    obtain ⟨number', hnumber, hsegments⟩ := bind_eq_ok.mp hsegments
    obtain rfl := Except.ok.inj (of_unless_ok hsegments).2
    cases number' with
    | whole m => exact Except.ok.inj hn ▸ hnumber
    | real x => cases hn
  have hsleeps : Execution.commandSleeps cfg (.moveToPose target) = n.toNat + 1 := by
    unfold Execution.commandSleeps
    rw [hnumber]
  have hlength : (Trajectory.rows start finish n.toNat).tail.length = n.toNat := by
    rw [List.length_tail, Trajectory.length_rows, Nat.add_sub_cancel]
  have hpause := sleeps_pausing cfg.motion.previewTime
  rw [hsleeps, List.map_append, List.sum_append]
  simp only [List.map_cons, List.map_nil, List.sum_cons, List.sum_nil]
  split
  · rw [sleeps_follow, hlength]
    show 0 + n.toNat + (_ + (0 + 0)) ≤ _
    omega
  · show 0 + (0 + 0) + (_ + (0 + 0)) ≤ _
    omega

end Step

/-- The steps of a command sleep no more often than the command can. -/
theorem Command.sleeps_steps? {cfg : Settings α} {scene : Scene α} {c : Command α}
    {steps : List (Step α)} (h : c.steps? cfg scene = .ok steps) :
    (steps.map Execution.stepSleeps).sum ≤ Execution.commandSleeps cfg c := by
  cases c with
  | moveJoint number angle =>
    simp only [steps?] at h
    split at h
    · obtain rfl := Except.ok.inj h
      exact Nat.le_refl 0
    · cases h
  | openGripper =>
    obtain rfl := Except.ok.inj h
    have hpause := Step.sleeps_pausing cfg.pauses.gripper
    show 0 + (_ + 0) ≤ 1
    omega
  | closeGripper effort =>
    obtain rfl := Except.ok.inj h
    have hpause := Step.sleeps_pausing cfg.pauses.gripper
    rw [List.map_append, List.sum_append, Step.sleeps_toClose]
    show 0 + (_ + 0) ≤ 1
    omega
  | moveToPose target => exact Step.sleeps_toPose? h
  | move vx wz =>
    obtain rfl := Except.ok.inj h
    have hpause := Step.sleeps_pausing cfg.pauses.velocity
    show 0 + (_ + 0) ≤ 1
    omega
  | getDistance =>
    obtain rfl := Except.ok.inj h
    have hpause := Step.sleeps_pausing cfg.pauses.distance
    show _ + _ ≤ 1
    split
    · show _ + 0 ≤ 1
      omega
    · show _ + (0 + 0) ≤ 1
      omega
  | setLight color =>
    obtain rfl := Except.ok.inj h
    have hpause := Step.sleeps_pausing cfg.pauses.light
    show 0 + (_ + 0) ≤ 1
    omega
  | other robot kind => cases h

/-! ### Waiting uses up sleeps -/

omit [Scalar α] in
/-- A wait for a time is a sleep. -/
def Due.sleeps : Due α → Nat
  | time _ => 1
  | nextFrame => 0

/-- Between the scenes a wait was opened under a ticket. Of the sleeps that were ahead it uses up
one, if it is one, and so many are left. -/
def Scene.Parks (s t : Scene α) (ticket left ahead : Nat) : Prop :=
  ∃ due, ticket = s.clock.issued ∧ t.clock = s.clock.register due ∧ left + due.sleeps ≤ ahead

variable {cfg : Settings α} {s t : Scene α} {ticket : Nat}

/-- A step that waits uses up the sleep that it is. -/
theorem Step.parks_take {step : Step α} {again : List (Step α)}
    (h : step.take cfg s = .ok (.waits ticket again) t) :
    s.Parks t ticket (again.map Execution.stepSleeps).sum (Execution.stepSleeps step) := by
  obtain ⟨due, hticket, ht, ⟨j, start, target, since, rfl, rfl, rfl⟩ |
    ⟨seconds, deadline, rfl, rfl, rfl⟩⟩ := exists_of_take_waits h
  · exact ⟨.nextFrame, hticket, ht, Nat.le_refl 0⟩
  · exact ⟨.time deadline, hticket, ht, Nat.le_refl 1⟩

namespace Execution

variable {steps left : List (Step α)} {readings handed : List (Value α)}

theorem clock_of_take {step : Step α} {outcome : Step.Outcome α} (h : step.take cfg s = .ok outcome t)
    (houtcome : outcome.ticket? = none) : t.clock = s.clock := by
  have hopened := Step.opening_take cfg step s
  rw [h] at hopened
  dsimp only at hopened
  rw [houtcome] at hopened
  exact hopened

/-- Of steps up to one that waits, those that are done used up no sleep. -/
theorem parks_takeSteps (h : takeSteps cfg steps readings s = .ok (handed, some (ticket, left)) t) :
    s.Parks t ticket (left.map stepSleeps).sum (steps.map stepSleeps).sum := by
  induction steps generalizing readings s with
  | nil => cases h
  | cons step rest ih =>
    have hgo : ∀ {readings} {u : Scene α}, u.clock = s.clock →
        takeSteps cfg rest readings u = .ok (handed, some (ticket, left)) t →
        s.Parks t ticket (left.map stepSleeps).sum ((step :: rest).map stepSleeps).sum := by
      intro readings u hclock hrest
      obtain ⟨due, hticket, ht, hle⟩ := ih hrest
      refine ⟨due, hclock ▸ hticket, hclock ▸ ht, ?_⟩
      rw [List.map_cons, List.sum_cons]
      omega
    unfold takeSteps at h
    obtain ⟨outcome, u, htake, h⟩ := exists_of_bind_eq_ok h
    cases outcome with
    | done => exact hgo (clock_of_take htake rfl) h
    | reading distance => exact hgo (clock_of_take htake rfl) h
    | waits ticket' again =>
      cases h
      obtain ⟨due, hticket, ht, hle⟩ := Step.parks_take htake
      refine ⟨due, hticket, ht, ?_⟩
      rw [List.map_append, List.sum_append, List.map_cons, List.sum_cons]
      omega

theorem clock_of_takeSteps (h : takeSteps cfg steps readings s = .ok (handed, none) t) :
    t.clock = s.clock := by
  have hopened := opening_takeSteps cfg steps readings s
  rw [h] at hopened
  exact hopened

/-- What is left of a stretch of a program that waits can sleep no more often than the steps and the
commands before it could, the wait included. -/
theorem parks_run {commands : List (Command α)} {rest : Execution α}
    (h : run cfg commands steps readings s = .ok (.waiting ticket rest) t) :
    s.Parks t ticket (rest.sleepsLeft cfg)
      ((steps.map stepSleeps).sum + commandsSleeps cfg commands) := by
  induction commands generalizing steps readings s with
  | nil =>
    obtain ⟨handed, ticket', left, hsteps, hprogress⟩ | ⟨_, -, hprogress⟩ := exists_of_run_nil h
    · cases hprogress
      obtain ⟨due, hticket, ht, hle⟩ := parks_takeSteps hsteps
      refine ⟨due, hticket, ht, ?_⟩
      show (left.map stepSleeps).sum + commandsSleeps cfg [] + _ ≤ _
      omega
    · cases hprogress
  | cons command commands ih =>
    obtain ⟨handed, ticket', left, hsteps, hprogress⟩ | ⟨handed, u, plan, hsteps, hplan, hrun⟩ :=
      exists_of_run_cons h
    · cases hprogress
      obtain ⟨due, hticket, ht, hle⟩ := parks_takeSteps hsteps
      refine ⟨due, hticket, ht, ?_⟩
      show (left.map stepSleeps).sum + commandsSleeps cfg (command :: commands) + _ ≤ _
      omega
    · obtain ⟨due, hticket, ht, hle⟩ := ih hrun
      have hclock := clock_of_takeSteps hsteps
      refine ⟨due, hclock ▸ hticket, hclock ▸ ht, ?_⟩
      have hcommand := Command.sleeps_steps? hplan
      have hcons : commandsSleeps cfg (command :: commands) =
          commandSleeps cfg command + commandsSleeps cfg commands := by
        unfold commandsSleeps
        rw [List.map_cons, List.sum_cons]
      rw [hcons]
      omega

end Execution

end ArmRover
