import ArmRover.Proofs.Arm.Limits
import ArmRover.Proofs.Execution.Stretch
import ArmRover.Proofs.Station.Passing

/-!
# What a stretch of a program leaves

From one wait to the next, a program changes the clock only at the end, when it opens the wait
that it ends in. Its writes leave a station as time does.

* `Opening` — actions that open the wait that they tell of, and no other one,
  `Execution.opening_run` — a stretch of a program is one.
* `Station.Kept` — what the writes of programs keep, `Step.preserves_take_of` — steps preserve it;
  `Station.KeptAt`, `Step.preserves_take_at` — the same for writes at a certain time,
  `Station.kept_within` — they keep the joints within the limits.
* `Execution.preserves_run_of` — what steps preserve, `Execution.preserves_run` — the station after
  a stretch.
-/

namespace ArmRover

variable {α β γ : Type} [Scalar α]

open ArmRover.Action

/-! ### The clock -/

/-- The second clock is the first one after the wait with a ticket is opened, if there is one. -/
def Clock.Opened (c : Clock α) (ticket : Option Nat) (c' : Clock α) : Prop :=
  match ticket with
  | none => c' = c
  | some n => n = c.issued ∧ ∃ due, c' = c.register due

/-- Actions that open the wait that their answer tells of, and otherwise leave the clock alone. -/
def Opening (ticket? : β → Option Nat) (a : Action α (Scene α) β) : Prop :=
  ∀ s, match a s with
    | .ok b t => s.clock.Opened (ticket? b) t.clock
    | .error _ t => t.clock = s.clock

/-- Actions that leave the clock alone. -/
abbrev Quiet (a : Action α (Scene α) β) : Prop := Opening (fun _ => none) a

omit [Scalar α] in
theorem quiet_of_preserves {a : Action α (Scene α) β}
    (h : ∀ c, Preserves (fun s => s.clock = c) a) : Quiet a := by
  intro s
  have hs := h s.clock s rfl
  cases hrun : a s with
  | ok b t =>
    rw [hrun] at hs
    exact hs
  | error fault t =>
    rw [hrun] at hs
    exact hs

omit [Scalar α] in
theorem quiet_onStation (f : Station α → Station α) :
    Quiet (modify (·.onStation f) : Action α (Scene α) PUnit) :=
  quiet_of_preserves fun _ => preserves_modify fun _ h => h

omit [Scalar α] in
theorem opening_pure {ticket? : β → Option Nat} {b : β} (h : ticket? b = none) :
    Opening ticket? (pure b : Action α (Scene α) β) := by
  intro s
  show s.clock.Opened (ticket? b) s.clock
  rw [h]
  rfl

omit [Scalar α] in
/-- At most one of two actions in a row opens a wait. -/
theorem opening_bind {ticket? : β → Option Nat} {ticket?' : γ → Option Nat}
    {a : Action α (Scene α) β} {f : β → Action α (Scene α) γ} (ha : Opening ticket? a)
    (hf : ∀ b, ticket? b = none → Opening ticket?' (f b))
    (htell : ∀ b n, ticket? b = some n → ∃ c, f b = pure c ∧ ticket?' c = some n) :
    Opening ticket?' (a >>= f) := by
  intro s
  have hs := ha s
  cases hrun : a s with
  | error fault t =>
    rw [hrun] at hs
    rw [run_bind_error hrun]
    exact hs
  | ok b t =>
    rw [hrun] at hs
    rw [run_bind hrun]
    cases hb : ticket? b with
    | none =>
      have hclock : t.clock = s.clock := by
        simp only [hb] at hs
        exact hs
      rw [← hclock]
      exact hf b hb t
    | some n =>
      -- the wait is opened already, and the second action only tells of it
      obtain ⟨c, hc, hn⟩ := htell b n hb
      rw [hc]
      show s.clock.Opened (ticket?' c) t.clock
      rw [hn, ← hb]
      exact hs

omit [Scalar α] in
theorem opening_quiet_bind {ticket? : γ → Option Nat} {a : Action α (Scene α) β}
    {f : β → Action α (Scene α) γ} (ha : Quiet a) (hf : ∀ b, Opening ticket? (f b)) :
    Opening ticket? (a >>= f) :=
  opening_bind ha (fun b _ => hf b) fun _ _ h => by cases h

omit [Scalar α] in
/-- Opening a wait takes no time. -/
theorem preserves_now {ticket? : β → Option Nat} {a : Action α (Scene α) β}
    (ha : Opening ticket? a) (now : α) : Preserves (fun s => s.clock.now = now) a := by
  intro s hs
  have hopened := ha s
  cases hrun : a s with
  | error fault t =>
    rw [hrun] at hopened
    exact (congrArg Clock.now hopened).trans hs
  | ok b t =>
    rw [hrun] at hopened
    show t.clock.now = now
    cases hb : ticket? b with
    | none =>
      simp only [hb] at hopened
      exact (congrArg Clock.now hopened).trans hs
    | some n =>
      simp only [hb] at hopened
      obtain ⟨-, due, hclock⟩ := hopened
      rw [hclock]
      exact hs

/-- The wait that a step ends in. -/
def Step.Outcome.ticket? : Step.Outcome α → Option Nat
  | waits ticket _ => some ticket
  | _ => none

/-- The wait that a stretch of a program ends in. -/
def Progress.ticket? : Progress α → Option Nat
  | waiting ticket _ => some ticket
  | done _ => none

theorem Step.opening_pause (p : Pause α) (again : List (Step α)) :
    Opening Outcome.ticket? (modifyGet (Step.pause p again)) := by
  intro s
  show s.clock.Opened (Step.pause p again s).1.ticket? (Step.pause p again s).2.clock
  unfold Step.pause
  cases s.clock.dueAfter p with
  | none => rfl
  | some due => exact ⟨rfl, due, rfl⟩

omit [Scalar α] in
theorem Step.opening_write (f : Station α → Station α) : Opening Outcome.ticket? (Step.write f) :=
  opening_quiet_bind (quiet_onStation f) fun _ => opening_pure rfl

theorem Step.opening_take (cfg : Settings α) (step : Step α) :
    Opening Outcome.ticket? (step.take cfg) := by
  cases step with
  | turn j start target since =>
    unfold Step.take
    refine opening_quiet_bind (quiet_of_preserves fun _ => preserves_get) fun s => ?_
    refine opening_quiet_bind (quiet_of_preserves fun _ => preserves_lift _) fun progress => ?_
    refine opening_quiet_bind (quiet_onStation _) fun _ => ?_
    split
    · exact opening_pure rfl
    · exact opening_pause _ _
  | pose q => exact opening_write _
  | preview path => exact opening_write _
  | grip mode effort => exact opening_write _
  | drive vx wz =>
    unfold Step.take
    refine opening_quiet_bind (quiet_of_preserves fun _ => preserves_get) fun s => ?_
    refine opening_quiet_bind (quiet_of_preserves fun c => ?_) fun _ => opening_pure rfl
    exact preserves_on (V := fun _ => True) (fun _ _ => trivial) (fun _ _ => trivial)
      fun _ _ h _ => h
  | light color => exact opening_write _
  | sleep seconds => exact opening_pause _ _
  | reading distance => exact opening_pure rfl
  | fail fault =>
    intro s
    rfl

namespace Execution

theorem opening_takeSteps (cfg : Settings α) (steps : List (Step α)) (readings : List (Value α)) :
    Opening (fun answer => answer.2.map Prod.fst) (takeSteps cfg steps readings) := by
  induction steps generalizing readings with
  | nil => exact opening_pure rfl
  | cons step rest ih =>
    unfold takeSteps
    -- a step that waits is the last one of the stretch
    refine opening_bind (Step.opening_take cfg step) (fun outcome houtcome => ?_)
      fun outcome n houtcome => ?_
    · cases outcome with
      | done => exact ih readings
      | reading distance => exact ih (readings ++ [distance])
      | waits ticket again => cases houtcome
    · cases outcome with
      | done => cases houtcome
      | reading distance => cases houtcome
      | waits ticket again => exact ⟨_, rfl, houtcome⟩

/-- A stretch of a program opens the wait that it ends in. -/
theorem opening_run (cfg : Settings α) (commands : List (Command α)) (steps : List (Step α))
    (readings : List (Value α)) : Opening Progress.ticket? (run cfg commands steps readings) := by
  induction commands generalizing steps readings with
  | nil =>
    unfold run
    refine opening_bind (opening_takeSteps cfg steps readings) ?_ ?_
    · rintro ⟨readings, _ | wait⟩ hwait
      · exact opening_pure rfl
      · cases hwait
    · rintro ⟨readings, _ | wait⟩ n hwait
      · cases hwait
      · exact ⟨_, rfl, hwait⟩
  | cons c rest ih =>
    unfold run
    refine opening_bind (opening_takeSteps cfg steps readings) ?_ ?_
    · rintro ⟨readings, _ | wait⟩ hwait
      · refine opening_quiet_bind (quiet_of_preserves fun _ => preserves_get) fun s => ?_
        refine opening_quiet_bind (quiet_of_preserves fun _ => preserves_lift _) fun steps => ?_
        exact ih steps readings
      · cases hwait
    · rintro ⟨readings, _ | wait⟩ n hwait
      · cases hwait
      · exact ⟨_, rfl, hwait⟩

theorem opening_begin (cfg : Settings α) (commands : List (Command α)) :
    Opening Progress.ticket? (begin cfg commands) := by
  unfold begin
  refine opening_quiet_bind (quiet_of_preserves fun _ => preserves_get) fun s => ?_
  exact opening_quiet_bind (quiet_onStation _) fun _ => opening_run cfg _ _ _

end Execution

/-! ### The station -/

/-- A property of the station that the writes of programs keep. -/
structure Station.Kept (cfg : Settings α) (P : Station α → Prop) : Prop where
  turned (s : Station α) (j : Joint) (angle : α) : P s → P (s.setJoint j angle)
  posed (s : Station α) (q : Joints α) : P s → P (s.setJoints q)
  previewed (s : Station α) (path : Option (List (Point α))) : P s → P (s.setPreview path)
  gripped (s : Station α) (mode : Gripper.Mode) (maxEffort : Option α) : P s →
    P (s.setGripper mode maxEffort)
  driven (vx wz : α) (time : Option α) :
    Preserves P (Station.setVelocities cfg.driving vx wz time)
  lit (s : Station α) (color : String) : P s → P (s.setColor color)

/-- A property of the station that the writes of programs keep at a certain time. -/
structure Station.KeptAt (cfg : Settings α) (now : α) (P : Station α → Prop) : Prop where
  turned (s : Station α) (j : Joint) (angle : α) : P s → P (s.setJoint j angle)
  posed (s : Station α) (q : Joints α) : P s → P (s.setJoints q)
  previewed (s : Station α) (path : Option (List (Point α))) : P s → P (s.setPreview path)
  gripped (s : Station α) (mode : Gripper.Mode) (maxEffort : Option α) : P s →
    P (s.setGripper mode maxEffort)
  driven (vx wz : α) : Preserves P (Station.setVelocities cfg.driving vx wz (some now))
  lit (s : Station α) (color : String) : P s → P (s.setColor color)

theorem Station.Kept.at {cfg : Settings α} {P : Station α → Prop} (h : Kept cfg P) (now : α) :
    KeptAt cfg now P :=
  ⟨h.turned, h.posed, h.previewed, h.gripped, fun vx wz => h.driven vx wz (some now), h.lit⟩

namespace Step

variable {P : Station α → Prop}

variable {now : α}

omit [Scalar α] in
theorem preserves_write {f : Station α → Station α} (hf : ∀ s, P s → P (f s)) :
    Preserves (fun s : Scene α => s.clock.now = now ∧ P s.station) (write f) :=
  preserves_bind (preserves_modify fun s h => ⟨h.1, hf s.station h.2⟩) fun _ => preserves_pure _

theorem preserves_pause (p : Pause α) (again : List (Step α)) :
    Preserves (fun s : Scene α => s.clock.now = now ∧ P s.station)
      (modifyGet (pause p again) : Action α (Scene α) (Outcome α)) := by
  refine preserves_modifyGet fun s h => ?_
  unfold pause
  split <;> exact h

/-- What the writes of programs keep at a time, every step at that time preserves. No step takes
time. -/
theorem preserves_take_at {cfg : Settings α} (hP : Station.KeptAt cfg now P) (step : Step α) :
    Preserves (fun s : Scene α => s.clock.now = now ∧ P s.station) (step.take cfg) := by
  cases step with
  | turn j start target since =>
    unfold take
    refine preserves_bind preserves_get fun s => ?_
    refine preserves_bind (preserves_lift _) fun progress => ?_
    refine preserves_bind
      (preserves_modify fun s h => ⟨h.1, hP.turned s.station j _ h.2⟩) fun _ => ?_
    split
    · exact preserves_pure _
    · exact preserves_pause _ _
  | pose q => exact preserves_write fun s => hP.posed s q
  | preview path => exact preserves_write fun s => hP.previewed s path
  | grip mode effort => exact preserves_write fun s => hP.gripped s mode effort
  | drive vx wz =>
    -- the time of the command is the time at which the step is taken
    refine preserves_get_bind fun s hs => ?_
    rw [hs.1]
    have hset : Preserves (fun s : Scene α => s.clock.now = now ∧ P s.station)
        (on Scene.station (fun scene station => { scene with station })
          (Station.setVelocities cfg.driving vx wz (some now))) :=
      preserves_on (fun _ h => h.2) (hP.driven vx wz) fun _ _ h hp => ⟨h.1, hp⟩
    exact preserves_bind hset (fun _ => preserves_pure _) s hs
  | light color => exact preserves_write fun s => hP.lit s color
  | sleep seconds => exact preserves_pause _ _
  | reading distance => exact preserves_pure _
  | fail fault => exact preserves_throw fault

/-- What the writes of programs keep, every step preserves. -/
theorem preserves_take_of {cfg : Settings α} (hP : Station.Kept cfg P) (step : Step α) :
    Preserves (fun s : Scene α => P s.station) (step.take cfg) :=
  fun s h => (preserves_take_at (hP.at s.clock.now) step s ⟨rfl, h⟩).2

end Step

variable {s₀ : Station α}

theorem Station.Aged.kept (cfg : Settings α) (s₀ : Station α) : Station.Kept cfg s₀.Aged where
  turned _ _ _ h := ⟨h.active, h.maxEffort, h.distance⟩
  posed _ _ h := ⟨h.active, h.maxEffort, h.distance⟩
  previewed _ _ h := ⟨h.active, h.maxEffort, h.distance⟩
  gripped _ mode effort h := by
    refine ⟨h.active, ?_, h.distance⟩
    cases effort with
    | none => exact h.maxEffort
    | some e => exact .inr ⟨_, rfl⟩
  driven _ _ _ := Station.preserves_setVelocities (Station.Aged.lasting s₀) _ _ _ _
  lit _ _ h := ⟨h.active, h.maxEffort, h.distance⟩

theorem Step.preserves_take (cfg : Settings α) (step : Step α) :
    Preserves (fun s : Scene α => s₀.Aged s.station) (step.take cfg) :=
  preserves_take_of (Station.Aged.kept cfg s₀) step

section Limits

variable [Scalar.Ordered α] [Joint.Ranged α]

omit [Scalar.Ordered α] [Joint.Ranged α] in
theorem Station.lasting_within :
    Station.Lasting fun s : Station α => s.arm.joints.within = true :=
  ⟨fun _ _ hjoints _ h => hjoints ▸ h, fun _ _ _ _ h => h, fun _ _ _ h => h⟩

/-- Where nothing is missing, no write brings a joint out of its limits. -/
theorem Station.kept_within (hnan : ∀ x : α, Scalar.isNaN x = false) (cfg : Settings α) :
    Station.Kept cfg fun s => s.arm.joints.within = true where
  turned _ _ _ h := Joints.within_set h (Joint.within_clamp (hnan _))
  posed _ _ _ := Joints.within_clamp fun _ => hnan _
  previewed _ _ h := h
  gripped _ _ _ h := h
  driven := preserves_setVelocities Station.lasting_within _
  lit _ _ h := h

end Limits

namespace Execution

section Preserved

variable {P : Scene α → Prop} {cfg : Settings α}

/-- What every step preserves holds after many steps, and after a stretch of a program. -/
theorem preserves_takeSteps_of (h : ∀ step : Step α, Preserves P (step.take cfg))
    (steps : List (Step α)) (readings : List (Value α)) :
    Preserves P (takeSteps cfg steps readings) := by
  induction steps generalizing readings with
  | nil => exact preserves_pure _
  | cons step rest ih =>
    unfold takeSteps
    refine preserves_bind (h step) fun outcome => ?_
    cases outcome with
    | done => exact ih readings
    | reading distance => exact ih (readings ++ [distance])
    | waits ticket again => exact preserves_pure _

theorem preserves_run_of (h : ∀ step : Step α, Preserves P (step.take cfg))
    (commands : List (Command α)) (steps : List (Step α)) (readings : List (Value α)) :
    Preserves P (run cfg commands steps readings) := by
  induction commands generalizing steps readings with
  | nil =>
    unfold run
    refine preserves_bind (preserves_takeSteps_of h steps readings) ?_
    rintro ⟨readings, _ | wait⟩
    · exact preserves_pure _
    · exact preserves_pure _
  | cons c rest ih =>
    unfold run
    refine preserves_bind (preserves_takeSteps_of h steps readings) ?_
    rintro ⟨readings, _ | wait⟩
    · refine preserves_bind preserves_get fun s => ?_
      exact preserves_bind (preserves_lift _) fun steps => ih steps readings
    · exact preserves_pure _

end Preserved

theorem preserves_run (cfg : Settings α) (commands : List (Command α)) (steps : List (Step α))
    (readings : List (Value α)) :
    Preserves (fun s : Scene α => s₀.Aged s.station) (run cfg commands steps readings) :=
  preserves_run_of (Step.preserves_take cfg) commands steps readings

end Execution

end ArmRover
