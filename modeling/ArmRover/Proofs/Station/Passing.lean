import ArmRover.Arm.Feedback
import ArmRover.Proofs.Action
import ArmRover.Rover.Drive
import ArmRover.Rover.Sensors

/-!
# What time does to a station

While time passes, the robots move and the sensors look, but the active robot stays the same one,
also when a fault stops a part of it. The effort threshold of the gripper and the distance that
was last read, which come from the settings at first, change only to numbers.

* `Station.Aged` — a station some time after another one.
* `Station.LastingArm`, `Station.Steered` — properties of the station that outlast any movement of
  the arm, or of the rover, `Station.Lasting` — of either, whatever the rover does.
* `Feedback.preserves_advance_of`, `Drive.preserves_advance_of` — the robots preserve those
  properties.
* `Sensors.preserves_refresh` — what the sensors preserve, `Sensors.preserves_aged_refresh` — they
  lead to a station some time later.
-/

namespace ArmRover

variable {α : Type}

/-- The second station is the first one some time later, and no robot has been brought home. -/
structure Station.Aged (s t : Station α) : Prop where
  active : t.active = s.active
  maxEffort : t.gripper.maxEffort = s.gripper.maxEffort ∨ ∃ e, t.gripper.maxEffort = .real e
  distance : t.rover.distance = s.rover.distance ∨ ∃ d, t.rover.distance = .real d

namespace Station.Aged

theorem refl (s : Station α) : s.Aged s := ⟨rfl, .inl rfl, .inl rfl⟩

theorem trans {s t u : Station α} (hst : s.Aged t) (htu : t.Aged u) : s.Aged u where
  active := htu.active.trans hst.active
  maxEffort := by
    rcases htu.maxEffort with h | h
    · exact h ▸ hst.maxEffort
    · exact .inr h
  distance := by
    rcases htu.distance with h | h
    · exact h ▸ hst.distance
    · exact .inr h

end Station.Aged

/-- A property of the station that outlasts any movement of the robots: whatever becomes of the arm
with the same joints and the same path, of the gripper in the same mode and with the same threshold,
and of the rover with the same reading. -/
structure Station.Lasting (P : Station α → Prop) : Prop where
  arm (s : Station α) (arm : Arm α) : arm.joints = s.arm.joints →
    arm.preview = s.arm.preview → P s → P { s with arm }
  gripper (s : Station α) (gripper : Gripper α) : gripper.mode = s.gripper.mode →
    gripper.maxEffort = s.gripper.maxEffort → P s → P { s with gripper }
  rover (s : Station α) (rover : Rover α) :
    rover.distance = s.rover.distance → P s → P { s with rover }

theorem Station.Aged.lasting (s₀ : Station α) : Station.Lasting s₀.Aged where
  arm _ _ _ _ h := ⟨h.active, h.maxEffort, h.distance⟩
  gripper _ _ _ heffort h := ⟨h.active, heffort ▸ h.maxEffort, h.distance⟩
  rover _ _ hdistance h := ⟨h.active, h.maxEffort, hdistance ▸ h.distance⟩

/-- A property of the station that outlasts any movement of the arm. -/
structure Station.LastingArm (P : Station α → Prop) : Prop where
  arm (s : Station α) (arm : Arm α) : arm.joints = s.arm.joints →
    arm.preview = s.arm.preview → P s → P { s with arm }
  gripper (s : Station α) (gripper : Gripper α) : gripper.mode = s.gripper.mode →
    gripper.maxEffort = s.gripper.maxEffort → P s → P { s with gripper }

theorem Station.Lasting.forArm {P : Station α → Prop} (hP : Station.Lasting P) :
    Station.LastingArm P := ⟨hP.arm, hP.gripper⟩

variable [Scalar α] {s₀ : Station α} {P : Station α → Prop} {driving : Settings.Driving α}

open ArmRover.Action

/-- A property of the station that outlasts any velocities within the limits. -/
structure Station.Paced (driving : Settings.Driving α) (P : Station α → Prop) : Prop where
  ahead (s : Station α) {v : α} {vx : Number α} :
    Station.limited? driving.maxLinear v = .ok vx → P s → P { s with rover := { s.rover with vx } }
  turning (s : Station α) {v : α} {wz : Number α} :
    Station.limited? driving.maxAngular v = .ok wz → P s → P { s with rover := { s.rover with wz } }

/-- A property of the station that outlasts any movement of a rover within the limits of its
velocities. -/
structure Station.Steered (driving : Settings.Driving α) (P : Station α → Prop) : Prop extends
    Station.Paced driving P where
  placed (s : Station α) (p : Point α) : P s → P (s.moveTo p)
  turned (s : Station α) (heading : α) : P s → P (s.turnTo heading)
  logged (s : Station α) (history : List (Sample α)) : P s →
    P { s with rover := { s.rover with history } }

theorem Station.Lasting.steered (hP : Station.Lasting P) (driving : Settings.Driving α) :
    Station.Steered driving P where
  ahead s _ _ _ := hP.rover s _ rfl
  turning s _ _ _ := hP.rover s _ rfl
  placed s _ := hP.rover s _ rfl
  turned s _ := hP.rover s _ rfl
  logged s _ := hP.rover s _ rfl

/-! ### The arm -/

theorem Feedback.preserves_travel (mode : Gripper.Mode) (threshold : Value α)
    (stroke step dt : α) :
    Preserves (fun g : Gripper α => g.mode = mode ∧ g.maxEffort = threshold)
      (Feedback.travel stroke step dt) := by
  unfold Feedback.travel
  refine preserves_bind preserves_get fun before => ?_
  refine preserves_bind (preserves_modify fun _ h => h) fun _ => ?_
  refine preserves_bind (preserves_lift _) fun threshold => ?_
  exact preserves_modify fun _ h => h

theorem Feedback.preserves_advance_of (hP : Station.LastingArm P) (stroke : Value α) (dt : α) :
    Preserves P (Feedback.advance stroke dt) := by
  unfold Feedback.advance
  refine preserves_bind preserves_get fun s => ?_
  refine preserves_ite (preserves_pure _) ?_
  refine preserves_bind (preserves_modify fun s h => hP.arm s _ rfl rfl h) fun _ => ?_
  refine preserves_bind (preserves_lift _) fun stroke => ?_
  refine preserves_bind (preserves_lift _) fun step => ?_
  -- the gripper only reads its mode and its threshold
  exact preserves_on_of
    (V := fun s g => g.mode = s.gripper.mode ∧ g.maxEffort = s.gripper.maxEffort)
    (fun _ _ => ⟨rfl, rfl⟩) (fun s _ => preserves_travel s.gripper.mode s.gripper.maxEffort _ _ _)
    fun s _ h hg => hP.gripper s _ hg.1 hg.2 h

theorem Feedback.preserves_advance (hP : Station.Lasting P) (stroke : Value α) (dt : α) :
    Preserves P (Feedback.advance stroke dt) :=
  preserves_advance_of hP.forArm stroke dt

/-! ### The rover -/

/-- Velocities within the limits, and the time of a command. -/
theorem Station.preserves_setVelocities_of (hP : Paced driving P) (vx wz : α) {time : Option α}
    (htime : ∀ s, P s →
      P { s with rover := { s.rover with lastCommand := time <|> s.rover.lastCommand } }) :
    Preserves P (Station.setVelocities driving vx wz time) := by
  unfold Station.setVelocities
  refine preserves_lift_bind fun vx hvx => ?_
  refine preserves_bind (preserves_modify fun s h => hP.ahead s hvx h) fun _ => ?_
  refine preserves_lift_bind fun wz hwz => ?_
  exact preserves_modify fun s h => htime _ (hP.turning s hwz h)

theorem Station.preserves_setVelocities (hP : Lasting P) (driving : Settings.Driving α) (vx wz : α)
    (time : Option α) : Preserves P (Station.setVelocities driving vx wz time) :=
  preserves_setVelocities_of (hP.steered driving).toPaced vx wz fun s h => hP.rover s _ rfl h

theorem Station.preserves_addSample (hP : Steered driving P) (now : α) (window : Value α) :
    Preserves P (Station.addSample now window) := by
  unfold Station.addSample
  refine preserves_bind (preserves_modify fun s h => hP.logged s _ h) fun _ => ?_
  refine preserves_bind (preserves_lift _) fun window => ?_
  exact preserves_modify fun s h => hP.logged s _ h

theorem Drive.preserves_slowed (hP : Station.Steered driving P) (dt : α) (vx wz : Number α) :
    Preserves P (Drive.slowed? driving dt vx wz) := by
  have hset : ∀ vx wz : α, Preserves P (Station.setVelocities driving vx wz none) := fun vx wz =>
    Station.preserves_setVelocities_of hP.toPaced vx wz fun _ h => h
  unfold Drive.slowed?
  refine preserves_bind (preserves_lift _) fun decay => ?_
  refine preserves_bind (preserves_lift _) fun vx => ?_
  refine preserves_bind (preserves_lift _) fun wz => ?_
  cases decay with
  | factor d =>
    refine preserves_bind (preserves_lift _) fun vx => ?_
    refine preserves_bind (preserves_lift _) fun wz => ?_
    exact preserves_bind (hset vx wz) fun _ => preserves_pure _
  | complex re im =>
    refine preserves_bind (preserves_lift _) fun vxStopped => ?_
    refine preserves_bind (preserves_lift _) fun wzStopped => ?_
    refine preserves_ite (preserves_bind (preserves_throw _) fun _ => ?_) ?_
    all_goals
      refine preserves_lift_bind fun vx hvx => ?_
      refine preserves_bind (preserves_modify fun s h => hP.ahead s hvx h) fun _ => ?_
      refine preserves_ite (preserves_bind (preserves_throw _) fun _ => ?_) ?_
      all_goals exact preserves_bind (hset _ _) fun _ => preserves_pure _

theorem Drive.preserves_displace (hP : Station.Steered driving P) (vx wz dt : α) :
    Preserves P (Drive.displace vx wz dt : Action α (Station α) Unit) := by
  have hmove : ∀ r : Rover α, Preserves P (do
      let direction ← Action.lift (Scalar.sinCos? r.heading)
      if Rover.form r.height = .text then throw .wrongKind
      let height ← Action.lift (height? r.height)
      modify fun s =>
        s.moveTo ⟨r.x + vx * direction.1 * dt, height, r.z + vx * direction.2 * dt⟩ :
      Action α (Station α) Unit) := by
    intro r
    refine preserves_bind (preserves_lift _) fun direction => ?_
    refine preserves_ite (preserves_bind (preserves_throw _) fun _ => ?_) ?_
    all_goals
      refine preserves_bind (preserves_lift _) fun height => ?_
      exact preserves_modify fun s h => hP.placed s _ h
  unfold Drive.displace
  refine preserves_bind preserves_get fun s => ?_
  refine preserves_ite
    (preserves_bind (preserves_modify fun s h => hP.turned s _ h) fun _ => ?_) ?_
  all_goals exact preserves_ite (hmove s.rover) (preserves_pure _)

theorem Drive.preserves_advance_of (hP : Station.Steered driving P) (dt now : α) :
    Preserves P (Drive.advance driving dt now) := by
  have hmove : ∀ v : α × α, Preserves P (do
      displace v.1 v.2 dt
      Station.addSample now driving.historyTime : Action α (Station α) Unit) := fun v =>
    preserves_bind (preserves_displace hP _ _ _) fun _ => Station.preserves_addSample hP _ _
  have hstop : Preserves P (Station.setVelocities driving 0 0 none) :=
    Station.preserves_setVelocities_of hP.toPaced 0 0 fun _ h => h
  unfold Drive.advance
  refine preserves_bind preserves_get fun s => ?_
  refine preserves_ite (preserves_pure _) ?_
  refine preserves_bind (preserves_lift _) fun stale => ?_
  refine preserves_ite (preserves_bind hstop fun _ => ?_) ?_
  all_goals
    refine preserves_ite (preserves_bind (preserves_slowed hP _ _ _) hmove) ?_
    exact preserves_bind (preserves_pure _) hmove

theorem Drive.preserves_advance (hP : Station.Lasting P) (driving : Settings.Driving α)
    (dt now : α) : Preserves P (Drive.advance driving dt now) :=
  preserves_advance_of (hP.steered driving) dt now

/-! ### The sensors -/

namespace Sensors

variable {senses : Settings.Senses α} {mapping : Settings.Mapping α} {world : World α} {now : α}

/-- What the distance sensor stores comes from a ray that is cast. -/
theorem preserves_lookAhead_of
    (hgate : ∀ s, P s → P { s with gates := { s.gates with distance := some now } })
    (hreading : ∀ s {ray : Ray α} {sighting : Sighting α} {d : α},
      world.cast? ray senses.range = .ok sighting → sighting.value.numeric? = .ok d → P s →
        P (s.setReading d)) : Preserves P (lookAhead senses world now) := by
  unfold lookAhead
  refine preserves_bind preserves_get fun s => ?_
  refine preserves_bind (preserves_lift _) fun fresh => ?_
  refine preserves_ite (preserves_pure _) ?_
  refine preserves_bind (preserves_modify hgate) fun _ => ?_
  refine preserves_bind (preserves_lift _) fun direction => ?_
  refine preserves_lift_bind fun sighting hsighting => ?_
  refine preserves_lift_bind fun reading hd => ?_
  exact preserves_bind (preserves_modify fun s hs => hreading s hsighting hd hs)
    fun _ => preserves_pure _

theorem preserves_lookAhead
    (hgate : ∀ s, P s → P { s with gates := { s.gates with distance := some now } })
    (hreading : ∀ s d, P s → P (s.setReading d)) : Preserves P (lookAhead senses world now) :=
  preserves_lookAhead_of hgate fun s _ _ d _ _ => hreading s d

/-- What the lidar stores are the readings of a scan. -/
theorem preserves_scanAround_of
    (hscan : ∀ s {ground : Vantage α} {scan : List (Reading α)},
      world.scan? ground (.number senses.rays) senses.range = .ok scan → P s →
        P { s with rover := { s.rover with scan } })
    (hmap : ∀ s map, P s → P { s with map }) :
    Preserves P (scanAround senses mapping world) := by
  unfold scanAround
  refine preserves_bind preserves_get fun s => ?_
  refine preserves_lift_bind fun scan hrun => ?_
  refine preserves_bind (preserves_modify fun s hs => hscan s hrun hs) fun _ => ?_
  exact preserves_on (V := fun _ => True) (fun _ _ => trivial) (fun _ _ => trivial)
    fun s map hs _ => hmap s map hs

theorem preserves_scanAround (hscan : ∀ s scan, P s → P { s with rover := { s.rover with scan } })
    (hmap : ∀ s map, P s → P { s with map }) :
    Preserves P (scanAround senses mapping world) :=
  preserves_scanAround_of (fun s _ scan _ => hscan s scan) hmap

/-- What each of the sensors preserves, a refresh of both does. -/
theorem preserves_refresh (hlook : Preserves P (lookAhead senses world now))
    (hgate : ∀ s, P s → P { s with gates := { s.gates with scan := some now } })
    (hscan : Preserves P (scanAround senses mapping world)) :
    Preserves P (refresh senses mapping world now) := by
  unfold refresh
  refine preserves_bind preserves_get fun s => preserves_ite (preserves_pure _) ?_
  refine preserves_bind hlook fun _ => preserves_bind preserves_get fun s => ?_
  refine preserves_bind (preserves_lift _) fun fresh => preserves_ite (preserves_pure _) ?_
  exact preserves_bind (preserves_modify hgate) fun _ => hscan

theorem preserves_aged_refresh : Preserves s₀.Aged (refresh senses mapping world now) := by
  have hkept : ∀ (s : Station α) gates, s₀.Aged s → s₀.Aged { s with gates } :=
    fun _ _ h => ⟨h.active, h.maxEffort, h.distance⟩
  refine preserves_refresh (preserves_lookAhead (fun s => hkept s _) fun s d h => ?_)
    (fun s => hkept s _) (preserves_scanAround (fun s scan h => ?_) fun s map h => ?_)
  · exact ⟨h.active, h.maxEffort, .inr ⟨d, rfl⟩⟩
  · exact ⟨h.active, h.maxEffort, h.distance⟩
  · exact ⟨h.active, h.maxEffort, h.distance⟩

end Sensors

end ArmRover
