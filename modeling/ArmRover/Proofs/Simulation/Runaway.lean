import ArmRover.Proofs.Rover.Path
import ArmRover.Proofs.Simulation.Measured

/-!
# The rover does not run away

After a velocity command the rover moves for at most as long as the watchdog allows, if no other
one follows. The watchdog looks at the clock after that has moved on and before the rover does, so
that not even one long frame lets the rover move too far. A program that begins meanwhile brings the
rover home, and from then on it stays there.

* `Simulation.Tick`, `Simulation.ticks` — frames of any lengths, each with its halves.
* `Simulation.drifted_of_pass` — the first half of a frame, `Simulation.pose_serve` — the second
  half.
* `Rover.Coasts` — a rover that nobody has commanded since a certain time, `Simulation.Tick.Slows` —
  what one frame does to it, `Simulation.slows_of_coasts` — a frame does.
* `Simulation.Tick.Homing` — a program that begins, `Simulation.slows_of_ticks` — many frames.
* `Simulation.Commanded` — a rover after a command, `Simulation.stops_after_watchdog` — how far it
  gets. `Simulation.brought_home_without_command` — why the way home does not count.
-/

namespace ArmRover

open ArmRover.Action

namespace Simulation

/-! ### Frames -/

/-- A frame: the simulation before it, after time has passed and before the program runs, and after
it. -/
structure Tick (α : Type) where
  before : Simulation α
  passed : Simulation α
  after : Simulation α

/-- Frames of these lengths, one after the other. -/
def ticks {α : Type} [Scalar α] (cfg : Settings α) (s : Simulation α) : List α → List (Tick α)
  | [] => []
  | dt :: rest =>
    let next := (s.ask cfg (.frame dt)).2
    ⟨s, final (pass cfg dt s), next⟩ :: ticks cfg next rest

/-- The rover. -/
abbrev rover {α : Type} (s : Simulation α) : Rover α := s.scene.station.rover

/-- The time. -/
abbrev now {α : Type} (s : Simulation α) : α := s.scene.clock.now

/-- How far the rover drives in a frame. -/
noncomputable def Tick.way (k : Tick ℝ) : ℝ :=
  (k.passed.rover.position - k.before.rover.position).norm

/-- How far the rover turns in a frame. -/
noncomputable def Tick.turn (k : Tick ℝ) : ℝ := |k.passed.rover.heading - k.before.rover.heading|

variable {cfg : Settings ℝ} {dt : ℝ} {s : Simulation ℝ}

/-- The arm moves without the rover. -/
theorem lastingArm_rover (r : Rover ℝ) : Station.LastingArm fun s : Station ℝ => s.rover = r :=
  ⟨fun _ _ _ _ h => h, fun _ _ _ _ h => h⟩

/-- The sensors do not move the rover. -/
theorem preserves_drifted_refresh (world : World ℝ) (now later : ℝ) (r : Rover ℝ) :
    Preserves (fun s : Station ℝ => Drive.Drifted cfg.driving dt later r s.rover)
      (Sensors.refresh cfg.senses cfg.mapping world now) := by
  refine Sensors.preserves_refresh (Sensors.preserves_lookAhead (fun _ h => h) fun _ _ h => ?_)
    (fun _ h => h) (Sensors.preserves_scanAround (fun _ _ h => ?_) fun _ _ h => h)
  · exact ⟨h.vx, h.wz, h.lastCommand, h.way, h.turn, h.stays⟩
  · exact ⟨h.vx, h.wz, h.lastCommand, h.way, h.turn, h.stays⟩

/-- The first half of a frame, also one that fails. -/
theorem drifted_of_pass (h : cfg.driving.Damped) (hdt : 0 ≤ dt)
    (hwithin : s.rover.Within cfg.driving) :
    Drive.Drifted cfg.driving dt (s.now + dt) s.rover (final (pass cfg dt s)).rover := by
  have hrest : ∀ t : Simulation ℝ, t.rover = s.rover →
      Drive.Drifted cfg.driving dt (s.now + dt) s.rover (final ((do
        onStation (Feedback.advance cfg.grip.strokeTime dt)
        onStation (Drive.advance cfg.driving dt (s.now + dt))
        onStation (Sensors.refresh cfg.senses cfg.mapping s.world (s.now + dt)) :
        Action ℝ (Simulation ℝ) Unit) t)).rover := by
    intro t ht
    let Still : Simulation ℝ → Prop := fun u => u.rover = s.rover
    let Done : Simulation ℝ → Prop := fun u =>
      Drive.Drifted cfg.driving dt (s.now + dt) s.rover u.rover
    refine final_bind (P := Still) (Q := Done) ?_ (fun u hu => ?_) fun _ u hu => ?_
    · rw [final_onStation]
      exact Feedback.preserves_advance_of (lastingArm_rover s.rover) _ _ t.scene.station ht
    · show Drive.Drifted cfg.driving dt (s.now + dt) s.rover u.rover
      rw [show u.rover = s.rover from hu]
      exact .refl cfg.driving hdt _ s.rover
    refine final_bind (P := Done) (Q := Done) ?_ (fun _ hv => hv) fun _ v hv => ?_
    · have hrover : u.scene.station.rover = s.rover := hu
      have hdrifted := Drive.drifted_of_advance (s := u.scene.station) h hdt (s.now + dt)
        (hrover ▸ hwithin)
      rw [hrover] at hdrifted
      rw [final_onStation]
      exact hdrifted
    · rw [final_onStation]
      exact preserves_drifted_refresh s.world (s.now + dt) (s.now + dt) s.rover v.scene.station hv
  exact hrest { s with scene := { s.scene with clock := s.scene.clock.advance dt } } rfl

/-! ### The program -/

/-- The writes of programs do not move the rover. -/
theorem kept_pose (cfg : Settings ℝ) (P : Point ℝ × ℝ → Prop) :
    Station.Kept cfg fun s => P s.rover.pose where
  turned _ _ _ h := h
  posed _ _ h := h
  previewed _ _ h := h
  gripped _ _ _ h := h
  driven vx wz _ := Station.preserves_setVelocities_of ⟨fun _ _ _ _ h => h, fun _ _ _ _ h => h⟩
    vx wz fun _ h => h
  lit _ _ h := h

/-- The second half of a frame moves the rover at most home, when a program begins. -/
theorem pose_serve (cfg : Settings ℝ) (s : Simulation ℝ) :
    (s.serve cfg).rover.pose = s.rover.pose ∨
      (∃ commands, s.job = some (.fresh commands)) ∧
        (s.serve cfg).rover.pose = (Rover.home cfg.driving cfg.senses).pose := by
  have hrun : ∀ (P : Point ℝ × ℝ → Prop) commands steps readings,
      Preserves (fun t : Scene ℝ => P t.station.rover.pose)
        (Execution.run cfg commands steps readings) := fun P commands steps readings =>
    Execution.preserves_run_of (Step.preserves_take_of (kept_pose cfg P)) commands steps readings
  by_cases hfresh : ∃ commands, s.job = some (.fresh commands)
  · let P : Point ℝ × ℝ → Prop := fun p =>
      p = s.rover.pose ∨ p = (Rover.home cfg.driving cfg.senses).pose
    have hserve : P (s.serve cfg).rover.pose := by
      refine serve_preserves cfg (P := fun t => P t.station.rover.pose) (fun _ ht => ht)
        (fun commands => ?_) (fun rest => hrun P rest.commands rest.steps rest.readings) (.inl rfl)
      refine preserves_bind preserves_get fun _ => ?_
      refine preserves_bind (preserves_modify fun t ht => ?_) fun _ => hrun P _ _ _
      show P (t.station.home cfg.toRig).rover.pose
      unfold Station.home
      cases t.station.active with
      | arm => exact ht
      | rover => exact .inr rfl
    exact hserve.imp_right fun hhome => ⟨hfresh, hhome⟩
  · left
    exact serve_preserves_of cfg (P := fun t => t.station.rover.pose = s.rover.pose)
      (fun _ ht => ht) (fun commands hjob => absurd ⟨commands, hjob⟩ hfresh)
      (fun rest => hrun (· = s.rover.pose) rest.commands rest.steps rest.readings) rfl

end Simulation

/-! ### Nobody commands the rover -/

/-- Nobody has commanded the rover since the time `stamp`, when its velocities were at most `ahead`
and `turning`; or it was brought home since then. -/
structure Rover.Coasts (stamp ahead turning : ℝ) (r : Rover ℝ) : Prop where
  stamped : r.lastCommand = some stamp ∨ (r.vx.value = 0 ∧ r.wz.value = 0)
  vx : |r.vx.value| ≤ ahead
  wz : |r.wz.value| ≤ turning

namespace Rover.Coasts

variable {driving : Settings.Driving ℝ} {stamp ahead turning dt now : ℝ} {r r' : Rover ℝ}

theorem of_drifted (h : r.Coasts stamp ahead turning)
    (hdrifted : Drive.Drifted driving dt now r r') : r'.Coasts stamp ahead turning where
  stamped := by
    rcases h.stamped with hlast | ⟨hvx, hwz⟩
    · exact .inl (hdrifted.lastCommand.trans hlast)
    · right
      have hvx' := hdrifted.vx
      have hwz' := hdrifted.wz
      rw [hvx, abs_zero] at hvx'
      rw [hwz, abs_zero] at hwz'
      exact ⟨abs_nonpos_iff.mp hvx', abs_nonpos_iff.mp hwz'⟩
  vx := hdrifted.vx.trans h.vx
  wz := hdrifted.wz.trans h.wz

theorem home (hahead : 0 ≤ ahead) (hturning : 0 ≤ turning) (senses : Settings.Senses ℝ) :
    (Rover.home driving senses).Coasts stamp ahead turning := by
  have hvx := Rover.value_vx_home driving senses
  have hwz := Rover.value_wz_home driving senses
  refine ⟨.inr ⟨hvx, hwz⟩, ?_, ?_⟩
  · rw [hvx, abs_zero]
    exact hahead
  · rw [hwz, abs_zero]
    exact hturning

end Rover.Coasts

/-- A stamp of the time now, or no command since the time of another stamp. -/
theorem Simulation.keptAt_coasts {cfg : Settings ℝ} (h : cfg.driving.Bounded)
    (stamp ahead turning now : ℝ) :
    Station.KeptAt cfg now fun s =>
      s.rover.Coasts stamp ahead turning ∨ s.rover.lastCommand = some now where
  turned _ _ _ h := h
  posed _ _ h := h
  previewed _ _ h := h
  gripped _ _ _ h := h
  driven vx wz s _ := by
    obtain ⟨m, n, hset, -⟩ := Station.setVelocities_of_bounded h vx wz (some now) s
    rw [hset]
    exact .inr rfl
  lit _ _ h := h.imp_left fun hcoasts => ⟨hcoasts.stamped, hcoasts.vx, hcoasts.wz⟩

namespace Simulation

variable {cfg : Settings ℝ} {dt stamp ahead turning : ℝ} {s : Simulation ℝ}

/-- In the second half of a frame somebody commands the rover now, or it is still the case that
nobody has. -/
theorem coasts_serve (h : cfg.driving.Bounded) (hs : s.rover.Coasts stamp ahead turning) :
    (s.serve cfg).now = s.now ∧ ((s.serve cfg).rover.Coasts stamp ahead turning ∨
      (s.serve cfg).rover.lastCommand = some s.now) := by
  have hahead : 0 ≤ ahead := (abs_nonneg _).trans hs.vx
  have hturning : 0 ≤ turning := (abs_nonneg _).trans hs.wz
  have hrun := fun commands steps readings => Execution.preserves_run_of
    (Step.preserves_take_at (keptAt_coasts h stamp ahead turning s.now)) commands steps readings
  refine serve_preserves cfg (P := fun t => t.clock.now = s.now ∧
    (t.station.rover.Coasts stamp ahead turning ∨ t.station.rover.lastCommand = some s.now))
    (fun _ ht => ht) (fun commands => ?_)
    (fun rest => hrun rest.commands rest.steps rest.readings) ⟨rfl, .inl hs⟩
  refine preserves_bind preserves_get fun _ => ?_
  refine preserves_bind (preserves_modify fun t ht => ⟨ht.1, ?_⟩) fun _ => hrun _ _ _
  show (t.station.home cfg.toRig).rover.Coasts stamp ahead turning ∨
    (t.station.home cfg.toRig).rover.lastCommand = some s.now
  unfold Station.home
  cases t.station.active with
  | arm => exact ht.2
  | rover => exact .inl (.home hahead hturning cfg.senses)

/-- How long the watchdog still lets the rover move. -/
noncomputable def timeLeft (driving : Settings.Driving ℝ) (stamp now : ℝ) : ℝ :=
  max 0 (stamp + driving.watchdog.amount - now)

/-- A frame of a rover that nobody commands uses up some of the time that is left, if the rover
moves at all. -/
structure Tick.Slows (cfg : Settings ℝ) (stamp ahead turning : ℝ) (k : Tick ℝ) : Prop where
  way : k.way ≤
    ahead * (timeLeft cfg.driving stamp k.before.now - timeLeft cfg.driving stamp k.passed.now)
  turn : k.turn ≤
    turning * (timeLeft cfg.driving stamp k.before.now - timeLeft cfg.driving stamp k.passed.now)
  stops : k.passed.rover.pose ≠ k.before.rover.pose →
    k.passed.now ≤ stamp + cfg.driving.watchdog.amount

theorem slows_of_coasts (h : cfg.driving.Damped) (hdt : 0 ≤ dt)
    (hwithin : s.rover.Within cfg.driving) (hs : s.rover.Coasts stamp ahead turning)
    (after : Simulation ℝ) :
    Tick.Slows cfg stamp ahead turning ⟨s, final (pass cfg dt s), after⟩ := by
  have hdrifted := drifted_of_pass h hdt hwithin
  have hnow : (final (pass cfg dt s)).now = s.now + dt := congrArg Clock.now (passed cfg dt s).clock
  have hahead : 0 ≤ ahead := (abs_nonneg _).trans hs.vx
  have hturning : 0 ≤ turning := (abs_nonneg _).trans hs.wz
  by_cases hstill : Drive.Stale cfg.driving s.rover (s.now + dt) ∨
      (s.rover.vx.value = 0 ∧ s.rover.wz.value = 0)
  · -- it stays where it is, and time passes
    have hpose := hdrifted.stays hstill
    obtain ⟨hposition, hheading⟩ := Prod.mk.inj hpose
    have hleft : 0 ≤ timeLeft cfg.driving stamp s.now - timeLeft cfg.driving stamp (s.now + dt) :=
      sub_nonneg.mpr (max_le_max (le_refl 0) (by linarith))
    refine ⟨?_, ?_, fun hmoved => absurd hpose hmoved⟩
    · unfold Tick.way
      dsimp only
      rw [hposition, Point.norm_sub_self, hnow]
      exact mul_nonneg hahead hleft
    · unfold Tick.turn
      dsimp only
      rw [hheading, sub_self, abs_zero, hnow]
      exact mul_nonneg hturning hleft
  · obtain ⟨hfresh, hmoving⟩ := not_or.mp hstill
    have hlast := hs.stamped.resolve_right hmoving
    have hlimit : s.now + dt ≤ stamp + cfg.driving.watchdog.amount := by
      by_contra hlate
      exact hfresh ⟨stamp, hlast, by linarith⟩
    have hleft :
        timeLeft cfg.driving stamp s.now - timeLeft cfg.driving stamp (s.now + dt) = dt := by
      unfold timeLeft
      rw [max_eq_right (by linarith), max_eq_right (by linarith)]
      ring
    refine ⟨?_, ?_, fun _ => hnow.trans_le hlimit⟩
    · rw [hnow, hleft]
      exact hdrifted.way.trans (mul_le_mul_of_nonneg_right hs.vx hdt)
    · rw [hnow, hleft]
      exact hdrifted.turn.trans (mul_le_mul_of_nonneg_right hs.wz hdt)

/-! ### Many frames -/

theorem coasts_ask_frame (h : cfg.driving.Damped) (hdt : 0 ≤ dt)
    (hwithin : s.rover.Within cfg.driving) (hs : s.rover.Coasts stamp ahead turning) :
    let next := (s.ask cfg (.frame dt)).2
    next.now = s.now + dt ∧
      (next.rover.Coasts stamp ahead turning ∨ next.rover.lastCommand = some (s.now + dt)) := by
  intro next
  have hnow : (final (pass cfg dt s)).now = s.now + dt := congrArg Clock.now (passed cfg dt s).clock
  have hcoasts := hs.of_drifted (drifted_of_pass h hdt hwithin)
  have hserve := coasts_serve h.toBounded hcoasts
  rw [hnow] at hserve
  rcases ask_frame_cases cfg dt s with heq | heq
  · have hnext : next = final (pass cfg dt s) := heq
    rw [hnext]
    exact ⟨hnow, .inl hcoasts⟩
  · have hnext : next = (final (pass cfg dt s)).serve cfg := heq
    rw [hnext]
    exact hserve

/-- The program moves the rover in a frame only home, when it begins. -/
def Tick.Homing (cfg : Settings ℝ) (k : Tick ℝ) : Prop :=
  k.after.rover.pose = k.passed.rover.pose ∨
    (∃ commands, k.before.job = some (.fresh commands)) ∧
      k.after.rover.pose = (Rover.home cfg.driving cfg.senses).pose

theorem homing_of_ask_frame (cfg : Settings ℝ) (dt : ℝ) (s : Simulation ℝ) :
    Tick.Homing cfg ⟨s, final (pass cfg dt s), (s.ask cfg (.frame dt)).2⟩ := by
  unfold Tick.Homing
  dsimp only
  rcases ask_frame_cases cfg dt s with heq | heq
  · exact .inl (by rw [heq])
  · rw [heq, ← (passed cfg dt s).job]
    exact pose_serve cfg _

/-- Frames of a rover that nobody commands: together they use up at most the time that is left. -/
theorem slows_of_ticks (h : cfg.driving.Damped) (hahead : ahead ≤ cfg.driving.maxLinear.amount)
    (hturning : turning ≤ cfg.driving.maxAngular.amount) {dts : List ℝ}
    (hdts : ∀ dt ∈ dts, 0 < dt) (hs : s.rover.Coasts stamp ahead turning) (hstamp : stamp ≤ s.now)
    (hlast : ∀ k ∈ s.ticks cfg dts, ∀ last ∈ k.after.rover.lastCommand, last ≤ stamp) :
    ((s.ticks cfg dts).map Tick.way).sum ≤ ahead * timeLeft cfg.driving stamp s.now ∧
      ((s.ticks cfg dts).map Tick.turn).sum ≤ turning * timeLeft cfg.driving stamp s.now ∧
      ∀ k ∈ s.ticks cfg dts, k.Slows cfg stamp ahead turning ∧ k.Homing cfg := by
  induction dts generalizing s with
  | nil =>
    have hleft : 0 ≤ timeLeft cfg.driving stamp s.now := le_max_left _ _
    refine ⟨?_, ?_, List.forall_mem_nil _⟩
    · exact mul_nonneg ((abs_nonneg _).trans hs.vx) hleft
    · exact mul_nonneg ((abs_nonneg _).trans hs.wz) hleft
  | cons dt rest ih =>
    have hdt : 0 < dt := hdts dt List.mem_cons_self
    have hwithin : s.rover.Within cfg.driving := ⟨hs.vx.trans hahead, hs.wz.trans hturning⟩
    obtain ⟨hnow, hnext⟩ := coasts_ask_frame h hdt.le hwithin hs
    obtain ⟨hfirst, hlater⟩ := List.forall_mem_cons.mp hlast
    -- a command of this frame would have a later time
    have hcoasts := hnext.resolve_right fun hcommand => by
      have hle := hfirst _ hcommand
      linarith
    have hslows := slows_of_coasts h hdt.le hwithin hs (s.ask cfg (.frame dt)).2
    obtain ⟨hway, hturn, hall⟩ := ih (fun d hd => hdts d (List.mem_cons_of_mem _ hd)) hcoasts
      (by rw [hnow]; linarith) hlater
    have hpassed : (final (pass cfg dt s)).now = (s.ask cfg (.frame dt)).2.now :=
      (congrArg Clock.now (passed cfg dt s).clock).trans hnow.symm
    refine ⟨?_, ?_, List.forall_mem_cons.mpr ⟨⟨hslows, homing_of_ask_frame cfg dt s⟩, hall⟩⟩
    · have hone := hslows.way
      rw [hpassed] at hone
      rw [ticks, List.map_cons, List.sum_cons]
      linarith
    · have hone := hslows.turn
      rw [hpassed] at hone
      rw [ticks, List.map_cons, List.sum_cons]
      linarith

/-- A velocity command was given just now, and its velocities are stored. -/
structure Commanded (driving : Settings.Driving ℝ) (s : Simulation ℝ) : Prop where
  within : s.rover.Within driving
  stamp : s.rover.lastCommand = some s.now

theorem commanded_of_setVelocities (h : cfg.driving.Bounded) (s : Simulation ℝ) (vx wz : ℝ) :
    ∃ t, onStation (Station.setVelocities cfg.driving vx wz (some s.now)) s = .ok () t ∧
      t.Commanded cfg.driving := by
  obtain ⟨m, n, hset, hm, hn⟩ :=
    Station.setVelocities_of_bounded h vx wz (some s.now) s.scene.station
  have hrun : onStation (Station.setVelocities cfg.driving vx wz (some s.now)) s = .ok ()
      { s with scene := { s.scene with station := { s.scene.station with
        rover := { s.rover with vx := m, wz := n, lastCommand := some s.now } } } } := by
    unfold onStation on
    rw [hset]
    rfl
  exact ⟨_, hrun, ⟨hm, hn⟩, rfl⟩

/-- The first half of a frame is no command. -/
theorem lastCommand_pass (cfg : Settings ℝ) (dt : ℝ) (s : Simulation ℝ) :
    (final (pass cfg dt s)).rover.lastCommand = s.rover.lastCommand := by
  let P : Station ℝ → Prop := fun t => t.rover.lastCommand = s.rover.lastCommand
  have harm : Station.LastingArm P := ⟨fun _ _ _ _ h => h, fun _ _ _ _ h => h⟩
  have hsteered : Station.Steered cfg.driving P :=
    { ahead := fun _ _ _ _ h => h
      turning := fun _ _ _ _ h => h
      placed := fun _ _ h => h
      turned := fun _ _ h => h
      logged := fun _ _ h => h }
  have hlook : ∀ now, Preserves P (Sensors.refresh cfg.senses cfg.mapping s.world now) :=
    fun now => Sensors.preserves_refresh
      (Sensors.preserves_lookAhead (fun _ h => h) fun _ _ h => h) (fun _ h => h)
      (Sensors.preserves_scanAround (fun _ _ h => h) fun _ _ h => h)
  exact pass_preserves_of (P := P) (Feedback.preserves_advance_of harm _ _)
    (Drive.preserves_advance_of hsteered _ _) (hlook _) rfl

/-- Nothing but a program commands the rover while time passes. -/
theorem lastCommand_of_ticks (cfg : Settings ℝ) (dts : List ℝ) (hjob : s.job = none) :
    ∀ k ∈ s.ticks cfg dts, k.after.rover.lastCommand = s.rover.lastCommand := by
  induction dts generalizing s with
  | nil => exact List.forall_mem_nil _
  | cons dt rest ih =>
    have hpassed : (final (pass cfg dt s)).job = none := (passed cfg dt s).job.trans hjob
    obtain ⟨hlast, hnext⟩ :
        (s.ask cfg (.frame dt)).2.rover.lastCommand = s.rover.lastCommand ∧
          (s.ask cfg (.frame dt)).2.job = none := by
      rcases ask_frame_cases cfg dt s with heq | heq
      · rw [heq]
        exact ⟨lastCommand_pass cfg dt s, hpassed⟩
      · obtain ⟨hstation, -, hnone⟩ := serve_of_none cfg hpassed
        have hrover := congrArg (fun t => t.rover.lastCommand) hstation
        rw [heq]
        exact ⟨hrover.trans (lastCommand_pass cfg dt s), hnone⟩
    refine List.forall_mem_cons.mpr ⟨hlast, fun k hk => ?_⟩
    exact (ih hnext k hk).trans hlast

/-- With friction, limits and a watchdog, a velocity command can always be given. If after one that
was given just now no other one follows, then in frames of any lengths the rover drives at most as
far as its velocity brings it in the time of the watchdog, and it turns by at most as much as its
turning velocity does; and whenever it drives or turns, it is no later than that time after the
command. Apart from that it changes its pose only when a program begins, which brings it home. -/
theorem stops_after_watchdog (h : cfg.driving.Damped)
    (hwatchdog : cfg.driving.watchdog.IsDuration) :
    (∀ (s : Simulation ℝ) (vx wz : ℝ), ∃ t,
      onStation (Station.setVelocities cfg.driving vx wz (some s.now)) s = .ok () t ∧
        t.Commanded cfg.driving) ∧
    ∀ s : Simulation ℝ, s.Commanded cfg.driving → ∀ dts : List ℝ, (∀ dt ∈ dts, 0 < dt) →
      (∀ k ∈ s.ticks cfg dts, ∀ last ∈ k.after.rover.lastCommand, last ≤ s.now) →
      ((s.ticks cfg dts).map Tick.way).sum ≤
          |s.rover.vx.value| * cfg.driving.watchdog.amount ∧
        ((s.ticks cfg dts).map Tick.turn).sum ≤
          |s.rover.wz.value| * cfg.driving.watchdog.amount ∧
        ∀ k ∈ s.ticks cfg dts,
          (k.passed.rover.pose ≠ k.before.rover.pose →
            k.passed.now ≤ s.now + cfg.driving.watchdog.amount) ∧
          k.Homing cfg := by
  refine ⟨fun s vx wz => commanded_of_setVelocities h.toBounded s vx wz, ?_⟩
  intro s hs dts hdts hlast
  have hleft : timeLeft cfg.driving s.now s.now = cfg.driving.watchdog.amount := by
    unfold timeLeft
    rw [add_sub_cancel_left, max_eq_right hwatchdog.2]
  have hcoasts : s.rover.Coasts s.now |s.rover.vx.value| |s.rover.wz.value| :=
    ⟨.inl hs.stamp, le_refl _, le_refl _⟩
  obtain ⟨hway, hturn, hall⟩ :=
    slows_of_ticks h hs.within.vx hs.within.wz hdts hcoasts (le_refl _) hlast
  rw [hleft] at hway hturn
  exact ⟨hway, hturn, fun k hk => ⟨(hall k hk).1.stops, (hall k hk).2⟩⟩

/-! ### The built-in settings -/

theorem watchdog_standard :
    (Settings.standard : Settings ℝ).driving.watchdog.amount = 1 / 2 :=
  (Value.amount_decimal 5 1).trans (by norm_num)

/-- A rover of the built-in settings that was sent ahead and round, one second after the start. -/
noncomputable def sentAhead : Simulation ℝ where
  scene :=
    { station := { Station.new Settings.standard.toRig with
        active := .rover
        rover := { (.home Settings.standard.driving Settings.standard.senses : Rover ℝ) with
          vx := .real 1, wz := .real 1, lastCommand := some 1 } }
      clock := .start 1 }
  world := []
  job := none

/-- It drives at most half a metre and turns by at most half a radian, however long the frames
are. -/
theorem stops_after_watchdog_sentAhead :
    ((sentAhead.ticks .standard [1 / 60, 1 / 4, 100]).map Tick.way).sum ≤ 1 / 2 ∧
      ((sentAhead.ticks .standard [1 / 60, 1 / 4, 100]).map Tick.turn).sum ≤ 1 / 2 := by
  have hdts : ∀ dt ∈ [1 / 60, 1 / 4, 100], (0 : ℝ) < dt := by
    intro dt hdt
    simp only [List.mem_cons, List.not_mem_nil, or_false] at hdt
    rcases hdt with rfl | rfl | rfl <;> norm_num
  have hcommanded : sentAhead.Commanded Settings.standard.driving := by
    refine ⟨⟨?_, ?_⟩, rfl⟩
    · show |(1 : ℝ)| ≤ (Settings.standard : Settings ℝ).driving.maxLinear.amount
      rw [Settings.maxLinear_standard]
      norm_num
    · show |(1 : ℝ)| ≤ (Settings.standard : Settings ℝ).driving.maxAngular.amount
      rw [Settings.maxAngular_standard]
      norm_num
  have hlast : ∀ k ∈ sentAhead.ticks .standard [1 / 60, 1 / 4, 100],
      ∀ last ∈ k.after.rover.lastCommand, last ≤ sentAhead.now := by
    intro k hk last hmem
    rw [lastCommand_of_ticks .standard _ rfl k hk] at hmem
    cases hmem
    exact le_refl _
  obtain ⟨hway, hturn, -⟩ := (stops_after_watchdog Settings.damped_standard
    (Value.isDuration_decimal 5 1)).2 sentAhead hcommanded _ hdts hlast
  rw [watchdog_standard] at hway hturn
  have hvx : sentAhead.rover.vx.value = 1 := rfl
  have hwz : sentAhead.rover.wz.value = 1 := rfl
  rw [hvx, abs_one, one_mul] at hway
  rw [hwz, abs_one, one_mul] at hturn
  exact ⟨hway, hturn⟩

/-- A rover of the built-in settings a metre ahead of its home, one second after the start. It
was just told to stand still, its sensors have just looked, and a program is about to begin. -/
noncomputable def standingAhead : Simulation ℝ where
  scene :=
    { station := { Station.new Settings.standard.toRig with
        active := .rover
        rover := { (.home Settings.standard.driving Settings.standard.senses : Rover ℝ) with
          z := 1, lastCommand := some 1 }
        gates := ⟨some 1, some 1⟩ }
      clock := .start 1 }
  world := []
  job := some (.fresh [])

theorem commanded_standingAhead : standingAhead.Commanded Settings.standard.driving := by
  have hhome := Rover.within_home Settings.standard.senses Settings.damped_standard.toBounded
  exact ⟨⟨hhome.vx, hhome.wz⟩, rfl⟩

/-- Time can pass while both sensors are fresh, where all that is asked for is a number. -/
theorem exists_pass_of_fresh (h : cfg.driving.Damped) (hleast : cfg.driving.leastSpeed.IsNumber)
    (hwatchdog : cfg.driving.watchdog.IsNumber) (hwindow : cfg.driving.historyTime.IsNumber)
    (hdt : 0 ≤ dt) (hactive : s.scene.station.active = .rover)
    (hwithin : s.rover.Within cfg.driving) (hheight : s.rover.height.IsNumber)
    (hdistance : Sensors.fresh? s.scene.station.gates.distance (s.now + dt)
      (.real cfg.senses.interval) = .ok true)
    (hscan : Sensors.fresh? s.scene.station.gates.scan (s.now + dt) cfg.senses.scanInterval =
      .ok true) : ∃ t, pass cfg dt s = .ok () t := by
  obtain ⟨t, hdrive⟩ :=
    Drive.exists_advance h hleast hwatchdog hwindow hdt (s.now + dt) hactive hwithin hheight
  obtain ⟨-, hgates⟩ := (Drive.preserves_advance
    (Station.lasting_gates s.scene.station.active s.scene.station.gates) cfg.driving dt
    (s.now + dt)).of_ok hdrive ⟨rfl, rfl⟩
  rw [← hgates] at hdistance hscan
  have hlook : Sensors.refresh cfg.senses cfg.mapping s.world (s.now + dt) t = .ok () t :=
    Sensors.refresh_of_fresh hdistance hscan
  have hpass : Yields (· = s) (pass cfg dt) fun _ _ => True := by
    refine yields_bind (Q := fun _ u => u =
      { s with scene := { s.scene with clock := s.scene.clock.advance dt } })
      (yields_modify fun _ hu => by rw [hu]) fun _ => yields_get fun u hu => ?_
    subst hu
    refine yields_of (V := fun u => u.scene.station = s.scene.station) (fun u hu => by rw [hu]) ?_
    refine yields_bind (yields_onStation (P := (· = s.scene.station))
      (Feedback.yields_advance_of_rover cfg.grip.strokeTime dt hactive)) fun _ => ?_
    refine yields_bind (yields_onStation (P := (· = s.scene.station)) (Q := fun _ st => st = t)
      fun st hst => ⟨(), t, hst ▸ hdrive, rfl⟩) fun _ => ?_
    exact yields_onStation (P := (· = t)) (Q := fun _ _ => True)
      fun st hst => ⟨(), t, hst ▸ hlook, trivial⟩
  obtain ⟨_, u, hrun, -⟩ := hpass s rfl
  exact ⟨u, hrun⟩

/-- The next frame has no fault, and the program brings the rover home in it. -/
theorem exists_frame_standingAhead :
    ∃ after, standingAhead.ticks .standard [1 / 60] =
        [⟨standingAhead, final (pass .standard (1 / 60) standingAhead), after⟩] ∧
      after.rover = .home Settings.standard.driving Settings.standard.senses := by
  have hfresh : ∀ interval : ℝ, 1 / 60 < interval →
      Sensors.fresh? (some 1) (standingAhead.now + 1 / 60) (.real interval) = .ok true := by
    intro interval hlong
    show Except.ok ((Number.real interval).above ((1 : ℝ) + 1 / 60 - 1)) = _
    rw [Number.above_real, add_sub_cancel_left]
    exact congrArg Except.ok (decide_eq_true hlong)
  have hdistance : (1 : ℝ) / 60 < (Settings.standard : Settings ℝ).senses.interval := by
    show (1 : ℝ) / 60 < Scalar.ofInt 1 / Scalar.ofInt 10
    norm_num
  have hscan : (1 : ℝ) / 60 < @OfScientific.ofScientific ℝ Scalar.instOfScientific 1 true 1 := by
    rw [Scalar.ofScientific_real]
    norm_num
  have hreset : Clock.slack < (Settings.standard : Settings ℝ).pauses.reset.amount := by
    rw [show (Settings.standard : Settings ℝ).pauses.reset.amount = _ from Value.amount_decimal 5 1]
    exact slack_le.trans_lt (by norm_num)
  obtain ⟨t, hpass⟩ := exists_pass_of_fresh (s := standingAhead) Settings.damped_standard ⟨_, rfl⟩
    ⟨_, rfl⟩ ⟨_, rfl⟩ (by norm_num : (0 : ℝ) ≤ 1 / 60) rfl commanded_standingAhead.within ⟨_, rfl⟩
    (hfresh _ hdistance) (hfresh _ hscan)
  obtain ⟨-, -, -, hstation, -⟩ := asleep_of_fresh rfl rfl hreset hpass
  have hactive : t.scene.station.active = .rover := (passed_of_pass hpass).station.active
  refine ⟨t.serve .standard, ?_, ?_⟩
  · rw [ticks, ticks, ask_frame hpass]
  · show (t.serve .standard).scene.station.rover = _
    rw [hstation]
    unfold Station.home
    rw [hactive]
    rfl

/-- A program that begins moves the rover without any velocity: from a rover that stands still it
takes a metre, although nobody commands it. -/
theorem brought_home_without_command :
    standingAhead.Commanded Settings.standard.driving ∧
      (∀ k ∈ standingAhead.ticks .standard [1 / 60],
        ∀ last ∈ k.after.rover.lastCommand, last ≤ standingAhead.now) ∧
      |standingAhead.rover.vx.value| * (Settings.standard : Settings ℝ).driving.watchdog.amount <
        ((standingAhead.ticks .standard [1 / 60]).map fun k =>
          (k.after.rover.position - k.before.rover.position).norm).sum := by
  obtain ⟨after, hticks, hhome⟩ := exists_frame_standingAhead
  rw [hticks]
  refine ⟨commanded_standingAhead, List.forall_mem_singleton.mpr ?_, ?_⟩
  · dsimp only
    rw [hhome]
    exact nofun
  · have hvx : standingAhead.rover.vx.value = 0 :=
      Rover.value_vx_home Settings.standard.driving Settings.standard.senses
    rw [hvx, abs_zero, zero_mul, List.map_singleton, List.sum_singleton]
    dsimp only
    rw [hhome]
    let home : Rover ℝ := .home Settings.standard.driving Settings.standard.senses
    have hlength : (home.position - standingAhead.rover.position).norm = |(-1 : ℝ)| := by
      show (⟨home.x, home.height.amount, home.z⟩ - ⟨home.x, home.height.amount, 1⟩ : Point ℝ).norm =
        |(-1 : ℝ)|
      rw [Point.mk_sub_mk_real, sub_self, sub_self, show home.z = 0 from Scalar.zero_real, zero_sub]
      exact Point.norm_of_sq_add_sq (by norm_num)
    show 0 < (home.position - standingAhead.rover.position).norm
    rw [hlength]
    norm_num

end Simulation

end ArmRover
