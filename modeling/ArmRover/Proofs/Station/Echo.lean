import ArmRover.Arm.Feedback
import ArmRover.Proofs.Action
import ArmRover.Proofs.Clock.Shift
import ArmRover.Rover.Drive
import ArmRover.Rover.Sensors

/-!
# Stations that echo another one

A station echoes another one when both show the same active robot, but for an offset of the times
that it remembers. What belongs to the other robot may be anything in either: it is neither looked
at nor changed, so that each keeps its own. The map belongs to the rover.

* `Rover.shift`, `Gates.shift` — what is remembered in a shifted run.
* `Station.Untouched` — what belongs to the other robot is as it was.
* `Station.Echoes` — the relation, for one active robot.
* `Feedback.echo_advance`, `Drive.echo_advance`, `Sensors.echo_refresh` — a stretch of time keeps
  it.
-/

namespace ArmRover

variable {α : Type} [Scalar α] (d : Offset α)

/-- The same sample in a shifted run. -/
def Sample.shift (x : Sample α) : Sample α := { x with time := d.time x.time }

/-- The same rover in a shifted run. -/
def Rover.shift (r : Rover α) : Rover α :=
  { r with
    lastCommand := r.lastCommand.map d.time
    history := r.history.map (Sample.shift d) }

/-- The same gates in a shifted run. -/
def Gates.shift (g : Gates α) : Gates α := ⟨g.distance.map d.time, g.scan.map d.time⟩

/-- Only times are remembered, so that runs at the same time do not differ. -/
@[simp] theorem Rover.shift_ofTickets (tickets : Nat) (r : Rover α) :
    r.shift (.ofTickets tickets) = r := by
  have hlast : r.lastCommand.map (Offset.ofTickets tickets).time = r.lastCommand := Option.map_id'
  have hhistory : r.history.map (Sample.shift (.ofTickets tickets)) = r.history :=
    List.map_id'' (fun _ => rfl) r.history
  unfold Rover.shift
  rw [hlast, hhistory]

@[simp] theorem Gates.shift_ofTickets (tickets : Nat) (g : Gates α) :
    g.shift (.ofTickets tickets) = g := by
  obtain ⟨distance, scan⟩ := g
  cases distance <;> cases scan <;> rfl

/-- What belongs to the other robot is as it was. The map belongs to the rover. -/
def Station.Untouched (active : Robot) (was s : Station α) : Prop :=
  match active with
  | .arm => s.rover = was.rover ∧ s.map = was.map
  | .rover => s.arm = was.arm ∧ s.gripper = was.gripper

/-- The first station is the second one in a shifted run, as far as the active robot goes. What
belongs to the other robot is as it was in two earlier stations. -/
structure Station.Echoes (active : Robot) (kept : Station α × Station α) (s t : Station α) :
    Prop where
  active_left : s.active = active
  active_right : t.active = active
  gates : s.gates = t.gates.shift d
  arm : active = .arm → s.arm = t.arm ∧ s.gripper = t.gripper
  rover : active = .rover → s.rover = t.rover.shift d ∧ s.map = t.map
  untouched_left : Station.Untouched active kept.1 s
  untouched_right : Station.Untouched active kept.2 t

variable {d} {active : Robot} {kept : Station α × Station α}

omit [Scalar α] in
theorem Station.Untouched.refl (active : Robot) (s : Station α) : Untouched active s s := by
  cases active with
  | arm => exact ⟨rfl, rfl⟩
  | rover => exact ⟨rfl, rfl⟩

omit [Scalar α] in
theorem Station.Untouched.trans {was now later : Station α} (h : Untouched active was now)
    (h' : Untouched active now later) : Untouched active was later := by
  cases active with
  | arm => exact ⟨h'.1.trans h.1, h'.2.trans h.2⟩
  | rover => exact ⟨h'.1.trans h.1, h'.2.trans h.2⟩

namespace Station.Echoes

variable {s t : Station α}

/-! ### Home -/

/-- Stations in which the active robot is brought home, whatever it was doing before. -/
theorem of_home (rig : Rig α) (hs : s.active = active) (ht : t.active = active)
    (hgates : s.gates = t.gates.shift d) :
    Station.Echoes d active (s, t) (s.home rig) (t.home rig) := by
  unfold Station.home
  rw [hs, ht]
  cases active with
  | arm => exact ⟨hs, ht, hgates, fun _ => ⟨rfl, rfl⟩, nofun, ⟨rfl, rfl⟩, ⟨rfl, rfl⟩⟩
  | rover => exact ⟨hs, ht, hgates, nofun, fun _ => ⟨rfl, rfl⟩, ⟨rfl, rfl⟩, ⟨rfl, rfl⟩⟩

theorem home (rig : Rig α) (h : Station.Echoes d active kept s t) :
    Station.Echoes d active kept (s.home rig) (t.home rig) :=
  have hhome := of_home rig h.active_left h.active_right h.gates
  { hhome with
    untouched_left := h.untouched_left.trans hhome.untouched_left
    untouched_right := h.untouched_right.trans hhome.untouched_right }

/-! ### Writes -/

theorem withArm {a b : Arm α} (h : Station.Echoes d active kept s t) (ha : active = .arm)
    (hab : s.arm = t.arm → a = b) :
    Station.Echoes d active kept { s with arm := a } { t with arm := b } := by
  subst ha
  obtain ⟨harm, hgripper⟩ := h.arm rfl
  exact ⟨h.active_left, h.active_right, h.gates, fun _ => ⟨hab harm, hgripper⟩, nofun,
    h.untouched_left, h.untouched_right⟩

theorem withGripper {a b : Gripper α} (h : Station.Echoes d active kept s t) (ha : active = .arm)
    (hab : s.gripper = t.gripper → a = b) :
    Station.Echoes d active kept { s with gripper := a } { t with gripper := b } := by
  subst ha
  obtain ⟨harm, hgripper⟩ := h.arm rfl
  exact ⟨h.active_left, h.active_right, h.gates, fun _ => ⟨harm, hab hgripper⟩, nofun,
    h.untouched_left, h.untouched_right⟩

theorem withRover {a b : Rover α} (h : Station.Echoes d active kept s t) (hr : active = .rover)
    (hab : s.rover = t.rover.shift d → a = b.shift d) :
    Station.Echoes d active kept { s with rover := a } { t with rover := b } := by
  subst hr
  obtain ⟨hrover, hmap⟩ := h.rover rfl
  exact ⟨h.active_left, h.active_right, h.gates, nofun, fun _ => ⟨hab hrover, hmap⟩,
    h.untouched_left, h.untouched_right⟩

theorem withMap {a b : Option (Grid α)} (h : Station.Echoes d active kept s t)
    (hr : active = .rover) (hab : a = b) :
    Station.Echoes d active kept { s with map := a } { t with map := b } := by
  subst hr
  obtain ⟨hrover, -⟩ := h.rover rfl
  exact ⟨h.active_left, h.active_right, h.gates, nofun, fun _ => ⟨hrover, hab⟩,
    h.untouched_left, h.untouched_right⟩

theorem withGates {a b : Gates α} (h : Station.Echoes d active kept s t)
    (hab : s.gates = t.gates.shift d → a = b.shift d) :
    Station.Echoes d active kept { s with gates := a } { t with gates := b } :=
  ⟨h.active_left, h.active_right, hab h.gates, h.arm, h.rover, h.untouched_left,
    h.untouched_right⟩

/-! ### Runs at the same time -/

/-- Echoes at the same time that agree on the other robot as well are the same. -/
theorem eq_of_ofTickets {tickets : Nat} {was : Station α}
    (h : Station.Echoes (.ofTickets tickets) active (was, was) s t) : s = t := by
  have hactive : s.active = t.active := h.active_left.trans h.active_right.symm
  have hgates : s.gates = t.gates := h.gates.trans (Gates.shift_ofTickets _ _)
  have hrobots : s.arm = t.arm ∧ s.gripper = t.gripper ∧ s.rover = t.rover ∧ s.map = t.map := by
    cases active with
    | arm =>
      obtain ⟨harm, hgripper⟩ := h.arm rfl
      exact ⟨harm, hgripper, h.untouched_left.1.trans h.untouched_right.1.symm,
        h.untouched_left.2.trans h.untouched_right.2.symm⟩
    | rover =>
      obtain ⟨hrover, hmap⟩ := h.rover rfl
      exact ⟨h.untouched_left.1.trans h.untouched_right.1.symm,
        h.untouched_left.2.trans h.untouched_right.2.symm,
        hrover.trans (Rover.shift_ofTickets _ _), hmap⟩
  obtain ⟨harm, hgripper, hrover, hmap⟩ := hrobots
  cases s
  cases t
  exact Station.mk.injEq .. ▸ ⟨hactive, harm, hgripper, hrover, hmap, hgates⟩

end Station.Echoes

open ArmRover.Action

/-! ### The arm in time -/

/-- The feedback of the arm does not look at the clock. -/
theorem Feedback.echo_advance (stroke : Value α) (dt : α) :
    Related (Station.Echoes d active kept) Eq (Feedback.advance stroke dt)
      (Feedback.advance stroke dt) := by
  unfold Feedback.advance
  refine related_bind related_get fun s t hst => ?_
  refine related_ite (by rw [hst.active_left, hst.active_right])
    (fun _ => related_pure rfl) fun hactive => ?_
  have ha : active = .arm := by
    rw [hst.active_left] at hactive
    exact Decidable.not_not.mp fun h => hactive (.inl h)
  refine related_seq (related_modify fun _ _ h => h.withArm ha fun harm => by rw [harm])
    fun _ => ?_
  refine related_seq (related_lift _) fun stroke => ?_
  refine related_seq (related_lift _) fun step => ?_
  exact related_on (fun _ _ h => (h.arm ha).2) (related_refl _)
    fun _ _ _ _ h hpq => h.withGripper ha fun _ => hpq

/-! ### The rover in time -/

/-- A velocity command is stamped with its time. -/
theorem Station.echo_setVelocities (hr : active = .rover) (driving : Settings.Driving α) (vx wz : α)
    (time : Option α) :
    Related (Station.Echoes d active kept) Eq
      (Station.setVelocities driving vx wz (time.map d.time))
      (Station.setVelocities driving vx wz time) := by
  unfold Station.setVelocities
  refine related_seq (related_lift _) fun vx => ?_
  refine related_seq (related_modify fun _ _ h => h.withRover hr fun hrover => by rw [hrover]; rfl)
    fun _ => ?_
  refine related_seq (related_lift _) fun wz => ?_
  refine related_modify fun _ _ h => h.withRover hr fun hrover => ?_
  rw [hrover]
  cases time <;> rfl

/-- A sample is old when it is old in a shifted run. -/
theorem Sample.dropWhile_shift (limit : α) (xs : List (Sample α)) :
    (xs.map (Sample.shift d)).dropWhile (fun x => x.time < d.time limit) =
      (xs.dropWhile fun x => x.time < limit).map (Sample.shift d) := by
  rw [List.dropWhile_map]
  congr 2
  funext x
  exact decide_eq_decide.mpr (d.time_lt_time _ _)

theorem Station.echo_addSample (hr : active = .rover) (now : α) (window : Value α) :
    Related (Station.Echoes d active kept) Eq (Station.addSample (d.time now) window)
      (Station.addSample now window) := by
  unfold Station.addSample
  refine related_seq (related_modify fun _ _ h => h.withRover hr fun hrover => ?_) fun _ => ?_
  · rw [hrover]
    simp [Rover.shift, Sample.shift]
  refine related_seq (related_lift _) fun window => ?_
  refine related_modify fun _ _ h => h.withRover hr fun hrover => ?_
  rw [hrover, d.time_sub]
  simp only [Rover.shift]
  rw [Sample.dropWhile_shift]

theorem Drive.echo_slowed (hr : active = .rover) (driving : Settings.Driving α) (dt : α)
    (vx wz : Number α) :
    Related (Station.Echoes d active kept) Eq (Drive.slowed? driving dt vx wz)
      (Drive.slowed? driving dt vx wz) := by
  unfold Drive.slowed?
  refine related_seq (related_lift _) fun decay => ?_
  refine related_seq (related_lift _) fun vx => ?_
  refine related_seq (related_lift _) fun wz => ?_
  cases decay with
  | factor x =>
    refine related_seq (related_lift _) fun vx => ?_
    refine related_seq (related_lift _) fun wz => ?_
    refine related_seq (Station.echo_setVelocities hr driving vx wz none) fun _ => ?_
    exact related_pure rfl
  | complex re im =>
    refine related_seq (related_lift _) fun vxStopped => ?_
    refine related_seq (related_lift _) fun wzStopped => ?_
    refine related_when (fun _ => related_throw _) ?_
    refine related_seq (related_lift _) fun vx => ?_
    refine related_seq
      (related_modify fun _ _ h => h.withRover hr fun hrover => by rw [hrover]; rfl) fun _ => ?_
    refine related_when (fun _ => related_throw _) ?_
    refine related_seq (Station.echo_setVelocities hr driving _ _ none) fun _ => ?_
    exact related_pure rfl

theorem Drive.echo_displace (hr : active = .rover) (vx wz dt : α) :
    Related (Station.Echoes d active kept) Eq (Drive.displace vx wz dt)
      (Drive.displace vx wz dt) := by
  unfold Drive.displace
  refine related_bind related_get fun s t hst => ?_
  rw [(hst.rover hr).1]
  dsimp only [Rover.shift]
  refine related_when
    (fun _ => related_modify fun _ _ h => h.withRover hr fun hrover => by rw [hrover]; rfl) ?_
  refine related_ite Iff.rfl (fun _ => ?_) fun _ => related_pure rfl
  refine related_seq (related_lift _) fun direction => ?_
  refine related_when (fun _ => related_throw _) ?_
  refine related_seq (related_lift _) fun height => ?_
  exact related_modify fun _ _ h => h.withRover hr fun hrover => by rw [hrover]; rfl

theorem Drive.stale?_shift (driving : Settings.Driving α) (r : Rover α) (now : α) :
    Drive.stale? driving (r.shift d) (d.time now) = Drive.stale? driving r now := by
  unfold Drive.stale?
  cases hr : r.lastCommand with
  | none => simp [Rover.shift, hr]
  | some last =>
    simp only [Rover.shift, hr, Option.map_some]
    rw [d.time_sub_time]

theorem Drive.echo_advance (driving : Settings.Driving α) (dt now : α) :
    Related (Station.Echoes d active kept) Eq (Drive.advance driving dt (d.time now))
      (Drive.advance driving dt now) := by
  unfold Drive.advance
  refine related_bind related_get fun s t hst => ?_
  refine related_ite (by rw [hst.active_left, hst.active_right])
    (fun _ => related_pure rfl) fun hactive => ?_
  have hr : active = .rover := Decidable.not_not.mp (hst.active_left ▸ hactive)
  rw [(hst.rover hr).1, Drive.stale?_shift]
  refine related_seq (related_lift _) fun stale => ?_
  dsimp only [Rover.shift]
  refine related_when (fun _ => Station.echo_setVelocities hr driving _ _ none) ?_
  have hmoved : ∀ v : α × α, Related (Station.Echoes d active kept) Eq
      (do Drive.displace v.1 v.2 dt; Station.addSample (d.time now) driving.historyTime)
      (do Drive.displace v.1 v.2 dt; Station.addSample now driving.historyTime) := fun v =>
    related_seq (Drive.echo_displace hr _ _ _) fun _ => Station.echo_addSample hr _ _
  refine related_ite Iff.rfl (fun _ => ?_) fun _ => ?_
  · exact related_seq (Drive.echo_slowed hr _ _ _ _) hmoved
  · exact related_seq (related_pure rfl) hmoved

/-! ### The sensors in time -/

theorem Sensors.fresh?_shift (last : Option α) (now : α) (interval : Value α) :
    Sensors.fresh? (last.map d.time) (d.time now) interval =
      Sensors.fresh? last now interval := by
  cases last with
  | none => rfl
  | some last =>
    simp only [Sensors.fresh?, Option.map_some]
    rw [d.time_sub_time]

theorem Sensors.echo_lookAhead (hr : active = .rover) (senses : Settings.Senses α)
    (world : World α) (now : α) :
    Related (Station.Echoes d active kept) Eq (Sensors.lookAhead senses world (d.time now))
      (Sensors.lookAhead senses world now) := by
  unfold Sensors.lookAhead
  refine related_bind related_get fun s t hst => ?_
  rw [(hst.rover hr).1, hst.gates]
  dsimp only [Rover.shift, Gates.shift]
  rw [Sensors.fresh?_shift]
  refine related_seq (related_lift _) fun fresh => ?_
  refine related_ite Iff.rfl (fun _ => related_pure rfl) fun _ => ?_
  refine related_seq (related_modify fun _ _ h => h.withGates fun hg => by rw [hg]; rfl)
    fun _ => ?_
  refine related_seq (related_lift _) fun direction => ?_
  refine related_seq (related_lift _) fun sighting => ?_
  refine related_seq (related_lift _) fun reading => ?_
  refine related_seq
    (related_modify fun _ _ h => h.withRover hr fun hrover => by rw [hrover]; rfl) fun _ => ?_
  exact related_pure rfl

theorem Sensors.echo_scanAround (hr : active = .rover) (senses : Settings.Senses α)
    (mapping : Settings.Mapping α) (world : World α) :
    Related (Station.Echoes d active kept) Eq (Sensors.scanAround senses mapping world)
      (Sensors.scanAround senses mapping world) := by
  unfold Sensors.scanAround
  refine related_bind related_get fun s t hst => ?_
  rw [(hst.rover hr).1]
  have hground : (t.rover.shift d).ground = t.rover.ground := rfl
  rw [hground]
  refine related_seq (related_lift _) fun scan => ?_
  refine related_seq
    (related_modify fun _ _ h => h.withRover hr fun hrover => by rw [hrover]; rfl) fun _ => ?_
  exact related_on (fun _ _ h => (h.rover hr).2) (related_refl _)
    fun _ _ _ _ h hpq => h.withMap hr hpq

theorem Sensors.echo_refresh (senses : Settings.Senses α) (mapping : Settings.Mapping α)
    (world : World α) (now : α) :
    Related (Station.Echoes d active kept) Eq
      (Sensors.refresh senses mapping world (d.time now))
      (Sensors.refresh senses mapping world now) := by
  unfold Sensors.refresh
  refine related_bind related_get fun s t hst => ?_
  refine related_ite (by rw [hst.active_left, hst.active_right])
    (fun _ => related_pure rfl) fun hactive => ?_
  have hr : active = .rover := Decidable.not_not.mp (hst.active_left ▸ hactive)
  refine related_seq (Sensors.echo_lookAhead hr _ _ _) fun _ => ?_
  refine related_bind related_get fun s t hst => ?_
  rw [hst.gates]
  dsimp only [Gates.shift]
  rw [Sensors.fresh?_shift]
  refine related_seq (related_lift _) fun fresh => ?_
  refine related_ite Iff.rfl (fun _ => related_pure rfl) fun _ => ?_
  refine related_seq (related_modify fun _ _ h => h.withGates fun hg => by rw [hg]; rfl)
    fun _ => ?_
  exact Sensors.echo_scanAround hr _ _ _

end ArmRover
