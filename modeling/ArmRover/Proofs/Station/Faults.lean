import ArmRover.Arm.Feedback
import ArmRover.Proofs.Faults
import ArmRover.Rover.Drive
import ArmRover.Rover.Sensors

/-!
# The faults of a stretch of time

While time passes for the robots and the sensors nothing fails with a fault that belongs to a run.

* `Shape.fails_hit?`, `World.fails_cast?`, `World.fails_scan?` — what sensors see.
* `Grid.throws_fuseInto` — the map.
* `Feedback.throws_advance`, `Drive.throws_advance`, `Sensors.throws_refresh` — a stretch of time.
-/

namespace ArmRover

variable {α : Type} [Scalar α]

open ArmRover.Action

/-! ### The world -/

namespace Vantage

@[simp] theorem Form.fails_measure? (form : Form) (v : Value α) :
    Fails Fault.Own (form.measure? v) := by
  cases form <;> simp [measure?]

@[simp] theorem Form.fails_ask? (form : Form) (question : Number α → Bool)
    (textual : String → Bool) (v : Value α) :
    Fails Fault.Own (form.ask? question textual v) := by
  unfold ask?
  split <;> simp

@[simp] theorem fails_along? (p : Vantage α) (sin cos distance : α) :
    Fails Fault.Own (p.along? sin cos distance) := by
  simp [along?]

end Vantage

@[simp] theorem Hit.fails_crossing? (origin direction : α) (m : Measure α) :
    Fails Fault.Own (crossing? origin direction m) := by
  simp [crossing?]

namespace Shape

@[simp] theorem Stretch.fails_between? (s : Stretch α) (form : Vantage.Form) (origin direction : α)
    (lower upper : Value α) :
    Fails Fault.Own (s.between? form origin direction lower upper) := by
  refine fails_ite (fails_bind (form.fails_ask? _ _ lower) fun _ => fails_ite (fails_pure none) ?_)
    (fails_bind (form.fails_measure? lower) fun _ => ?_)
  · exact fails_bind (form.fails_ask? _ _ upper) fun _ => by simp
  · exact fails_bind (form.fails_measure? upper) fun _ => by simp

theorem fails_boxHit? (ray : Ray α) (xMin xMax zMin zMax : Value α) :
    Fails Fault.Own (boxHit? ray xMin xMax zMin zMax) := by
  refine fails_bind (Stretch.fails_between? _ _ _ _ xMin xMax) fun s => ?_
  cases s <;> simp

theorem fails_circleHit? (ray : Ray α) (x z radius : Value α) :
    Fails Fault.Own (circleHit? ray x z radius) := by
  refine fails_bind (Vantage.Form.fails_measure? _ x) fun x => ?_
  refine fails_bind (Vantage.Form.fails_measure? _ z) fun z => ?_
  refine fails_unless trivial (fails_bind radius.fails_number? fun radius => ?_)
  refine fails_bind radius.fails_square? fun _ => fails_ite (fails_pure none) ?_
  refine fails_bind x.fails_only? fun _ => fails_bind z.fails_only? fun _ => ?_
  exact fails_unless trivial (fails_pure _)

@[simp] theorem fails_hit? (ray : Ray α) (shape : Shape (Value α)) :
    Fails Fault.Own (shape.hit? ray) := by
  cases shape with
  | box xMin xMax zMin zMax => exact fails_boxHit? ray xMin xMax zMin zMax
  | circle x z radius => exact fails_circleHit? ray x z radius

end Shape

@[simp] theorem Hit.fails_within? (h : Hit α) (range : Value α) :
    Fails Fault.Own (h.within? range) := by
  unfold within?
  split <;> simp

@[simp] theorem Sighting.fails_below? (s : Sighting α) (limit : Value α) :
    Fails Fault.Own (s.below? limit) := by
  unfold below?
  split <;> simp

@[simp] theorem fails_heading? (angle : α) : Fails Fault.Own (heading? angle) := by
  simp [heading?]

namespace World

theorem fails_withObstacle? (ray : Ray α) (range : Value α) (nearest : Option (Hit α))
    (o : Obstacle α) : Fails Fault.Own (withObstacle? ray range nearest o) := by
  refine fails_bind (Shape.fails_hit? ray o.shape) fun h => ?_
  cases h <;> simp

@[simp] theorem fails_cast? (world : World α) (ray : Ray α) (range : Value α) :
    Fails Fault.Own (world.cast? ray range) := by
  refine fails_bind (fails_foldlM (fails_withObstacle? ray range) _ none) fun h => ?_
  cases h <;> simp

@[simp] theorem fails_scan? (world : World α) (origin : Vantage α) (rays range : Value α) :
    Fails Fault.Own (world.scan? origin rays range) := by
  have haround : ∀ n, Fails Fault.Own (world.around? origin n range) := fun n =>
    fails_mapM (fun i => by simp) _
  refine fails_bind rays.fails_number? fun n => ?_
  refine fails_unless trivial (fails_bind n.fails_scalar? fun _ => ?_)
  exact fails_bind n.fails_whole? fun _ => haround _

end World

/-! ### The map -/

namespace Grid

@[simp] theorem fails_size? (side density : Value α) : Fails Fault.Own (size? side density) := by
  refine fails_bind (side.fails_product? density) fun v => fails_bind v.fails_number? fun n => ?_
  cases n <;> simp

@[simp] theorem fails_extent? (side density : Value α) {empty : Fault α} (h : empty.Own) :
    Fails Fault.Own (extent? side density empty) := by
  refine fails_bind side.fails_number? fun s => fails_unless h ?_
  refine fails_bind density.fails_number? fun d => fails_unless h ?_
  exact fails_bind (fails_size? side density) fun _ => fails_unless h (fails_pure (s, d))

@[simp] theorem fails_new? (side density : Value α) : Fails Fault.Own (new? side density) := by
  refine fails_bind (fails_extent? side density trivial) fun ⟨s, d⟩ => ?_
  refine fails_bind (fails_size? side density) fun size => ?_
  exact fails_unless trivial (fails_unless trivial (fails_pure _))

@[simp] theorem fails_locate? (g : Grid α) (x z : α) : Fails Fault.Own (g.locate? x z) := by
  simp [locate?]

@[simp] theorem throws_markAt (mark : Grid α → Int → Int → Grid α) (origin : Vantage α)
    (sin cos distance : α) : Throws Fault.Own (markAt mark origin sin cos distance) :=
  throws_bind (throws_lift (origin.fails_along? sin cos distance)) fun ⟨x, z⟩ =>
    throws_bind throws_get fun g =>
      throws_bind (throws_lift (g.fails_locate? x z)) fun _ => throws_modify _

theorem throws_fuseReading (origin : Vantage α) {limit : Except (Fault α) (Value α)}
    (hlimit : Fails Fault.Own limit) (p : Reading α) :
    Throws Fault.Own (fuseReading origin limit p) := by
  refine throws_bind (throws_lift (Scalar.fails_sinCos? p.angle)) fun ⟨sin, cos⟩ => ?_
  refine throws_bind throws_get fun g => ?_
  refine throws_bind (throws_lift p.distance.value.fails_scalar?) fun distance => ?_
  refine throws_bind (throws_lift (Scalar.fails_floor? _)) fun steps => ?_
  refine throws_bind (throws_each fun step => throws_markAt _ _ _ _ _) fun _ => ?_
  refine throws_bind (throws_lift hlimit) fun limit => ?_
  exact throws_bind (throws_lift (p.distance.fails_below? limit)) fun _ => by simp

@[simp] theorem throws_fuseInto (scan : List (Reading α)) (origin : Vantage α)
    (side density range ratio : Value α) :
    Throws Fault.Own (fuseInto scan origin side density range ratio) := by
  refine throws_bind (throws_bind (throws_lift (fails_size? side density)) fun size => ?_)
    fun _ => throws_bind throws_get fun map => ?_
  · refine throws_bind throws_get fun map => throws_ite ?_ (throws_pure _)
    exact throws_bind (throws_lift (fails_new? side density)) fun _ => throws_set _
  · cases map with
    | none => exact throws_pure ()
    | some g =>
      exact throws_on (throws_each (throws_fuseReading origin (range.fails_product? ratio)))

end Grid

/-! ### The arm -/

theorem Feedback.throws_advance (strokeTime : Value α) (dt : α) :
    Throws Fault.Own (advance strokeTime dt) := by
  have htravel : ∀ time step : α, Throws Fault.Own (travel time step dt) := fun time step =>
    throws_bind throws_get fun before => throws_bind (throws_modify _) fun _ =>
      throws_bind (throws_lift before.maxEffort.fails_number?) fun _ => throws_modify _
  refine throws_bind throws_get fun s => throws_ite (throws_pure _) ?_
  refine throws_bind (throws_modify _) fun _ => ?_
  refine throws_bind (throws_lift strokeTime.fails_scalar?) fun time => ?_
  exact throws_bind (throws_lift (Scalar.fails_divide? dt time)) fun step =>
    throws_on (htravel time step)

/-! ### The rover -/

namespace Station

@[simp] theorem fails_limited? (limit : Value α) (v : α) : Fails Fault.Own (limited? limit v) := by
  simp [limited?]

@[simp] theorem throws_setVelocities (driving : Settings.Driving α) (vx wz : α) (time : Option α) :
    Throws Fault.Own (setVelocities driving vx wz time) :=
  throws_bind (throws_lift (fails_limited? _ vx)) fun _ => throws_bind (throws_modify _) fun _ =>
    throws_bind (throws_lift (fails_limited? _ wz)) fun _ => throws_modify _

theorem throws_addSample (now : α) (window : Value α) :
    Throws Fault.Own (addSample now window) :=
  throws_bind (throws_modify _) fun _ =>
    throws_bind (throws_lift window.fails_scalar?) fun _ => throws_modify _

end Station

namespace Drive

@[simp] theorem fails_power? (friction exponent : α) :
    Fails Fault.Own (power? friction exponent) := by
  refine fails_ite (by simp) (fails_ite ?_ ?_)
  · exact fails_ite (by simp) (by simp)
  · exact fails_ite (by simp) (by simp)

@[simp] theorem fails_decay? (driving : Settings.Driving α) (dt : α) :
    Fails Fault.Own (decay? driving dt) := by
  refine fails_bind driving.frictionRate.fails_scalar? fun rate => ?_
  exact fails_bind driving.friction.fails_scalar? fun friction => fails_power? friction _

@[simp] theorem fails_stalled? (driving : Settings.Driving α) (speed : α) :
    Fails Fault.Own (stalled? driving speed) := by
  simp [stalled?]

@[simp] theorem fails_complexSpeed? (v re im : α) : Fails Fault.Own (complexSpeed? v re im) := by
  simp [complexSpeed?]

theorem throws_slowed? (driving : Settings.Driving α) (dt : α) (vx wz : Number α) :
    Throws Fault.Own (slowed? driving dt vx wz) := by
  refine throws_bind (throws_lift (fails_decay? driving dt)) fun decay => ?_
  refine throws_bind (throws_lift vx.fails_scalar?) fun vx => ?_
  refine throws_bind (throws_lift wz.fails_scalar?) fun wz => ?_
  cases decay with
  | factor d =>
    have hfloored : ∀ v : α, Fails Fault.Own (do
        return if ← stalled? driving (Scalar.abs v) then 0 else v) := fun v =>
      fails_bind (fails_stalled? driving _) fun _ => fails_pure _
    refine throws_bind (throws_lift (hfloored (vx * d))) fun vx => ?_
    refine throws_bind (throws_lift (hfloored (wz * d))) fun wz => ?_
    exact throws_bind (Station.throws_setVelocities driving vx wz none) fun _ => throws_pure _
  | complex re im =>
    have hstopped : ∀ v : α, Fails Fault.Own (do stalled? driving (← complexSpeed? v re im)) :=
      fun v => fails_bind (fails_complexSpeed? v re im) fun _ => fails_stalled? driving _
    refine throws_bind (throws_lift (hstopped vx)) fun vxStopped => ?_
    refine throws_bind (throws_lift (hstopped wz)) fun wzStopped => ?_
    refine throws_when (throws_throw trivial) ?_
    refine throws_bind (throws_lift (Station.fails_limited? _ 0)) fun _ => ?_
    refine throws_bind (throws_modify _) fun _ => throws_when (throws_throw trivial) ?_
    exact throws_bind (Station.throws_setVelocities driving 0 0 none) fun _ => throws_pure _

@[simp] theorem fails_stale? (driving : Settings.Driving α) (r : Rover α) (now : α) :
    Fails Fault.Own (stale? driving r now) := by
  unfold stale?
  split <;> simp

@[simp] theorem fails_height? (v : Value α) : Fails Fault.Own (height? v) := by
  cases v <;> simp [height?]

theorem throws_displace (vx wz dt : α) : Throws Fault.Own (displace vx wz dt) := by
  refine throws_bind throws_get fun s => throws_when (throws_modify _) ?_
  refine throws_ite ?_ (throws_pure _)
  refine throws_bind (throws_lift (Scalar.fails_sinCos? _)) fun ⟨sin, cos⟩ => ?_
  refine throws_when (throws_throw trivial) ?_
  exact throws_bind (throws_lift (fails_height? _)) fun _ => throws_modify _

theorem throws_advance (driving : Settings.Driving α) (dt now : α) :
    Throws Fault.Own (advance driving dt now) := by
  refine throws_bind throws_get fun s => throws_ite (throws_pure _) ?_
  refine throws_bind (throws_lift (fails_stale? driving s.rover now)) fun stale => ?_
  refine throws_when (Station.throws_setVelocities driving 0 0 none) ?_
  have hrest : ∀ v : α × α, Throws Fault.Own (do
      displace v.1 v.2 dt
      Station.addSample now driving.historyTime) := fun v =>
    throws_bind (throws_displace v.1 v.2 dt) fun _ => Station.throws_addSample now _
  refine throws_ite (throws_bind (throws_slowed? driving dt _ _) hrest) ?_
  exact throws_bind (throws_pure (0, 0)) hrest

end Drive

/-! ### The sensors -/

namespace Sensors

@[simp] theorem fails_fresh? (last : Option α) (now : α) (interval : Value α) :
    Fails Fault.Own (fresh? last now interval) := by
  cases last <;> simp [fresh?]

theorem throws_lookAhead (senses : Settings.Senses α) (world : World α) (now : α) :
    Throws Fault.Own (lookAhead senses world now) := by
  refine throws_bind throws_get fun s => ?_
  refine throws_bind (throws_lift (fails_fresh? _ now _)) fun _ => throws_ite (throws_pure _) ?_
  refine throws_bind (throws_modify _) fun _ => ?_
  refine throws_bind (throws_lift (fails_heading? _)) fun direction => ?_
  refine throws_bind (throws_lift (world.fails_cast? _ senses.range)) fun sighting => ?_
  refine throws_bind (throws_lift sighting.value.fails_numeric?) fun reading => ?_
  exact throws_bind (throws_modify _) fun _ => throws_pure _

theorem throws_refresh (senses : Settings.Senses α) (mapping : Settings.Mapping α)
    (world : World α) (now : α) : Throws Fault.Own (refresh senses mapping world now) := by
  have hscan : Throws Fault.Own (scanAround senses mapping world) :=
    throws_bind throws_get fun s =>
      throws_bind (throws_lift (world.fails_scan? _ _ senses.range)) fun scan =>
        throws_bind (throws_modify _) fun _ => throws_on (Grid.throws_fuseInto _ _ _ _ _ _)
  refine throws_bind throws_get fun s => throws_ite (throws_pure _) ?_
  refine throws_bind (throws_lookAhead senses world now) fun _ => throws_bind throws_get fun s => ?_
  refine throws_bind (throws_lift (fails_fresh? _ now _)) fun _ => throws_ite (throws_pure _) ?_
  exact throws_bind (throws_modify _) fun _ => hscan

end Sensors

end ArmRover
