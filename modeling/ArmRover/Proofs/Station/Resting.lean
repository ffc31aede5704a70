import ArmRover.Proofs.Arm.Advance
import ArmRover.Proofs.Settings.Standard
import ArmRover.Rover.Drive
import ArmRover.Rover.Sensors

/-!
# A rover at rest

With the built-in settings and an empty world, time never fails for a rover that does not move: all
its sensors see is their range. Its first scan makes the map.

* `Station.Resting` — the rover is active and does not move.
* `World.scan?_nil` — a scan of the empty world.
* `Grid.yields_fuseInto` — fusing such a scan into the map.
* `Drive.yields_advance`, `Sensors.yields_refresh` — time passes.
-/

namespace ArmRover

open ArmRover.Action

/-- The rover is active and at rest, and its height is a number. -/
structure Station.Resting (st : Station ℝ) : Prop where
  active : st.active = .rover
  vx : st.rover.vx = .real (Scalar.ofInt 0)
  wz : st.rover.wz = .real (Scalar.ofInt 0)
  lastCommand : st.rover.lastCommand = none
  height : ∃ h, st.rover.height = .real h

/-- The rover is at rest, and the lidar looked last at a certain time, if it did. -/
def Station.Scanned (last : Option ℝ) (st : Station ℝ) : Prop := st.Resting ∧ st.gates.scan = last

/-! ### Nothing to see -/

theorem World.around?_nil (origin : Vantage ℝ) (n : Nat) (range : Value ℝ) :
    World.around? [] origin n range =
      .ok ((List.range n).map fun i => ⟨World.rayAngle n i, .plain range⟩) :=
  List.mapM_pure

theorem World.scan?_nil (origin : Vantage ℝ) {rays : Int} (hrays : 1 ≤ rays) (range : Value ℝ) :
    World.scan? [] origin (.number (.whole rays)) range =
      .ok ((List.range rays.toNat).map fun i => ⟨World.rayAngle rays.toNat i, .plain range⟩) := by
  have hscalar : (Number.whole rays : Number ℝ).scalar? = .ok (Scalar.ofInt rays) := rfl
  unfold World.scan?
  rw [Value.number?_number]
  show (do
    if (Number.whole rays : Number ℝ).below (Scalar.ofInt 1) then
      throw (Fault.rayCount (.number (.whole rays)))
    let _ ← (Number.whole rays : Number ℝ).scalar?
    World.around? [] origin (← (Number.whole rays : Number ℝ).whole?).toNat range :
    Except (Fault ℝ) _) = _
  rw [Number.whole_below_one hrays, hscalar]
  exact World.around?_nil origin _ range

/-! ### The map -/

namespace Grid

theorem yields_markAt (mark : Grid ℝ → Int → Int → Grid ℝ) {origin : Vantage ℝ}
    (horigin : origin.form ≠ .text) (sin cos distance : ℝ) :
    Yields (fun _ => True) (markAt mark origin sin cos distance) fun _ _ => True := by
  unfold markAt
  refine yields_lift (if_neg horigin) ?_
  refine yields_get fun g _ => ?_
  refine yields_lift (rfl : g.locate? _ _ = .ok (g.locate _ _)) ?_
  exact yields_modify fun _ _ => trivial

theorem yields_fuse {scan : List (Reading ℝ)} {origin : Vantage ℝ} {range ratio : ℝ}
    (horigin : origin.form ≠ .text) (hscan : ∀ p ∈ scan, p.distance = .plain (.real range)) :
    Yields (fun _ => True) (fuse scan origin (.real range) (.real ratio)) fun _ _ => True := by
  refine yields_each fun p hp => ?_
  unfold fuseReading
  rw [hscan p hp]
  refine yields_lift (Scalar.sinCos?_real _) ?_
  refine yields_get fun g _ => yields_of (V := fun _ => True) (fun _ _ => trivial) ?_
  refine yields_lift (Value.scalar?_real range) ?_
  refine yields_lift (Scalar.floor?_real _) ?_
  refine yields_bind (yields_each fun _ _ => yields_markAt _ horigin _ _ _) fun _ => ?_
  refine yields_lift (Value.product?_real range ratio) ?_
  refine yields_lift (Sighting.below?_plain_real range _) ?_
  exact yields_ite (fun _ => yields_markAt _ horigin _ _ _) fun _ => yields_pure fun _ _ => trivial

/-- A scan of the empty world makes a map, or goes into the one that there is. -/
theorem yields_fuseInto {scan : List (Reading ℝ)} {origin : Vantage ℝ} {range ratio : ℝ}
    (horigin : origin.form ≠ .text) (hscan : ∀ p ∈ scan, p.distance = .plain (.real range)) :
    Yields (fun _ => True)
      (fuseInto scan origin (.number (.whole 10)) (.number (.whole 5)) (.real range) (.real ratio))
      fun _ map => map.isSome = true := by
  have hprepare : Yields (fun _ => True)
      (prepare (.number (.whole 10)) (.number (.whole 5)) : Action ℝ (Option (Grid ℝ)) Unit)
      fun _ map => map.isSome = true := by
    unfold prepare
    refine yields_lift Settings.size?_standard ?_
    refine yields_get fun map _ => ?_
    refine yields_ite (fun _ => ?_) fun hsize => ?_
    · obtain ⟨g, hg⟩ := Settings.new?_standard
      exact yields_lift hg (yields_modify fun _ _ => rfl)
    · cases map with
      | none => exact absurd rfl hsize
      | some g => exact yields_pure fun _ h => h ▸ rfl
  refine yields_bind hprepare fun _ => ?_
  unfold fuseIfAny
  refine yields_get fun map hmap => ?_
  cases map with
  | none => cases hmap
  | some g =>
    exact yields_on (fun _ _ => trivial) (yields_fuse horigin hscan) fun _ _ _ _ _ => rfl

end Grid

/-! ### Time -/

namespace Station.Resting

theorem form_ne_text {st : Station ℝ} (h : st.Resting) : st.rover.ground.form ≠ .text := by
  obtain ⟨x, hx⟩ := h.height
  show Rover.form st.rover.height ≠ .text
  rw [hx]
  exact nofun

end Station.Resting

/-- The arm does not move while the rover is active. -/
theorem Feedback.yields_advance_of_rover (stroke : Value ℝ) (dt : ℝ) {st : Station ℝ}
    (h : st.active = .rover) : Yields (· = st) (Feedback.advance stroke dt) fun _ t => t = st := by
  intro t ht
  have hactive : t.active ≠ .arm := by
    rw [ht, h]
    decide
  exact ⟨(), t, advance_of_idle stroke (.inl hactive), ht⟩

theorem Feedback.yields_advance (stroke : Value ℝ) (dt : ℝ) (gate : Option ℝ) :
    Yields (Station.Scanned gate) (Feedback.advance stroke dt) fun _ => Station.Scanned gate := by
  intro st hst
  obtain ⟨_, t, hrun, rfl⟩ := yields_advance_of_rover stroke dt hst.1.active st rfl
  exact ⟨_, _, hrun, hst⟩

/-- A rover at rest stays where it is. -/
theorem Drive.yields_advance_of_resting (dt now : ℝ) {st : Station ℝ} (hst : st.Resting) :
    Yields (· = st) (Drive.advance Settings.standard.driving dt now)
      fun _ t => ∃ history, t = { st with rover := { st.rover with history } } := by
  have hstop : ((Scalar.ofInt 0 : ℝ) == Scalar.ofInt 0) = true := beq_self_eq_true _
  have hmoving : moving (.real (Scalar.ofInt 0) : Number ℝ) (.real (Scalar.ofInt 0)) = false := by
    show (!((Scalar.ofInt 0 : ℝ) == Scalar.ofInt 0) || !((Scalar.ofInt 0 : ℝ) == Scalar.ofInt 0)) =
      false
    rw [hstop]
    rfl
  have hstale : stale? Settings.standard.driving st.rover now = .ok false := by
    unfold stale?
    rw [hst.lastCommand]
    rfl
  unfold Drive.advance
  refine yields_get fun st' hst' => ?_
  subst hst'
  rw [if_neg (not_not.mpr hst.active)]
  refine yields_lift hstale ?_
  rw [if_neg Bool.false_ne_true]
  dsimp only
  rw [if_neg Bool.false_ne_true, if_neg Bool.false_ne_true, hst.vx, hst.wz, hmoving,
    if_neg Bool.false_ne_true, pure_bind]
  -- the rover does not move, so that all that changes is its history
  refine yields_bind (Q := fun _ t => t = st') ?_ fun _ => ?_
  · unfold displace
    refine yields_get fun t ht => ?_
    rw [if_neg (by simp), if_neg (by simp)]
    exact yields_pure fun _ h => h.trans ht
  · unfold Station.addSample
    refine yields_bind
      (Q := fun _ t => ∃ history, t = { st' with rover := { st'.rover with history } })
      (yields_modify fun t ht => ?_) fun _ => ?_
    · exact ⟨_, by rw [ht]⟩
    · refine yields_lift (Value.scalar?_real _) ?_
      refine yields_modify fun t ht => ?_
      obtain ⟨history, rfl⟩ := ht
      dsimp only
      rw [hst.vx, hst.wz]
      exact ⟨_, rfl⟩

theorem Drive.yields_advance (dt now : ℝ) (gate : Option ℝ) :
    Yields (Station.Scanned gate) (Drive.advance Settings.standard.driving dt now)
      fun _ => Station.Scanned gate := by
  intro st hst
  obtain ⟨_, t, hrun, history, rfl⟩ := yields_advance_of_resting dt now hst.1 st rfl
  exact ⟨_, _, hrun, { hst.1 with }, hst.2⟩

theorem Sensors.yields_lookAhead (now : ℝ) (gate : Option ℝ) :
    Yields (Station.Scanned gate) (Sensors.lookAhead Settings.standard.senses [] now)
      fun _ => Station.Scanned gate := by
  unfold Sensors.lookAhead
  refine yields_get fun st hst => yields_of (V := Station.Scanned gate) (fun _ h => h ▸ hst) ?_
  have hfresh : ∃ fresh, fresh? st.gates.distance now (.real Settings.standard.senses.interval) =
      .ok fresh := by
    unfold fresh?
    cases st.gates.distance with
    | none => exact ⟨_, rfl⟩
    | some last => exact ⟨_, rfl⟩
  obtain ⟨fresh, hfresh⟩ := hfresh
  refine yields_lift hfresh ?_
  refine yields_ite (fun _ => yields_pure fun _ h => h) fun _ => ?_
  refine yields_bind (Q := fun _ => Station.Scanned gate) (yields_modify fun t ht => ?_)
    fun _ => ?_
  · exact ⟨{ ht.1 with }, ht.2⟩
  refine yields_lift (rfl : heading? _ = .ok _) ?_
  refine yields_lift (rfl : World.cast? [] _ _ = .ok (.plain _)) ?_
  refine yields_lift (Value.numeric?_real _) ?_
  refine yields_bind (Q := fun _ => Station.Scanned gate) (yields_modify fun t ht => ?_)
    fun _ => ?_
  · exact ⟨{ ht.1 with }, ht.2⟩
  exact yields_pure fun _ h => h

theorem Sensors.yields_scanAround (now : ℝ) :
    Yields (Station.Scanned (some now))
      (Sensors.scanAround Settings.standard.senses Settings.standard.mapping [])
      fun _ st => st.Scanned (some now) ∧ st.map.isSome = true := by
  unfold Sensors.scanAround
  refine yields_get fun st hst => ?_
  have hscan := World.scan?_nil st.rover.ground (by decide : (1 : Int) ≤ 36)
    Settings.standard.senses.range
  refine yields_lift hscan ?_
  refine yields_bind (Q := fun _ => Station.Scanned (some now)) (yields_modify fun t ht => ?_)
    fun _ => ?_
  · rw [ht]
    exact ⟨{ hst.1 with }, hst.2⟩
  refine yields_on (fun _ _ => trivial) (Grid.yields_fuseInto hst.1.form_ne_text ?_) ?_
  · intro p hp
    obtain ⟨i, -, rfl⟩ := List.mem_map.mp hp
    rfl
  · intro t _ map ht hmap
    exact ⟨⟨{ ht.1 with }, ht.2⟩, hmap⟩

/-- The sensors see nothing. The first scan makes the map. -/
theorem Sensors.yields_refresh (now : ℝ) (gate : Option ℝ) :
    Yields (Station.Scanned gate)
      (Sensors.refresh Settings.standard.senses Settings.standard.mapping [] now)
      fun _ st => st.Resting ∧ (gate = none → st.map.isSome = true) := by
  unfold Sensors.refresh
  refine yields_get fun st hst => yields_of (V := Station.Scanned gate) (fun _ h => h ▸ hst) ?_
  rw [if_neg (not_not.mpr hst.1.active)]
  refine yields_bind (yields_lookAhead now gate) fun _ => ?_
  refine yields_get fun st hst => yields_of (V := Station.Scanned gate) (fun _ h => h ▸ hst) ?_
  -- the sensor is not asked again too soon, and the first time it is asked
  have hfresh : ∃ fresh,
      fresh? st.gates.scan now Settings.standard.senses.scanInterval = .ok fresh ∧
        (fresh = true → gate ≠ none) := by
    unfold fresh?
    rw [hst.2]
    cases gate with
    | none => exact ⟨false, rfl, nofun⟩
    | some last => exact ⟨_, rfl, fun _ => nofun⟩
  obtain ⟨fresh, hfresh, hgate⟩ := hfresh
  refine yields_lift hfresh ?_
  refine yields_ite (fun h => yields_pure fun _ ht => ⟨ht.1, fun hg => absurd hg (hgate h)⟩)
    fun _ => ?_
  refine yields_bind (Q := fun _ => Station.Scanned (some now)) (yields_modify fun t ht => ?_)
    fun _ => ?_
  · exact ⟨{ ht.1 with }, rfl⟩
  · intro t ht
    obtain ⟨_, u, hrun, hu⟩ := yields_scanAround now t ht
    exact ⟨_, u, hrun, hu.1.1, fun _ => hu.2⟩

end ArmRover
