import ArmRover.Proofs.Execution.Plan
import ArmRover.Proofs.Rover.Velocity
import ArmRover.Proofs.Simulation.Limits
import ArmRover.Proofs.World.Range

/-!
# The envelope of the rover at every moment

The velocities, the distance and the scan of the rover are written by commands, by friction and the
watchdog, by two sensors and by whatever brings the rover home. None of them can take a velocity
past its limit or store a length past the range of the sensors, however strong the friction is,
also for a time that runs backwards; and a scan is stored as a whole or not at all.

* `Intervention` — what can be done to a simulation and its rover, `Simulation.intervene` — doing
  it, `Simulation.allMoments` — the moments of many interventions.
* `Station.Enduring.intervene`, `Station.Enduring.allMoments` — what nothing breaks.
* `Rover.Enveloped` — the envelope, `Station.unbroken_enveloped` — nothing breaks it.
* `rover_stays_in_envelope` — so the rover is in it at all moments.
-/

namespace ArmRover

open ArmRover.Action

/-! ### Interventions -/

/-- What can be done to a simulation and its rover: operations, the writes to the rover that are
open to everyone, and changes of the world. -/
inductive Intervention (α : Type) where
  | operation (op : Operation α)
  /-- Set the velocities, as a command if a time is given. -/
  | drive (vx wz : α) (time : Option α)
  | place (p : Point α)
  | turn (heading : α)
  | light (color : String)
  | build (obstacles : World α)
  | clear

namespace Simulation

variable {α : Type} [Scalar α]

/-- The simulation after an intervention, also when that fails. -/
def intervene (cfg : Settings α) (s : Simulation α) : Intervention α → Simulation α
  | .operation op => s.operate cfg op
  | .drive vx wz time => final (onStation (Station.setVelocities cfg.driving vx wz time) s)
  | .place p => final (onStation (modify fun t => t.moveTo p) s)
  | .turn heading => final (onStation (modify fun t => t.turnTo heading) s)
  | .light color => final (onStation (modify fun t => t.setColor color) s)
  | .build obstacles => s.addObstacles obstacles
  | .clear => s.clearWorld

/-- The moments of an intervention before its end. -/
def duringIntervention (cfg : Settings α) (s : Simulation α) :
    Intervention α → List (Simulation α)
  | .operation op => s.duringOperation cfg op
  | _ => []

/-- The moments of interventions, one after the other. -/
def allMoments (cfg : Settings α) (s : Simulation α) : List (Intervention α) → List (Simulation α)
  | [] => [s]
  | act :: rest => (s :: s.duringIntervention cfg act) ++ allMoments cfg (s.intervene cfg act) rest

end Simulation

/-- The last moment is what the interventions lead to. -/
theorem Simulation.foldl_intervene_mem_allMoments {α : Type} [Scalar α] (cfg : Settings α)
    (s : Simulation α) (acts : List (Intervention α)) :
    acts.foldl (intervene cfg) s ∈ s.allMoments cfg acts := by
  induction acts generalizing s with
  | nil => exact List.mem_cons_self
  | cons act rest ih => exact List.mem_append_right _ (ih (s.intervene cfg act))

namespace Station.Enduring

variable {α : Type} [Scalar α] {cfg : Settings α} {P : Station α → Prop} {s : Simulation α}

/-- Interventions keep what endures. -/
theorem intervene (h : Enduring cfg P) (act : Intervention α) (hs : P s.scene.station) :
    P (s.intervene cfg act).scene.station := by
  have hwrite : ∀ {write : Action α (Station α) Unit}, Preserves P write →
      P (final (Simulation.onStation write s)).scene.station := fun hact =>
    Simulation.preserves_station hact s hs
  cases act with
  | operation op => exact h.operate op hs
  | drive vx wz time => exact hwrite (h.kept.driven vx wz time)
  | place p => exact hwrite (preserves_modify fun t ht => h.steered.placed t p ht)
  | turn heading => exact hwrite (preserves_modify fun t ht => h.steered.turned t heading ht)
  | light color => exact hwrite (preserves_modify fun t ht => h.kept.lit t color ht)
  | build obstacles => exact hs
  | clear => exact hs

theorem duringIntervention (h : Enduring cfg P) (act : Intervention α) (hs : P s.scene.station) :
    ∀ t ∈ s.duringIntervention cfg act, P t.scene.station := by
  cases act with
  | operation op => exact h.duringOperation op hs
  | _ => exact List.forall_mem_nil _

theorem allMoments (h : Enduring cfg P) (acts : List (Intervention α)) (hs : P s.scene.station) :
    ∀ t ∈ s.allMoments cfg acts, P t.scene.station := by
  induction acts generalizing s with
  | nil => exact List.forall_mem_singleton.mpr hs
  | cons act rest ih =>
    refine List.forall_mem_append.mpr ⟨List.forall_mem_cons.mpr ⟨hs, ?_⟩, ?_⟩
    · exact h.duringIntervention act hs
    · exact ih (h.intervene act hs)

end Station.Enduring

theorem Station.Unbroken.allMoments {α : Type} [Scalar α] {cfg : Settings α}
    {P : Station α → Prop} {s : Simulation α} (h : Unbroken cfg P) (acts : List (Intervention α))
    (hs : P s.scene.station) : ∀ t ∈ s.allMoments cfg acts, P t.scene.station :=
  h.enduring.allMoments acts hs

/-! ### The envelope -/

/-- Velocities within their limits, lengths within the range of the sensors, and a scan of evenly
spread rays, if there is one. -/
structure Rover.Enveloped (cfg : Settings ℝ) (r : Rover ℝ) : Prop extends
    r.Within cfg.driving where
  distance : r.distance.InRange cfg.senses.range.amount
  readings : ∀ p ∈ r.scan, p.distance.InRange cfg.senses.range.amount
  spread : r.scan = [] ∨ ∃ n : ℕ, cfg.senses.rays = .whole n ∧ 0 < n ∧
    r.scan.map Reading.angle = (List.range n).map (World.rayAngle n)

namespace Rover.Enveloped

variable {cfg : Settings ℝ} {r r' : Rover ℝ}

/-- All else may change. -/
theorem of_eq (h : r.Enveloped cfg) (hvx : r'.vx = r.vx) (hwz : r'.wz = r.wz)
    (hdistance : r'.distance = r.distance) (hscan : r'.scan = r.scan) : r'.Enveloped cfg where
  vx := hvx ▸ h.vx
  wz := hwz ▸ h.wz
  distance := hdistance ▸ h.distance
  readings := hscan ▸ h.readings
  spread := hscan ▸ h.spread

theorem home (hbounded : cfg.driving.Bounded) (hrange : cfg.senses.range.IsNumber)
    (hnonneg : 0 ≤ cfg.senses.range.amount) :
    (Rover.home cfg.driving cfg.senses).Enveloped cfg where
  toWithin := Rover.within_home cfg.senses hbounded
  distance := ⟨hrange, hnonneg, le_refl _⟩
  readings := List.forall_mem_nil _
  spread := .inl rfl

/-- A new scan. -/
theorem of_scan? (h : r.Enveloped cfg) (hrange : cfg.senses.range.IsNumber)
    (hnonneg : 0 ≤ cfg.senses.range.amount) {world : World ℝ} {ground : Vantage ℝ}
    {scan : List (Reading ℝ)}
    (hscan : world.scan? ground (.number cfg.senses.rays) cfg.senses.range = .ok scan) :
    ({ r with scan } : Rover ℝ).Enveloped cfg := by
  obtain ⟨n, hrays, hpos, haround⟩ := World.of_scan? hscan
  exact { h with
    readings := World.inRange_of_around? hrange hnonneg haround
    spread := .inr ⟨n, Except.ok.inj hrays, hpos, World.angles_of_around? haround⟩ }

/-- The readings of a scan in order. -/
theorem scan_eq_nil_or (h : r.Enveloped cfg) :
    r.scan = [] ∨ ∃ n : ℕ, cfg.senses.rays = .whole n ∧ r.scan.length = n ∧
      (∀ i (_ : i < r.scan.length), r.scan[i].angle = i * (2 * Real.pi / n)) ∧
      r.scan.Pairwise fun p q => p.angle < q.angle := by
  refine h.spread.imp_right fun ⟨n, hrays, hpos, hangles⟩ => ⟨n, hrays, ?_, fun i hi => ?_, ?_⟩
  · have hlength := congrArg List.length hangles
    rwa [List.length_map, List.length_map, List.length_range] at hlength
  · have hget := List.getElem_of_eq hangles (by rwa [List.length_map] : i < _)
    rwa [List.getElem_map, List.getElem_map, List.getElem_range, World.rayAngle_real] at hget
  · have hordered : ((List.range n).map (World.rayAngle n : Nat → ℝ)).Pairwise (· < ·) :=
      List.pairwise_lt_range.map _ fun _ _ hij => World.strictMono_rayAngle hpos hij
    rw [← hangles] at hordered
    exact List.pairwise_map.mp hordered

end Rover.Enveloped

/-- No write, no request and no time bring the rover out of its envelope. -/
theorem Station.unbroken_enveloped {cfg : Settings ℝ} (hbounded : cfg.driving.Bounded)
    (hrange : cfg.senses.range.IsNumber) (hnonneg : 0 ≤ cfg.senses.range.amount) :
    Station.Unbroken cfg fun s => s.rover.Enveloped cfg := by
  have hpaced : Station.Paced cfg.driving fun s : Station ℝ => s.rover.Enveloped cfg :=
    { ahead := fun _ _ _ hvx h => { h with
        vx := abs_le_of_limited? hbounded.linear hbounded.linear_nonneg hvx }
      turning := fun _ _ _ hwz h => { h with
        wz := abs_le_of_limited? hbounded.angular hbounded.angular_nonneg hwz } }
  exact
    { handled := ⟨fun _ _ _ _ h => h, fun _ _ _ _ h => h⟩
      steered := { hpaced with
        placed := fun _ _ h => h.of_eq rfl rfl rfl rfl
        turned := fun _ _ h => h.of_eq rfl rfl rfl rfl
        logged := fun _ _ h => h.of_eq rfl rfl rfl rfl }
      kept :=
        { turned := fun _ _ _ h => h
          posed := fun _ _ h => h
          previewed := fun _ _ h => h
          gripped := fun _ _ _ h => h
          driven := fun vx wz _ =>
            preserves_setVelocities_of hpaced vx wz fun _ h => h.of_eq rfl rfl rfl rfl
          lit := fun _ _ h => h.of_eq rfl rfl rfl rfl }
      switched := fun _ _ h => h
      homeArm := fun _ h => h
      homeRover := fun _ _ => .home hbounded hrange hnonneg
      reset := fun _ h => h
      refreshed := fun world _ => by
        refine Sensors.preserves_refresh (Sensors.preserves_lookAhead_of (fun _ h => h) ?_)
          (fun _ h => h) (Sensors.preserves_scanAround_of ?_ fun _ _ h => h)
        · intro s ray sighting d hcast hd h
          have hd := (World.inRange_of_cast? hrange hnonneg hcast).of_numeric? hd
          exact { h with distance := hd }
        · intro s ground scan hscan h
          exact h.of_scan? hrange hnonneg hscan }

/-- Whatever is done to a new simulation and its rover, in whatever world and with whatever
friction: at every moment, between two interventions and whenever a program waits or ends within
one, the velocities are within their limits, the distance and every reading of the scan are lengths
from zero to the range, and a scan has a reading for every ray, at evenly spread angles in order. -/
theorem rover_stays_in_envelope (cfg : Settings ℝ) (hbounded : cfg.driving.Bounded)
    (hrange : cfg.senses.range.IsNumber) (hnonneg : 0 ≤ cfg.senses.range.amount)
    (world : World ℝ) (acts : List (Intervention ℝ)) :
    ∀ s ∈ (Simulation.new cfg world).allMoments cfg acts,
      let r := s.scene.station.rover
      |r.vx.value| ≤ cfg.driving.maxLinear.amount ∧
        |r.wz.value| ≤ cfg.driving.maxAngular.amount ∧
        r.distance.InRange cfg.senses.range.amount ∧
        (∀ p ∈ r.scan, p.distance.InRange cfg.senses.range.amount) ∧
        (r.scan = [] ∨ ∃ n : ℕ, cfg.senses.rays = .whole n ∧ r.scan.length = n ∧
          (∀ i (_ : i < r.scan.length), r.scan[i].angle = i * (2 * Real.pi / n)) ∧
          r.scan.Pairwise fun p q => p.angle < q.angle) := by
  intro s hs r
  have henveloped : r.Enveloped cfg :=
    (Station.unbroken_enveloped hbounded hrange hnonneg).allMoments acts
      (Rover.Enveloped.home hbounded hrange hnonneg) s hs
  exact ⟨henveloped.vx, henveloped.wz, henveloped.distance, henveloped.readings,
    henveloped.scan_eq_nil_or⟩

/-! ### A scan -/

namespace Sensors

/-- The lidar stores what it sees, and drawing the map leaves that alone. -/
theorem scan?_of_scanAround {α : Type} [Scalar α] {senses : Settings.Senses α}
    {mapping : Settings.Mapping α} {world : World α} {s t : Station α}
    (h : scanAround senses mapping world s = .ok () t) :
    world.scan? s.rover.ground (.number senses.rays) senses.range = .ok t.rover.scan := by
  unfold scanAround at h
  rw [run_get_bind] at h
  obtain ⟨scan, _, hrun, h⟩ := exists_of_bind_eq_ok h
  obtain ⟨hscan, rfl⟩ := of_lift_eq_ok hrun
  obtain ⟨_, u, ⟨⟩, h⟩ := exists_of_bind_eq_ok h
  have hkept : ∀ draw : Action α (Option (Grid α)) Unit,
      Preserves (fun v : Station α => v.rover.scan = scan)
        (on Station.map (fun s map => { s with map }) draw) := fun draw =>
    preserves_on (V := fun _ => True) (fun _ _ => trivial) (fun _ _ => trivial) fun _ _ hv _ => hv
  rw [(hkept _).of_ok h rfl]
  exact hscan

variable {senses : Settings.Senses ℝ} {mapping : Settings.Mapping ℝ} {world : World ℝ} {now : ℝ}
  {s t : Station ℝ}

/-- A lidar that has not looked yet does so. -/
theorem scan_ne_nil_of_refresh (h : refresh senses mapping world now s = .ok () t)
    (hactive : s.active = .rover) (hgate : s.gates.scan = none) : t.rover.scan ≠ [] := by
  unfold refresh at h
  rw [run_get_bind, if_neg (not_not_intro hactive)] at h
  obtain ⟨_, u, hlook, h⟩ := exists_of_bind_eq_ok h
  have hkept : Preserves (fun v : Station ℝ => v.gates.scan = none)
      (lookAhead senses world now) := preserves_lookAhead (fun _ hv => hv) fun _ _ hv => hv
  have hnone : u.gates.scan = none := hkept.of_ok hlook hgate
  rw [run_get_bind, hnone] at h
  obtain ⟨fresh, _, hrun, h⟩ := exists_of_bind_eq_ok h
  obtain ⟨hfresh, rfl⟩ := of_lift_eq_ok hrun
  obtain rfl : false = fresh := Except.ok.inj hfresh
  obtain ⟨_, v, ⟨⟩, h⟩ := exists_of_bind_eq_ok h
  obtain ⟨n, -, hpos, haround⟩ := World.of_scan? (scan?_of_scanAround h)
  have hlength := congrArg List.length (World.angles_of_around? haround)
  rw [List.length_map, List.length_map, List.length_range] at hlength
  rw [← List.length_pos_iff_ne_nil, hlength]
  exact hpos

end Sensors

/-- A rover of the built-in settings looks around and is then sent much too fast. It keeps to its
limits and to its scan. -/
theorem rover_stays_in_envelope_sent_too_fast :
    let cfg : Settings ℝ := .standard
    ∃ s ∈ (Simulation.new cfg []).allMoments cfg [.operation (.select .rover),
        .operation (.request (.frame cfg.run.frameTime)), .drive 100 (-100) none],
      let r := s.scene.station.rover
      r.vx.value = 2 ∧ r.wz.value = -(3 / 2) ∧ r.scan.length = 36 ∧
        ∀ i (_ : i < r.scan.length), r.scan[i].angle = i * (2 * Real.pi / 36) := by
  intro cfg
  let acts : List (Intervention ℝ) := [.operation (.select .rover),
    .operation (.request (.frame cfg.run.frameTime)), .drive 100 (-100) none]
  let built : Simulation ℝ := (Simulation.new cfg []).operate cfg (.select .rover)
  obtain ⟨_, t, hpass, -⟩ := Simulation.yields_pass_resting cfg.run.frameTime none built
    ⟨⟨⟨rfl, rfl, rfl, rfl, ⟨_, rfl⟩⟩, rfl⟩, rfl⟩
  obtain ⟨hstation, -, -⟩ := Simulation.serve_of_none cfg (Simulation.passed_of_pass hpass).job
  have hlooked : t.scene.station.rover.scan ≠ [] := by
    obtain ⟨u, ⟨hactive, hgates⟩, hrefresh⟩ :=
      Simulation.exists_refresh_of_pass (Station.lasting_gates .rover .open) hpass ⟨rfl, rfl⟩
    exact Sensors.scan_ne_nil_of_refresh hrefresh hactive (congrArg Gates.scan hgates)
  obtain ⟨m, hm, hmvalue⟩ := Station.exists_limited? Settings.damped_standard.linear 100
  obtain ⟨n, hn, hnvalue⟩ := Station.exists_limited? Settings.damped_standard.angular (-100)
  have hrover : (acts.foldl (Simulation.intervene cfg) (.new cfg [])).scene.station.rover =
      { t.scene.station.rover with vx := m, wz := n } := by
    show (final (Simulation.onStation (Station.setVelocities cfg.driving 100 (-100) none)
      (built.ask cfg (.frame cfg.run.frameTime)).2)).scene.station.rover = _
    rw [Simulation.ask_frame hpass, Simulation.final_onStation, hstation,
      Station.setVelocities_of_limited? hm hn none]
    rfl
  have hmem := Simulation.foldl_intervene_mem_allMoments cfg (.new cfg []) acts
  obtain ⟨-, -, -, -, hscan⟩ := rover_stays_in_envelope cfg Settings.damped_standard.toBounded
    (Value.isDuration_decimal 50 1).1 (Value.isDuration_decimal 50 1).2 [] acts _ hmem
  refine ⟨_, hmem, ?_⟩
  rw [hrover] at hscan ⊢
  obtain ⟨k, hrays, hlength, hangles, -⟩ := hscan.resolve_left hlooked
  obtain rfl : k = 36 := by
    cases hrays
    rfl
  refine ⟨?_, ?_, hlength, hangles⟩
  · show m.value = 2
    rw [hmvalue, Settings.maxLinear_standard]
    norm_num
  · show n.value = -(3 / 2)
    rw [hnvalue, Settings.maxAngular_standard]
    norm_num

end ArmRover
