import ArmRover.Proofs.Action
import ArmRover.Proofs.Map.Cells
import ArmRover.Proofs.Map.Reuse
import ArmRover.Proofs.Map.Tiles
import ArmRover.Proofs.Settings.Standard
import ArmRover.Proofs.Station.Passing
import ArmRover.Proofs.World.Sight
import ArmRover.Rover.Sensors

/-!
# The map is true to the world

Over the real numbers the square of an occupied cell holds a position that a solid shape takes, and
that of a free cell one that no solid shape takes. Fusing a reading keeps this, because the cell at
its end holds the end of the ray, and the cells that are marked free hold positions before it. So
does everything that the sensors do.

* `Grid.Faithful` — maps that are true to the world, `Grid.Faithful.passThrough`,
  `Grid.Faithful.endIn` — writing a cell.
* `Grid.preserves_fuse`, `Grid.preserves_fuseInto` — fusing a scan.
* `Sensors.preserves_faithful_refresh` — refreshing the sensors.
* `Sensors.Explored` — the maps that the sensors draw, `Sensors.exists_first_map` — the first one.
* `Sensors.explored_faithful` — they are all true to the world.
-/

namespace ArmRover

open ArmRover.Action

namespace Grid

variable {world : World ℝ} {g h : Grid ℝ}

theorem SameFrame.inSquare (hgh : g.SameFrame h) (gx gz : Int) (x z : ℝ) :
    h.InSquare gx gz x z ↔ g.InSquare gx gz x z := by
  unfold InSquare
  rw [hgh.size, hgh.cellSide]

/-- A map with cells of which the occupied ones hold something that a solid shape takes, and the
free ones something that none takes. -/
structure Faithful (world : World ℝ) (g : Grid ℝ) : Prop where
  cellSide_pos : 0 < g.cellSide
  occupied : ∀ gx gz, g.cell? gx gz = some .occupied →
    ∃ x z, g.InSquare gx gz x z ∧ world.SolidAt x z
  free : ∀ gx gz, g.cell? gx gz = some .free →
    ∃ x z, g.InSquare gx gz x z ∧ ¬ world.SolidAt x z

/-! ### Writing a cell -/

theorem Faithful.passThrough (hg : g.Faithful world) {x z : ℝ} (hclear : ¬ world.SolidAt x z) :
    (g.passThrough (g.locate x z).1 (g.locate x z).2).Faithful world := by
  have hframe := sameFrame_passThrough g (g.locate x z).1 (g.locate x z).2
  have hsquare := (locate_eq_iff hg.cellSide_pos _ _ x z).mp rfl
  refine ⟨by rw [hframe.cellSide]; exact hg.cellSide_pos, fun gx gz hcell => ?_,
    fun gx gz hcell => ?_⟩
  · simp only [hframe.inSquare]
    apply hg.occupied
    rw [cell?_passThrough, Option.map_eq_some_iff] at hcell
    obtain ⟨c, hc, hwritten⟩ := hcell
    rw [hc]
    cases c <;> split at hwritten <;> first | rfl | cases hwritten
  · simp only [hframe.inSquare]
    by_cases hplace : gx = (g.locate x z).1 ∧ gz = (g.locate x z).2
    · refine ⟨x, z, ?_, hclear⟩
      rwa [hplace.1, hplace.2]
    · apply hg.free
      rw [cell?_passThrough] at hcell
      simpa [hplace] using hcell

theorem Faithful.endIn (hg : g.Faithful world) {x z : ℝ} (hsolid : world.SolidAt x z) :
    (g.endIn (g.locate x z).1 (g.locate x z).2).Faithful world := by
  have hframe := sameFrame_endIn g (g.locate x z).1 (g.locate x z).2
  have hsquare := (locate_eq_iff hg.cellSide_pos _ _ x z).mp rfl
  have hcells : ∀ gx gz, ¬ (gx = (g.locate x z).1 ∧ gz = (g.locate x z).2) →
      (g.endIn (g.locate x z).1 (g.locate x z).2).cell? gx gz = g.cell? gx gz := by
    intro gx gz hplace
    rw [cell?_endIn]
    simp [hplace]
  refine ⟨by rw [hframe.cellSide]; exact hg.cellSide_pos, fun gx gz hcell => ?_,
    fun gx gz hcell => ?_⟩
  · simp only [hframe.inSquare]
    by_cases hplace : gx = (g.locate x z).1 ∧ gz = (g.locate x z).2
    · refine ⟨x, z, ?_, hsolid⟩
      rwa [hplace.1, hplace.2]
    · exact hg.occupied gx gz ((hcells gx gz hplace).symm.trans hcell)
  · simp only [hframe.inSquare]
    by_cases hplace : gx = (g.locate x z).1 ∧ gz = (g.locate x z).2
    · rw [cell?_endIn, Option.map_eq_some_iff] at hcell
      obtain ⟨c, -, hwritten⟩ := hcell
      rw [if_pos hplace, Cell.max_occupied] at hwritten
      cases hwritten
    · exact hg.free gx gz ((hcells gx gz hplace).symm.trans hcell)

/-! ### Fusing a scan -/

/-- A map that is true to the world, with cells of the side `side`. -/
structure Charts (world : World ℝ) (side : ℝ) (g : Grid ℝ) : Prop where
  faithful : g.Faithful world
  cellSide : g.cellSide = side

theorem preserves_markAt_of_solid {mark : Grid ℝ → Int → Int → Grid ℝ} {P : Grid ℝ → Prop}
    {origin : Vantage ℝ} {sin cos d : ℝ}
    (hmark : ∀ g, origin.form ≠ .text → P g →
      let cell := g.locate (origin.x + sin * d) (origin.z + cos * d)
      P (mark g cell.1 cell.2)) :
    Preserves P (markAt mark origin sin cos d) := by
  unfold markAt
  refine preserves_lift_bind fun position hposition => ?_
  unfold Vantage.along? at hposition
  split at hposition
  case isTrue => cases hposition
  case isFalse hform =>
    cases hposition
    exact preserves_get_bind fun g hg => hmark g hform hg

/-- What fusing a reading needs to know of it, where the reading can be fused at all. -/
def Told (world : World ℝ) (origin : Vantage ℝ) (range : ℝ) (p : Reading ℝ) : Prop :=
  origin.form ≠ .text → p.distance.Tells world (Ray.along origin (heading p.angle)) range

/-- The steps before the end of a reading are at distances less than it. -/
theorem step_lt {d side : ℝ} (hside : 0 < side) {step : Nat} (hstep : step < ⌊d / side⌋.toNat) :
    (Scalar.ofInt step : ℝ) * side < d := by
  have hfloor : (step : Int) < ⌊d / side⌋ := by omega
  have hlt : ((step : Int) : ℝ) < d / side := (Int.cast_lt.mpr hfloor).trans_le (Int.floor_le _)
  exact (lt_div_iff₀ hside).mp hlt

theorem preserves_fuseReading {origin : Vantage ℝ} {limit : Except (Fault ℝ) (Value ℝ)} {range : ℝ}
    {p : Reading ℝ} (hlimit : ∀ l, limit = .ok l → l.IsNumber ∧ l.amount ≤ range)
    (hp : Told world origin range p) : Preserves (Faithful world) (fuseReading origin limit p) := by
  unfold fuseReading
  refine preserves_lift_bind fun (sin, cos) hangle => ?_
  obtain ⟨rfl, rfl⟩ := Prod.mk.inj (Except.ok.inj hangle)
  refine preserves_get_bind fun g hg => ?_
  -- all cells have the side that they have now
  suffices hpreserves : Preserves (Charts world g.cellSide) _ from (hpreserves g ⟨hg, rfl⟩).faithful
  refine preserves_lift_bind fun d hd => preserves_lift_bind fun steps hsteps => ?_
  have hamount : origin.form ≠ .text → p.distance.value.amount = d := by
    intro hform
    rw [Value.scalar?_of_isNumber (hp hform).isNumber] at hd
    exact Except.ok.inj hd
  obtain rfl : ⌊d / g.cellSide⌋ = steps := Except.ok.inj hsteps
  refine preserves_bind (preserves_each fun step hstep => ?_) fun _ => ?_
  · refine preserves_markAt_of_solid fun h hform hh => ?_
    have hlt := step_lt hg.cellSide_pos (List.mem_range.mp hstep)
    have hnonneg : (0 : ℝ) ≤ Scalar.ofInt step * g.cellSide :=
      mul_nonneg (Int.cast_nonneg (Int.natCast_nonneg step)) hg.cellSide_pos.le
    have hclear := (hp hform).clear _ hnonneg (by rwa [hamount hform])
    exact ⟨hh.faithful.passThrough hclear, (sameFrame_passThrough h _ _).cellSide.trans hh.cellSide⟩
  refine preserves_lift_bind fun l hl => preserves_lift_bind fun hit hbelow => ?_
  cases hit with
  | false => exact preserves_pure ()
  | true =>
    refine preserves_markAt_of_solid fun h hform hh => ?_
    obtain ⟨hnumber, hle⟩ := hlimit l hl
    rw [Sighting.below?_of_isNumber (hp hform).isNumber hnumber] at hbelow
    have hlt := of_decide_eq_true (Except.ok.inj hbelow)
    have hsolid := (hp hform).blocked (hlt.trans_le hle)
    rw [hamount hform] at hsolid
    exact ⟨hh.faithful.endIn hsolid, (sameFrame_endIn h _ _).cellSide.trans hh.cellSide⟩

/-- The limit below which a reading is a hit is at most the range. -/
theorem limit_le_range {range ratio : Value ℝ} (hrange : range.IsNumber)
    (hnonneg : 0 ≤ range.amount) (hratio : ratio.IsNumber) (hle : ratio.amount ≤ 1) :
    ∀ l, (range.product? ratio : Except (Fault ℝ) (Value ℝ)) = .ok l →
      l.IsNumber ∧ l.amount ≤ range.amount := by
  intro l hl
  obtain ⟨m, hm, hnumber, hamount⟩ := Value.exists_product? hrange hratio
  obtain rfl := Except.ok.inj (hm.symm.trans hl)
  refine ⟨hnumber, ?_⟩
  rw [hamount]
  exact mul_le_of_le_one_right hnonneg hle

/-- The map, if there is one, is true to the world. -/
def FaithfulIfAny (world : World ℝ) (map : Option (Grid ℝ)) : Prop :=
  ∀ g, map = some g → g.Faithful world

/-- A new map has cells, and nothing is known of them. -/
theorem faithful_of_new? {side density : Value ℝ} (h : new? side density = .ok g) :
    g.Faithful world := by
  refine ⟨(ofMeasures_of_new? h).cellSide_pos, fun gx gz hcell => ?_, fun gx gz hcell => ?_⟩
  · exact absurd (unknown_of_new? h hcell) nofun
  · exact absurd (unknown_of_new? h hcell) nofun

theorem preserves_prepare (side density : Value ℝ) :
    Preserves (FaithfulIfAny world) (prepare side density) := by
  unfold prepare
  refine preserves_lift_bind fun size _ => preserves_bind preserves_get fun map => ?_
  refine preserves_ite (preserves_lift_bind fun g hg => preserves_set ?_) (preserves_pure ())
  intro k hk
  obtain rfl := Option.some.inj hk
  exact faithful_of_new? hg

theorem preserves_fuseInto {scan : List (Reading ℝ)} {origin : Vantage ℝ}
    {range ratio : Value ℝ} (side density : Value ℝ) (hrange : range.IsNumber)
    (hnonneg : 0 ≤ range.amount) (hratio : ratio.IsNumber) (hle : ratio.amount ≤ 1)
    (hscan : ∀ p ∈ scan, Told world origin range.amount p) :
    Preserves (FaithfulIfAny world) (fuseInto scan origin side density range ratio) := by
  have hfuse : Preserves (Faithful world) (fuse scan origin range ratio) :=
    preserves_each fun p hp =>
      preserves_fuseReading (limit_le_range hrange hnonneg hratio hle) (hscan p hp)
  refine preserves_bind (preserves_prepare side density) fun _ => ?_
  refine preserves_get_bind fun map hmap => ?_
  cases map with
  | none => exact hmap
  | some g =>
    refine preserves_on (P := FaithfulIfAny world) (fun _ _ => hmap g rfl) hfuse ?_ (some g) hmap
    intro _ h _ hh k hk
    obtain rfl := Option.some.inj hk
    exact hh

/-- Where there is no map, a scan goes into a new one. -/
theorem yields_fuseInto_none {side density : Value ℝ} (hnew : new? side density = .ok g)
    {s : Survey ℝ} (hs : s.Finite g) :
    Yields (· = none) (fuseInto s.readings s.origin side density s.range s.ratio)
      fun _ map => ∃ k, map = some k ∧ g.Learns k (s.Passes g) (s.EndsIn g) := by
  rintro _ rfl
  obtain ⟨k, hrun, hlearns⟩ := Chart.draw_first (c := ⟨side, density, s⟩) hnew hs
  exact ⟨(), some k, hrun, k, rfl, hlearns⟩

end Grid

/-! ### The sensors -/

namespace Sensors

variable {senses : Settings.Senses ℝ} {mapping : Settings.Mapping ℝ} {world : World ℝ}

/-- The sensors see a proper world from a range that is no negative number, count as hits what is
nearer than that range at most, and look along fewer than 10¹² rays. -/
structure Sharp (senses : Settings.Senses ℝ) (mapping : Settings.Mapping ℝ) : Prop where
  range_isNumber : senses.range.IsNumber
  range_nonneg : 0 ≤ senses.range.amount
  hitRatio_isNumber : mapping.hitRatio.IsNumber
  hitRatio_le : mapping.hitRatio.amount ≤ 1
  rays_lt : senses.rays.value < 10 ^ 12

theorem preserves_faithful_scanAround (h : Sharp senses mapping) (hworld : world.Proper) :
    Preserves (fun st => Grid.FaithfulIfAny world st.map) (scanAround senses mapping world) := by
  unfold scanAround
  refine preserves_bind preserves_get fun st => preserves_lift_bind fun scan hscan => ?_
  refine preserves_bind (preserves_modify fun _ h => h) fun _ => ?_
  refine preserves_on (fun _ h => h) ?_ fun _ _ _ h => h
  refine Grid.preserves_fuseInto _ _ h.range_isNumber h.range_nonneg h.hitRatio_isNumber
    h.hitRatio_le fun p hp hform => ?_
  exact World.tells_of_scan? hform hworld h.rays_lt h.range_isNumber h.range_nonneg hscan p hp

theorem preserves_faithful_refresh (h : Sharp senses mapping) (hworld : world.Proper) (now : ℝ) :
    Preserves (fun st => Grid.FaithfulIfAny world st.map) (refresh senses mapping world now) :=
  preserves_refresh (preserves_lookAhead (fun _ h => h) fun _ _ h => h) (fun _ h => h)
    (preserves_faithful_scanAround h hworld)

/-- The maps that refreshing the sensors draws in a world, starting without one. Between two times
the rover may go anywhere and anything but the map may change. -/
inductive Explored (senses : Settings.Senses ℝ) (mapping : Settings.Mapping ℝ) (world : World ℝ) :
    Option (Grid ℝ) → Prop where
  | start : Explored senses mapping world none
  | refresh {st : Station ℝ} (now : ℝ) : Explored senses mapping world st.map →
    Explored senses mapping world (final (Sensors.refresh senses mapping world now st)).map

theorem faithfulIfAny_of_explored (h : Sharp senses mapping) (hworld : world.Proper)
    {map : Option (Grid ℝ)} (hmap : Explored senses mapping world map) :
    Grid.FaithfulIfAny world map := by
  induction hmap with
  | start => exact nofun
  | refresh now _ ih => exact preserves_faithful_refresh h hworld now _ ih

/-! ### The first map -/

/-- An active rover before its sensors have been asked, at a heading at which it can look ahead. -/
structure Fresh (st : Station ℝ) : Prop where
  active : st.active = .rover
  gates : st.gates = .open
  map : st.map = none
  form : st.rover.ground.form ≠ .text
  ahead : (Ray.along st.rover.ground (heading st.rover.heading)).Regular

/-- Where the ray ahead tells a number the rover has a reading, from now or from before. -/
theorem yields_lookAhead_of_cast? (now : ℝ) {st : Station ℝ} {s : Sighting ℝ}
    (hcast : world.cast? (Ray.along st.rover.ground (heading st.rover.heading)) senses.range =
      .ok s) (hnumber : s.value.IsNumber) :
    Yields (· = st) (lookAhead senses world now) fun _ t =>
      t.gates.scan = st.gates.scan ∧ t.rover.ground = st.rover.ground ∧ t.map = st.map := by
  have hfresh : ∃ fresh, fresh? st.gates.distance now (.real senses.interval) = .ok fresh := by
    unfold fresh?
    cases st.gates.distance with
    | none => exact ⟨_, rfl⟩
    | some last => exact ⟨_, rfl⟩
  obtain ⟨fresh, hfresh⟩ := hfresh
  unfold lookAhead
  refine yields_get fun t ht => ?_
  subst ht
  refine yields_lift hfresh ?_
  refine yields_ite (fun _ => yields_pure fun u hu => hu ▸ ⟨rfl, rfl, rfl⟩) fun _ => ?_
  refine yields_bind (Q := fun _ u => u.gates.scan = t.gates.scan ∧ u.rover = t.rover ∧
    u.map = t.map) (yields_modify fun u hu => hu ▸ ⟨rfl, rfl, rfl⟩) fun _ => ?_
  refine yields_lift (rfl : heading? _ = .ok _) (yields_lift hcast ?_)
  refine yields_lift (Value.numeric?_of_isNumber hnumber) ?_
  refine yields_bind (yields_modify fun u hu => ?_) fun _ => yields_pure fun _ hu => hu
  obtain ⟨hscan, hrover, hmap⟩ := hu
  exact ⟨hscan, show u.rover.ground = _ from congrArg Rover.ground hrover, hmap⟩

theorem yields_lookAhead_of_regular (h : Sharp senses mapping) (hworld : world.Proper) (now : ℝ)
    {st : Station ℝ} (hahead : (Ray.along st.rover.ground (heading st.rover.heading)).Regular) :
    Yields (· = st) (lookAhead senses world now) fun _ t =>
      t.gates.scan = st.gates.scan ∧ t.rover.ground = st.rover.ground ∧ t.map = st.map := by
  obtain ⟨s, hrun, htells⟩ :=
    World.exists_cast? hahead hworld h.range_isNumber h.range_nonneg
  exact yields_lookAhead_of_cast? now hrun htells.isNumber

/-- As long as the lidar is fresh a refresh only looks ahead. -/
theorem exists_refresh_of_scanned (h : Sharp senses mapping) (hworld : world.Proper) (now : ℝ)
    {st : Station ℝ} (hactive : st.active = .rover)
    (hahead : (Ray.along st.rover.ground (heading st.rover.heading)).Regular)
    (hscan : fresh? st.gates.scan now senses.scanInterval = .ok true) :
    ∃ t, refresh senses mapping world now st = .ok () t := by
  have hrefresh : Yields (· = st) (refresh senses mapping world now) fun _ _ => True := by
    unfold refresh
    refine yields_get fun t ht => ?_
    subst ht
    rw [if_neg (not_not.mpr hactive)]
    refine yields_bind (yields_lookAhead_of_regular h hworld now hahead) fun _ => ?_
    refine yields_get fun t ht => ?_
    rw [ht.1]
    exact yields_lift hscan (yields_pure fun _ _ => trivial)
  obtain ⟨_, t, hrun, -⟩ := hrefresh st rfl
  exact ⟨t, hrun⟩

/-- The first refresh scans all around and draws a map of it. -/
theorem yields_refresh_of_fresh (h : Sharp senses mapping) (hworld : world.Proper) {n : Nat}
    (hrays : senses.rays = .whole n) (hpos : 0 < n) {g : Grid ℝ}
    (hnew : Grid.new? (.number mapping.side) (.number mapping.density) = .ok g)
    {st : Station ℝ} (hst : Fresh st) (now : ℝ) :
    ∃ told : Nat → Sighting ℝ,
      (∀ i, (told i).Tells world (Ray.along st.rover.ground (heading (World.rayAngle n i)))
        senses.range.amount) ∧
      let readings := (List.range n).map fun i => ⟨World.rayAngle n i, told i⟩
      let s : Survey ℝ := ⟨readings, st.rover.ground, senses.range, mapping.hitRatio⟩
      Yields (· = st) (refresh senses mapping world now)
        fun _ t => ∃ k, t.map = some k ∧ g.Learns k (s.Passes g) (s.EndsIn g) := by
  have hfew : n < 10 ^ 12 := by
    have hlt := h.rays_lt
    rw [hrays] at hlt
    exact_mod_cast (show ((n : Int) : ℝ) < 10 ^ 12 from hlt)
  obtain ⟨told, hscan, htells⟩ :=
    World.exists_around? hst.form hworld hpos hfew h.range_isNumber h.range_nonneg
  refine ⟨told, htells, ?_⟩
  intro readings s
  have hs : s.Finite g := by
    refine Survey.finite_of_numbers hst.form h.range_isNumber h.hitRatio_isNumber fun p hp => ?_
    obtain ⟨i, -, rfl⟩ := List.mem_map.mp hp
    exact (htells i).isNumber
  have haround : Yields (fun t => t.rover.ground = st.rover.ground ∧ t.map = none)
      (scanAround senses mapping world)
      fun _ t => ∃ k, t.map = some k ∧ g.Learns k (s.Passes g) (s.EndsIn g) := by
    unfold scanAround
    refine yields_get fun t ht => ?_
    rw [ht.1, hrays]
    refine yields_lift ((World.scan?_whole hpos _ _).trans hscan) ?_
    refine yields_bind (Q := fun _ u => u.map = none) (yields_modify fun u hu => ?_) fun _ => ?_
    · exact hu ▸ ht.2
    · refine yields_on (fun _ hu => hu) (Grid.yields_fuseInto_none hnew hs) ?_
      exact fun _ _ _ _ hk => hk
  unfold refresh
  refine yields_get fun t ht => ?_
  subst ht
  rw [if_neg (not_not.mpr hst.active)]
  refine yields_bind (yields_lookAhead_of_regular h hworld now hst.ahead) fun _ => ?_
  refine yields_get fun t ht => ?_
  rw [ht.1, hst.gates]
  refine yields_lift (rfl : fresh? _ _ _ = .ok false) ?_
  refine yields_bind (yields_modify fun u hu => ?_) fun _ => haround
  exact hu ▸ ⟨ht.2.1, ht.2.2.trans hst.map⟩

theorem exists_first_map (h : Sharp senses mapping) (hworld : world.Proper) {n : Nat}
    (hrays : senses.rays = .whole n) (hpos : 0 < n) {g : Grid ℝ}
    (hnew : Grid.new? (.number mapping.side) (.number mapping.density) = .ok g)
    {st : Station ℝ} (hst : Fresh st) (now : ℝ) :
    ∃ told : Nat → Sighting ℝ,
      (∀ i, (told i).Tells world (Ray.along st.rover.ground (heading (World.rayAngle n i)))
        senses.range.amount) ∧
      let readings := (List.range n).map fun i => ⟨World.rayAngle n i, told i⟩
      let s : Survey ℝ := ⟨readings, st.rover.ground, senses.range, mapping.hitRatio⟩
      ∃ k, Explored senses mapping world (some k) ∧ g.Learns k (s.Passes g) (s.EndsIn g) := by
  obtain ⟨told, htells, hrefresh⟩ := yields_refresh_of_fresh h hworld hrays hpos hnew hst now
  refine ⟨told, htells, ?_⟩
  obtain ⟨_, t, hrun, k, hmap, hlearns⟩ := hrefresh st rfl
  refine ⟨k, ?_, hlearns⟩
  have hexplored :
      Explored senses mapping world (final (refresh senses mapping world now st)).map :=
    .refresh now (hst.map ▸ .start)
  rw [hrun] at hexplored
  exact hmap ▸ hexplored

/-- The map is true to the world. -/
theorem explored_faithful (h : Sharp senses mapping) (hworld : world.Proper) {g : Grid ℝ}
    (hg : Explored senses mapping world (some g)) (gx gz : Int) :
    (g.cell? gx gz = some .occupied →
      ∃ x z, g.locate x z = (gx, gz) ∧ g.InSquare gx gz x z ∧ world.SolidAt x z) ∧
    (g.cell? gx gz = some .free →
      ∃ x z, g.locate x z = (gx, gz) ∧ g.InSquare gx gz x z ∧ ¬ world.SolidAt x z) := by
  have hfaithful := faithfulIfAny_of_explored h hworld hg g rfl
  refine ⟨fun hcell => ?_, fun hcell => ?_⟩
  · obtain ⟨x, z, hsquare, hsolid⟩ := hfaithful.occupied gx gz hcell
    exact ⟨x, z, (Grid.locate_eq_iff hfaithful.cellSide_pos gx gz x z).mpr hsquare, hsquare, hsolid⟩
  · obtain ⟨x, z, hsquare, hclear⟩ := hfaithful.free gx gz hcell
    exact ⟨x, z, (Grid.locate_eq_iff hfaithful.cellSide_pos gx gz x z).mpr hsquare, hsquare, hclear⟩

/-- The built-in sensors. -/
theorem sharp_standard :
    Sharp (Settings.standard : Settings ℝ).senses (Settings.standard : Settings ℝ).mapping where
  range_isNumber := ⟨_, rfl⟩
  range_nonneg := by
    show (0 : ℝ) ≤ @OfScientific.ofScientific ℝ Scalar.instOfScientific 50 true 1
    rw [Scalar.ofScientific_real]
    positivity
  hitRatio_isNumber := ⟨_, rfl⟩
  hitRatio_le := by
    show @OfScientific.ofScientific ℝ Scalar.instOfScientific 95 true 2 ≤ 1
    rw [Scalar.ofScientific_real]
    norm_num
  rays_lt := by
    show ((36 : Int) : ℝ) < 10 ^ 12
    norm_num

/-- A box ahead, a disc behind, and a marking all around that does not stop a ray. The map that
the built-in sensors draw is true to them, and the cell on the near side of the box is occupied. -/
theorem explored_faithful_box_ahead :
    let world : World ℝ :=
      [⟨.box (.real (-1)) (.real 1) (.real 1) (.real 2), .text "obstacle"⟩,
        ⟨.circle (.real 0) (.real (-3)) (.real 1), .text "obstacle"⟩,
        ⟨.box (.real (-9)) (.real 9) (.real (-9)) (.real 9), .text "marking"⟩]
    let senses : Settings.Senses ℝ := Settings.standard.senses
    let mapping : Settings.Mapping ℝ := Settings.standard.mapping
    Sharp senses mapping ∧ world.Proper ∧
      ∃ g, Explored senses mapping world (some g) ∧ g.cell? 25 30 = some .occupied ∧
        ∃ x z, g.locate x z = (25, 30) ∧ g.InSquare 25 30 x z ∧ world.SolidAt x z := by
  intro world senses mapping
  have hbounds : ∀ {a b : ℝ}, a ≤ b → Shape.Bounds (.real a) (.real b) :=
    fun hab => ⟨⟨_, rfl⟩, ⟨_, rfl⟩, hab⟩
  have hworld : world.Proper := by
    intro o ho hsolid
    simp only [world, List.mem_cons, List.not_mem_nil, or_false] at ho
    rcases ho with rfl | rfl | rfl
    · exact ⟨hbounds (by norm_num), hbounds (by norm_num)⟩
    · exact ⟨⟨_, rfl⟩, ⟨_, rfl⟩, ⟨_, rfl⟩⟩
    · exact absurd hsolid (by decide)
  let blank : Grid ℝ := ⟨.whole 10, .whole 5, 50, .replicate _ .unknown⟩
  have hnew : Grid.new? (.number mapping.side) (.number mapping.density) = .ok blank := by
    show Grid.new? (.number (.whole 10)) (.number (.whole 5)) = _
    unfold Grid.new?
    rw [Settings.extent?_standard, Settings.size?_standard]
    rfl
  let st : Station ℝ := { Station.new Settings.standard.toRig with active := .rover }
  have hangle : ∀ n, (World.rayAngle n 0 : ℝ) = 0 := by
    intro n
    rw [World.rayAngle_real, Nat.cast_zero, zero_mul]
  have hst : Fresh st := by
    refine ⟨rfl, rfl, rfl, by decide, ?_⟩
    have hheading : st.rover.heading = World.rayAngle 1 0 := by
      rw [hangle]
      exact Scalar.zero_real
    rw [hheading]
    exact World.regular_rayAngle (by decide) one_pos (by norm_num) 0
  obtain ⟨told, htells, g, hg, hlearns⟩ :=
    exists_first_map sharp_standard hworld (rfl : senses.rays = .whole 36) (by decide) hnew hst 0
  -- the first ray ends where the box begins
  have hblocked : ∀ t, (Ray.along st.rover.ground (heading (World.rayAngle 36 0))).Blocked world t ↔
      world.SolidAt 0 t := by
    intro t
    show world.SolidAt (@OfNat.ofNat ℝ 0 (Scalar.instOfNat 0) + Real.sin (World.rayAngle 36 0) * t)
      (@OfNat.ofNat ℝ 0 (Scalar.instOfNat 0) + Real.cos (World.rayAngle 36 0) * t) ↔ _
    rw [hangle, Real.sin_zero, Real.cos_zero, Scalar.zero_real, zero_mul, one_mul, zero_add,
      zero_add]
  have hbox : world.SolidAt 0 1 := by
    refine ⟨_, List.mem_cons_self, rfl, ?_⟩
    show ((-1 : ℝ) ≤ 0 ∧ (0 : ℝ) ≤ 1) ∧ (1 : ℝ) ≤ 1 ∧ (1 : ℝ) ≤ 2
    norm_num
  have hnear : ∀ t, 0 ≤ t → world.SolidAt 0 t → 1 ≤ t := by
    rintro t ht ⟨o, ho, hsolid, hin⟩
    simp only [world, List.mem_cons, List.not_mem_nil, or_false] at ho
    rcases ho with rfl | rfl | rfl
    · exact hin.2.1
    · replace hin : ((0 : ℝ) - 0) ^ 2 + (t - -3) ^ 2 ≤ 1 ^ 2 := hin
      nlinarith
    · exact absurd hsolid (by decide)
  have hrange : senses.range.amount = 5 := by
    show @OfScientific.ofScientific ℝ Scalar.instOfScientific 50 true 1 = 5
    rw [Scalar.ofScientific_real]
    norm_num
  have hray := htells 0
  have hdistance : (told 0).value.amount = 1 := by
    apply le_antisymm
    · by_contra hfar
      exact hray.clear 1 zero_le_one (not_le.mp hfar) ((hblocked 1).mpr hbox)
    · by_contra hclose
      have hlt : (told 0).value.amount < 1 := not_le.mp hclose
      have hsolid := hray.blocked (hlt.trans (by rw [hrange]; norm_num))
      exact hclose (hnear _ hray.nonneg ((hblocked _).mp hsolid))
  have hended : (⟨World.rayAngle 36 0, told 0⟩ : Reading ℝ).EndsIn blank st.rover.ground
      (senses.range.product? mapping.hitRatio) 25 30 := by
    refine ⟨⟨_, rfl, ?_⟩, 1, ?_, ?_⟩
    · rw [Sighting.below?_of_isNumber hray.isNumber ⟨_, rfl⟩, hdistance]
      refine congrArg _ (decide_eq_true ?_)
      show (1 : ℝ) < @OfScientific.ofScientific ℝ Scalar.instOfScientific 50 true 1 *
        @OfScientific.ofScientific ℝ Scalar.instOfScientific 95 true 2
      rw [Scalar.ofScientific_real, Scalar.ofScientific_real]
      norm_num
    · rw [Value.scalar?_of_isNumber hray.isNumber, hdistance]
    · have hside : blank.cellSide = 1 / 5 := by
        rw [Grid.cellSide_real]
        show ((10 : Int) : ℝ) / ((50 : Nat) : ℝ) = 1 / 5
        norm_num
      show blank.locate (@OfNat.ofNat ℝ 0 (Scalar.instOfNat 0) + Real.sin (World.rayAngle 36 0) * 1)
        (@OfNat.ofNat ℝ 0 (Scalar.instOfNat 0) + Real.cos (World.rayAngle 36 0) * 1) = (25, 30)
      rw [hangle, Real.sin_zero, Real.cos_zero, Scalar.zero_real,
        Grid.locate_eq_iff (by rw [hside]; norm_num)]
      simp only [Grid.InSquare, hside]
      norm_num [blank]
  have hcell : g.cell? 25 30 = some .occupied := by
    have hunknown : blank.cell? 25 30 = some .unknown := by
      rw [Grid.cell?_of_contains (by decide), Vector.getElem?_eq_getElem (by decide)]
      exact congrArg some (Vector.getElem_replicate ..)
    have hmem : (⟨World.rayAngle 36 0, told 0⟩ : Reading ℝ) ∈
        (List.range 36).map fun i => ⟨World.rayAngle 36 i, told i⟩ :=
      List.mem_map.mpr ⟨0, List.mem_range.mpr (by decide), rfl⟩
    exact hlearns.cell?_of_ended hunknown ⟨_, hmem, hended⟩
  exact ⟨sharp_standard, hworld, g, hg, hcell,
    (explored_faithful sharp_standard hworld hg 25 30).1 hcell⟩

end Sensors

end ArmRover
