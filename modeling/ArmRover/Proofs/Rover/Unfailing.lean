import ArmRover.Proofs.Map.Truth
import ArmRover.Proofs.Rover.Operations
import ArmRover.Proofs.World.Nearest

/-!
# Sensors that do not fail

Sensors that could be made have passed the checks that a scan and a map make again, and all else
that they compute with is a number. So a refresh does not fail, in any world of shapes with numbers
for measures, wherever the rover is and whatever is known of the map. All that can stop one is the
first map, if that has more cells than can be held: its size has no upper bound.

* `World.exists_cast?_of_numeric`, `World.exists_scan?_of_numeric` — rays tell numbers.
* `Sensors.Sound` — what is known of sensors that could be made, `Sensors.sound_of_senses?`.
* `Settings.Mapping.Made` — maps that they make, `Settings.Mapping.TooLarge` — maps that cannot be
  held.
* `Sensors.refresh_never_fails` — a refresh, `Sensors.refresh_fails_of_too_large` — a first map that
  cannot be held.
-/

namespace ArmRover

open ArmRover.Action

/-! ### Rays tell numbers -/

namespace World

variable {world : World ℝ} {range : Value ℝ}

theorem exists_cast?_of_numeric (hworld : world.Numeric) (hrange : range.IsNumber) (ray : Ray ℝ)
    (hform : ray.origin.form ≠ .text) :
    ∃ s, world.cast? ray range = .ok s ∧ s.value.IsNumber := by
  have hlimits := Value.limits_of_isNumber hrange
  obtain ⟨nearest, hrun⟩ := (exists_nearest?_iff hlimits).mpr (answers_of_numeric hform hworld)
  refine ⟨_, cast?_of_nearest? hrun, ?_⟩
  cases nearest with
  | none => exact hrange
  | some h =>
    obtain ⟨⟨o, ho, hsolid, hhit⟩, -⟩ := (least_of_nearest? hlimits hrun).1
    obtain ⟨hit, hrun', hform'⟩ := Shape.exists_hit?_of_numeric hform (hworld o ho hsolid)
    obtain rfl := Except.ok.inj (hhit.symm.trans hrun')
    have hlisted := hform' h rfl
    obtain ⟨place, form⟩ := h
    cases form with
    | start => exact ⟨_, rfl⟩
    | computed => exact ⟨_, rfl⟩
    | listed => exact absurd rfl hlisted

theorem exists_scan?_of_numeric (hworld : world.Numeric) (hrange : range.IsNumber)
    {origin : Vantage ℝ} (hform : origin.form ≠ .text) {n : Nat} (hpos : 0 < n) :
    ∃ scan, world.scan? origin (.number (.whole n)) range = .ok scan ∧
      ∀ p ∈ scan, p.distance.value.IsNumber := by
  choose told hrun hnumber using fun i : Nat =>
    exists_cast?_of_numeric hworld hrange (Ray.along origin (heading (rayAngle n i))) hform
  refine ⟨_, (scan?_whole hpos origin range).trans (around?_of_cast? hrun), fun p hp => ?_⟩
  obtain ⟨i, -, rfl⟩ := List.mem_map.mp hp
  exact hnumber i

end World

/-! ### Maps of the settings -/

namespace Settings.Mapping

/-- The map, if there is one, has the measures of the settings. -/
def Made (mapping : Settings.Mapping ℝ) (map : Option (Grid ℝ)) : Prop :=
  ∀ g, map = some g → g.OfMeasures (.number mapping.side) (.number mapping.density)

/-- A map of the settings has more cells than can be held. -/
def TooLarge (mapping : Settings.Mapping ℝ) : Prop :=
  ∃ size : Nat, Grid.size? (.number mapping.side) (.number mapping.density) = .ok size ∧
    Value.maxHeld < size * size

theorem Made.sided {mapping : Settings.Mapping ℝ} {map : Option (Grid ℝ)} (h : mapping.Made map) :
    Operations.Sided map :=
  fun g hg => (h g hg).cellSide_pos.ne'

end Settings.Mapping

/-! ### Sensors that could be made -/

namespace Sensors

variable {senses : Settings.Senses ℝ} {mapping : Settings.Mapping ℝ} {world : World ℝ}

/-- Sensors with a positive whole number of rays, numbers for their range, their intervals and their
share of hits, and a map with cells. -/
structure Sound (senses : Settings.Senses ℝ) (mapping : Settings.Mapping ℝ) : Prop where
  rays : ∃ n : Nat, senses.rays = .whole n ∧ 0 < n
  range_isNumber : senses.range.IsNumber
  scanInterval_isNumber : senses.scanInterval.IsNumber
  hitRatio_isNumber : mapping.hitRatio.IsNumber
  extent? : ∀ empty, Grid.extent? (.number mapping.side) (.number mapping.density) empty =
    .ok (mapping.side, mapping.density)

/-- Settings are checked when they are read. -/
theorem sound_of_senses? {config : Sections ℝ}
    (h : Settings.senses? config = .ok (senses, mapping)) (hrays : ∃ n, senses.rays = .whole n)
    (hrange : senses.range.IsNumber) (hinterval : senses.scanInterval.IsNumber)
    (hratio : mapping.hitRatio.IsNumber) : Sound senses mapping := by
  unfold Settings.senses? at h
  obtain ⟨sensors, -, h⟩ := bind_eq_ok.mp h
  obtain ⟨map, -, h⟩ := bind_eq_ok.mp h
  obtain ⟨range, -, h⟩ := bind_eq_ok.mp h
  obtain ⟨rays, -, h⟩ := bind_eq_ok.mp h
  obtain ⟨scanInterval, -, h⟩ := bind_eq_ok.mp h
  obtain ⟨side, -, h⟩ := bind_eq_ok.mp h
  obtain ⟨density, -, h⟩ := bind_eq_ok.mp h
  obtain ⟨hitRatio, -, h⟩ := bind_eq_ok.mp h
  obtain ⟨n, -, h⟩ := bind_eq_ok.mp h
  obtain ⟨hbelow, h⟩ := of_unless_ok h
  obtain ⟨⟨s, d⟩, hextent, h⟩ := bind_eq_ok.mp h
  obtain ⟨rate, -, h⟩ := bind_eq_ok.mp h
  obtain ⟨rateNumber, -, h⟩ := bind_eq_ok.mp h
  obtain ⟨-, h⟩ := of_unless_ok h
  obtain ⟨interval, -, h⟩ := bind_eq_ok.mp h
  obtain ⟨rfl, rfl⟩ := Prod.mk.inj (Except.ok.inj h)
  refine ⟨?_, hrange, hinterval, hratio, fun empty => ?_⟩
  · obtain ⟨k, rfl⟩ := hrays
    rw [Number.below_real, decide_eq_true_eq, not_lt, Scalar.one_real] at hbelow
    have hk : 1 ≤ k := by exact_mod_cast (show (1 : ℝ) ≤ (k : ℝ) from hbelow)
    exact ⟨k.toNat, congrArg Number.whole (Int.toNat_of_nonneg (by omega)).symm, by omega⟩
  · -- the measures are checked as plain data, and a map is made of the numbers that they are
    obtain ⟨hs, -, hd⟩ := Grid.number?_of_extent? hextent
    rw [Grid.extent?_number hs hd]
    exact Grid.extent?_of_ok hextent empty

/-- All that stops a map with cells is that it has too many. -/
theorem Sound.tooLarge_of_new? (h : Sound senses mapping) {fault : Fault ℝ}
    (hnew : Grid.new? (.number mapping.side) (.number mapping.density) = .error fault) :
    mapping.TooLarge ∧ (fault = .mapTooLarge ∨ fault = .outOfMemory) := by
  obtain ⟨k, hk, hpos⟩ := Grid.exists_size_of_extent? (h.extent? .mapSettings)
  obtain ⟨size, rfl⟩ := Int.eq_ofNat_of_zero_le hpos.le
  rw [Grid.new?_of_extent? (h.extent? _) hk] at hnew
  split at hnew
  case isTrue hnumbered =>
    cases hnew
    exact ⟨⟨size, hk, lt_trans (by decide) hnumbered⟩, .inl rfl⟩
  case isFalse =>
    split at hnew
    case isTrue hheld =>
      cases hnew
      exact ⟨⟨size, hk, hheld⟩, .inr rfl⟩
    case isFalse => cases hnew

/-! ### A refresh -/

theorem fresh?_of_isNumber {interval : Value ℝ} (h : interval.IsNumber) (last : Option ℝ)
    (now : ℝ) : ∃ fresh, fresh? last now interval = .ok fresh := by
  cases last with
  | none => exact ⟨false, rfl⟩
  | some last => exact ⟨_, Value.ask?_above h (now - last)⟩

/-- A scan of finite values all around is a chart for a map of the settings. -/
theorem exists_scanAround_eq_draw (h : Sound senses mapping) (hworld : world.Numeric)
    {st : Station ℝ} (hform : st.rover.ground.form ≠ .text) :
    ∃ (scan : List (Reading ℝ)) (s : Survey ℝ), (∀ g, s.Finite g) ∧
      scanAround senses mapping world st =
        Action.on Station.map (fun t map => { t with map })
          (Chart.draw ⟨.number mapping.side, .number mapping.density, s⟩)
          { st with rover := { st.rover with scan } } := by
  obtain ⟨n, hn, hpos⟩ := h.rays
  obtain ⟨scan, hscan, hnumbers⟩ :=
    World.exists_scan?_of_numeric hworld h.range_isNumber hform hpos
  refine ⟨scan, ⟨scan, st.rover.ground, senses.range, mapping.hitRatio⟩, fun g =>
    Survey.finite_of_numbers hform h.range_isNumber h.hitRatio_isNumber hnumbers, ?_⟩
  unfold scanAround
  rw [run_get_bind]
  dsimp only
  rw [hn, hscan]
  rfl

/-- A scan goes into the map, unless a first one cannot be made. -/
theorem scanAround_cases (h : Sound senses mapping) (hworld : world.Numeric) {st : Station ℝ}
    (hform : st.rover.ground.form ≠ .text) (hmap : mapping.Made st.map) :
    (∃ t, scanAround senses mapping world st = .ok () t ∧ mapping.Made t.map) ∨
      st.map = none ∧ ∃ fault t,
        Grid.new? (.number mapping.side) (.number mapping.density) = .error fault ∧
        scanAround senses mapping world st = .error fault t := by
  obtain ⟨scan, s, hfinite, hrun⟩ := exists_scanAround_eq_draw h hworld hform
  obtain ⟨size, hsize, -⟩ := Grid.exists_size_of_extent? (h.extent? .mapSettings)
  rw [hrun]
  unfold Action.on
  dsimp only
  rcases Chart.draw_cases (c := ⟨.number mapping.side, .number mapping.density, s⟩) hsize hmap
    hfinite with ⟨k, hdraw, hk⟩ | ⟨hnone, fault, hblank, hdraw⟩
  · rw [hdraw]
    refine .inl ⟨_, rfl, ?_⟩
    rintro _ ⟨⟩
    exact hk
  · rw [hdraw]
    exact .inr ⟨hnone, fault, _, hblank, rfl⟩

/-- An active rover looks ahead, and then scans if it is time to. -/
theorem exists_refresh_eq (h : Sound senses mapping) (hworld : world.Numeric) {st : Station ℝ}
    (hactive : st.active = .rover) (hform : st.rover.ground.form ≠ .text) (now : ℝ) :
    ∃ t fresh, t.rover.ground = st.rover.ground ∧ t.map = st.map ∧
      fresh? st.gates.scan now senses.scanInterval = .ok fresh ∧
      refresh senses mapping world now st =
        if fresh then .ok () t else scanAround senses mapping world t := by
  obtain ⟨s, hcast, hnumber⟩ := World.exists_cast?_of_numeric hworld h.range_isNumber
    (Ray.along st.rover.ground (heading st.rover.heading)) hform
  obtain ⟨v, t, hlook, hscan, hground, hmap⟩ := yields_lookAhead_of_cast? now hcast hnumber st rfl
  obtain ⟨fresh, hfresh⟩ := fresh?_of_isNumber h.scanInterval_isNumber st.gates.scan now
  unfold refresh
  rw [run_get_bind, if_neg (not_not.mpr hactive), run_bind hlook, run_get_bind, hscan, hfresh]
  cases fresh with
  | true => exact ⟨t, true, hground, hmap, rfl, rfl⟩
  | false =>
    let u := { t with gates := { t.gates with scan := some now } }
    exact ⟨u, false, hground, hmap, rfl, rfl⟩

theorem refresh_cases (h : Sound senses mapping) (hworld : world.Numeric) {st : Station ℝ}
    (hform : st.rover.ground.form ≠ .text) (hmap : mapping.Made st.map) (now : ℝ) :
    (∃ t, refresh senses mapping world now st = .ok () t ∧ mapping.Made t.map) ∨
      st.map = none ∧ ∃ fault t,
        Grid.new? (.number mapping.side) (.number mapping.density) = .error fault ∧
        refresh senses mapping world now st = .error fault t := by
  by_cases hactive : st.active = .rover
  · obtain ⟨t, fresh, hground, ht, -, hrun⟩ := exists_refresh_eq h hworld hactive hform now
    rw [hrun, ← ht]
    rw [← ht] at hmap
    cases fresh with
    | true => exact .inl ⟨t, rfl, hmap⟩
    | false => exact scanAround_cases h hworld (hground ▸ hform) hmap
  · refine .inl ⟨st, ?_, hmap⟩
    unfold refresh
    rw [run_get_bind, if_pos hactive]
    rfl

/-- A first map that cannot be made stops the first refresh. -/
theorem exists_refresh_eq_error (h : Sound senses mapping) (hworld : world.Numeric)
    {st : Station ℝ} (hactive : st.active = .rover) (hform : st.rover.ground.form ≠ .text)
    (hdue : st.gates.scan = none) (hnone : st.map = none) {fault : Fault ℝ}
    (hnew : Grid.new? (.number mapping.side) (.number mapping.density) = .error fault) (now : ℝ) :
    ∃ t, refresh senses mapping world now st = .error fault t := by
  obtain ⟨t, fresh, hground, ht, hfresh, hrun⟩ :=
    exists_refresh_eq h hworld hactive hform now
  rw [hdue] at hfresh
  cases hfresh
  rw [← hground] at hform
  obtain ⟨scan, s, -, hscan⟩ := exists_scanAround_eq_draw h hworld hform
  obtain ⟨size, hsize, -⟩ := Grid.exists_size_of_extent? (h.extent? .mapSettings)
  have hdraw : Chart.draw ⟨.number mapping.side, .number mapping.density, s⟩ none =
      .error fault none :=
    Chart.draw_refused hsize hnew nofun
  refine ⟨{ t with rover := { t.rover with scan }, map := none }, ?_⟩
  rw [hrun, if_neg Bool.false_ne_true, hscan]
  unfold Action.on
  dsimp only
  rw [ht, hnone, hdraw]

end Sensors

end ArmRover
