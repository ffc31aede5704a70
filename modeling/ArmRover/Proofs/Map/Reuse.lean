import ArmRover.Proofs.Map.Tiles

/-!
# Maps used again

A scan comes with the side and the density of the map that it is to be drawn into. The map that
there is stays if it has as many cells along a side as are asked for, be they the cells that are
asked for or not: 10 m at 5 cells a metre and 5 m at 10 cells a metre are both 50 cells. So a scan
is drawn into a map of the geometry that is asked for, and nothing else happens, exactly if a map
with as many cells, where there is one, has that geometry.

* `Grid.SameGeometry` — maps with the same cells of the ground.
* `Chart` — a scan with the measures of the map to draw it into, `Chart.AsAsked` — drawing it does
  what it should.
* `Chart.asAsked_iff` — when it does, `Chart.asAsked_of_oneGeometry` — in a sequence of charts of
  which those with as many cells ask for one geometry.
* `Chart.geometry_kept_iff` — both, `Chart.not_asAsked_of_other_side` — a sequence without that.
-/

namespace ArmRover

open ArmRover.Action

variable {α : Type} [Scalar α]

/-! ### The same geometry -/

namespace Grid

/-- Maps of the same side, density, number of cells and side of a cell. -/
structure SameGeometry (g h : Grid α) : Prop where
  side : h.side.value = g.side.value
  density : h.density.value = g.density.value
  size : h.size = g.size
  cellSide : h.cellSide = g.cellSide

variable {g h k : Grid α} {s : Survey α}

theorem SameFrame.sameGeometry (hgh : g.SameFrame h) : g.SameGeometry h :=
  ⟨congrArg _ hgh.side, congrArg _ hgh.density, hgh.size, hgh.cellSide⟩

namespace SameGeometry

theorem trans (hgh : g.SameGeometry h) (hhk : h.SameGeometry k) : g.SameGeometry k :=
  ⟨hhk.side.trans hgh.side, hhk.density.trans hgh.density, hhk.size.trans hgh.size,
    hhk.cellSide.trans hgh.cellSide⟩

theorem index (hgh : g.SameGeometry h) (x : α) : h.index x = g.index x := by
  unfold Grid.index
  rw [hgh.size, hgh.cellSide]

theorem cellAlong (hgh : g.SameGeometry h) (origin : Vantage α) (angle d : α) :
    h.cellAlong origin angle d = g.cellAlong origin angle d := by
  unfold Grid.cellAlong Grid.locate
  rw [hgh.index, hgh.index]

/-- The scan passes the cells that the geometry assigns to it. -/
theorem passes (hgh : g.SameGeometry h) : s.Passes h = s.Passes g := by
  unfold Survey.Passes Reading.Passes stepsTo
  simp only [hgh.cellSide, hgh.cellAlong]

theorem endsIn (hgh : g.SameGeometry h) : s.EndsIn h = s.EndsIn g := by
  unfold Survey.EndsIn Reading.EndsIn
  simp only [hgh.cellAlong]

theorem finiteAlong (hgh : g.SameGeometry h) {origin : Vantage α} {angle d : α}
    (hfinite : g.FiniteAlong origin angle d) : h.FiniteAlong origin angle d := by
  refine ⟨?_, ?_⟩
  · rw [hgh.index]
    exact hfinite.column
  · rw [hgh.index]
    exact hfinite.row

theorem finite (hgh : g.SameGeometry h) (hs : s.Finite g) : s.Finite h := by
  refine ⟨hs.origin, fun p hp => ?_⟩
  obtain ⟨d, hd⟩ := hs.readings p hp
  have hsteps : h.stepsTo d = g.stepsTo d := by
    unfold stepsTo
    rw [hgh.cellSide]
  exact ⟨d, {
    distance := hd.distance
    angle := hd.angle
    length := by rw [hgh.cellSide]; exact hd.length
    steps := fun step hstep => by
      rw [hgh.cellSide]
      exact hgh.finiteAlong (hd.steps step (hsteps ▸ hstep))
    last := hgh.finiteAlong hd.last
    hit := hd.hit }⟩

end SameGeometry

end Grid

/-! ### Charts -/

/-- A scan, with the side and the density of the map to draw it into. -/
structure Chart (α : Type) where
  side : Value α
  density : Value α
  survey : Survey α

namespace Chart

variable {c : Chart α} {charts : List (Chart α)} {map : Option (Grid α)} {g blank : Grid α}

/-- The number of cells along a side that is asked for. -/
def size? (c : Chart α) : Except (Fault α) Int := Grid.size? c.side c.density

/-- A map of which nothing is known, with the measures that are asked for. -/
def blank? (c : Chart α) : Except (Fault α) (Grid α) := Grid.new? c.side c.density

/-- Fuse the scan into the map that there is, or into a new one. -/
def draw (c : Chart α) : Action α (Option (Grid α)) Unit :=
  Grid.fuseInto c.survey.readings c.survey.origin c.side c.density c.survey.range c.survey.ratio

/-- Drawing fails if no map can be made, as making it does, and leaves the map. Otherwise it leaves
a map of the geometry that is asked for, in which the scan was fused into the map before or into a
new one, each reading in the cells that this geometry assigns to it. -/
def AsAsked (c : Chart α) (map : Option (Grid α)) : Prop :=
  match c.blank? with
  | .error fault => c.draw map = .error fault map
  | .ok blank => ∃ before k, (map = some before ∨ before = blank) ∧ c.draw map = .ok () (some k) ∧
      blank.SameGeometry k ∧ before.Learns k (c.survey.Passes blank) (c.survey.EndsIn blank)

/-- The map after a sequence of charts, starting without one. One that fails is passed over. -/
def drawn (charts : List (Chart α)) : Option (Grid α) :=
  charts.foldl (fun map c => final (c.draw map)) none

/-- Charts that ask for one geometry if they ask for the same number of cells. -/
def OneGeometry (charts : List (Chart α)) : Prop :=
  ∀ c ∈ charts, ∀ d ∈ charts, ∀ blank, c.blank? = .ok blank → d.size? = .ok blank.size →
    ∃ anew, d.blank? = .ok anew ∧ anew.SameGeometry blank

/-! ### Drawing one chart -/

theorem size?_of_blank? (hblank : c.blank? = .ok blank) : c.size? = .ok blank.size :=
  (Grid.ofMeasures_of_new? hblank).size?

theorem fuseIfAny_some (hfinite : c.survey.Finite g) :
    ∃ k, Grid.fuseIfAny c.survey.readings c.survey.origin c.survey.range c.survey.ratio (some g) =
      .ok () (some k) ∧ g.Learns k (c.survey.Passes g) (c.survey.EndsIn g) := by
  obtain ⟨k, hrun, hlearns⟩ := Grid.teaches_fuse hfinite g (.refl g)
  refine ⟨k, ?_, hlearns⟩
  unfold Grid.fuseIfAny
  rw [run_get_bind]
  show Action.on _ _ _ _ = _
  unfold Action.on
  rw [hrun]

/-- A map of the size that is asked for is used again. -/
theorem draw_again (hsize : c.size? = .ok g.size) (hfinite : c.survey.Finite g) :
    ∃ k, c.draw (some g) = .ok () (some k) ∧
      g.Learns k (c.survey.Passes g) (c.survey.EndsIn g) := by
  have hprepare : Grid.prepare c.side c.density (some g) = .ok () (some g) := by
    have hkept : Grid.hasSize (some g) g.size = true := beq_self_eq_true _
    unfold Grid.prepare
    rw [show Grid.size? c.side c.density = .ok _ from hsize, run_lift_bind, run_get_bind, hkept]
    rfl
  obtain ⟨k, hrun, hlearns⟩ := fuseIfAny_some hfinite
  exact ⟨k, (run_bind hprepare).trans hrun, hlearns⟩

omit [Scalar α] in
theorem hasSize_eq_false {n : Int} (hother : ∀ g, map = some g → (g.size : Int) ≠ n) :
    Grid.hasSize map n = false := by
  cases map with
  | none => rfl
  | some g => exact beq_eq_false_iff_ne.mpr (hother g rfl)

/-- A map takes the place of one of another size, if it can be made. -/
theorem draw_anew (hblank : c.blank? = .ok blank)
    (hother : ∀ g, map = some g → g.size ≠ blank.size) (hfinite : c.survey.Finite blank) :
    ∃ k, c.draw map = .ok () (some k) ∧
      blank.Learns k (c.survey.Passes blank) (c.survey.EndsIn blank) := by
  have hreplaced : Grid.hasSize map blank.size = false :=
    hasSize_eq_false fun g hg hsize => hother g hg (Int.ofNat_inj.mp hsize)
  have hprepare : Grid.prepare c.side c.density map = .ok () (some blank) := by
    unfold Grid.prepare
    rw [show Grid.size? c.side c.density = .ok _ from size?_of_blank? hblank, run_lift_bind,
      run_get_bind, hreplaced, show Grid.new? c.side c.density = .ok _ from hblank]
    rfl
  obtain ⟨k, hrun, hlearns⟩ := fuseIfAny_some hfinite
  exact ⟨k, (run_bind hprepare).trans hrun, hlearns⟩

theorem draw_first (hblank : c.blank? = .ok blank) (hfinite : c.survey.Finite blank) :
    ∃ k, c.draw none = .ok () (some k) ∧
      blank.Learns k (c.survey.Passes blank) (c.survey.EndsIn blank) :=
  draw_anew hblank nofun hfinite

theorem draw_refused {n : Int} {fault : Fault α} (hsize : c.size? = .ok n)
    (hblank : c.blank? = .error fault) (hother : ∀ g, map = some g → (g.size : Int) ≠ n) :
    c.draw map = .error fault map := by
  have hprepare : Grid.prepare c.side c.density map = .error fault map := by
    unfold Grid.prepare
    rw [show Grid.size? c.side c.density = .ok _ from hsize, run_lift_bind, run_get_bind,
      hasSize_eq_false hother, show Grid.new? c.side c.density = .error _ from hblank]
    rfl
  exact run_bind_error hprepare

/-- Into a map of the measures that are asked for, or none, a chart is drawn, unless a first map
cannot be made. -/
theorem draw_cases {n : Int} (hsize : c.size? = .ok n)
    (hmap : ∀ g, map = some g → g.OfMeasures c.side c.density)
    (hfinite : ∀ g, c.survey.Finite g) :
    (∃ k, c.draw map = .ok () (some k) ∧ k.OfMeasures c.side c.density) ∨
      map = none ∧ ∃ fault, c.blank? = .error fault ∧ c.draw map = .error fault map := by
  cases map with
  | some g =>
    have hg := hmap g rfl
    obtain ⟨k, hrun, hlearns⟩ := draw_again hg.size? (hfinite g)
    exact .inl ⟨k, hrun, hg.sameFrame hlearns.frame⟩
  | none =>
    cases hblank : c.blank? with
    | error fault => exact .inr ⟨rfl, fault, rfl, draw_refused hsize hblank nofun⟩
    | ok blank =>
      obtain ⟨k, hrun, hlearns⟩ := draw_first hblank (hfinite blank)
      exact .inl ⟨k, hrun, (Grid.ofMeasures_of_new? hblank).sameFrame hlearns.frame⟩

theorem asAsked_iff {n : Int} (hsize : c.size? = .ok n)
    (hfinite : ∀ g, map = some g ∨ c.blank? = .ok g → c.survey.Finite g) :
    c.AsAsked map ↔ ∀ g, map = some g → (g.size : Int) = n →
      ∃ blank, c.blank? = .ok blank ∧ blank.SameGeometry g := by
  unfold AsAsked
  by_cases hkept : ∃ g, map = some g ∧ (g.size : Int) = n
  case pos =>
    -- the scan goes into `g`, so its geometry is the one that is left
    obtain ⟨g, rfl, rfl⟩ := hkept
    obtain ⟨k, hrun, hlearns⟩ := draw_again hsize (hfinite g (.inl rfl))
    rw [hrun]
    cases hblank : c.blank? with
    | error fault =>
      refine ⟨nofun, fun h => ?_⟩
      obtain ⟨_, hnone, -⟩ := h g rfl rfl
      cases hnone
    | ok blank =>
      constructor
      · rintro ⟨before, k', -, hk, hsame, -⟩ _ ⟨⟩ -
        cases hk
        exact ⟨blank, rfl, hsame.trans hlearns.frame.symm.sameGeometry⟩
      · intro h
        obtain ⟨_, ⟨⟩, hsame⟩ := h g rfl rfl
        refine ⟨g, k, .inl rfl, rfl, hsame.trans hlearns.frame.sameGeometry, ?_⟩
        rwa [hsame.passes, hsame.endsIn] at hlearns
  case neg =>
    -- the scan goes into a new map, if one can be made
    have hother : ∀ g, map = some g → (g.size : Int) ≠ n := fun g hg hn => hkept ⟨g, hg, hn⟩
    refine iff_of_true ?_ fun g hg hn => absurd hn (hother g hg)
    cases hblank : c.blank? with
    | error fault => exact draw_refused hsize hblank hother
    | ok blank =>
      obtain rfl := Except.ok.inj (hsize.symm.trans (size?_of_blank? hblank))
      obtain ⟨k, hrun, hlearns⟩ := draw_anew hblank
        (fun g hg hn => hother g hg (congrArg _ hn)) (hfinite blank (.inr hblank))
      exact ⟨blank, k, .inr rfl, hrun, hlearns.frame.sameGeometry, hlearns⟩

/-! ### Drawing one chart after the other -/

/-- The map, if there is one, has the measures of a new one that some chart asks for. -/
def Framed (charts : List (Chart α)) (map : Option (Grid α)) : Prop :=
  ∀ g, map = some g → ∃ c ∈ charts, ∃ blank, c.blank? = .ok blank ∧ blank.SameFrame g

theorem preserves_framed_draw (hc : c ∈ charts) : Preserves (Framed charts) c.draw := by
  unfold draw Grid.fuseInto
  refine preserves_bind ?_ fun _ => ?_
  · unfold Grid.prepare
    refine preserves_lift_bind fun n _ => preserves_bind preserves_get fun _ => ?_
    refine preserves_ite (preserves_lift_bind fun blank hblank => ?_) (preserves_pure ())
    refine preserves_set ?_
    rintro _ ⟨⟩
    exact ⟨c, hc, blank, hblank, .refl blank⟩
  · unfold Grid.fuseIfAny
    refine preserves_get_bind fun map hmap => ?_
    cases map with
    | none => exact hmap
    | some g =>
      refine preserves_on (P := Framed charts) (fun _ _ => Grid.Grows.refl g)
        (Grid.preserves_grows_fuse g c.survey) ?_ (some g) hmap
      rintro _ k - hk _ ⟨⟩
      obtain ⟨d, hd, blank, hblank, hframe⟩ := hmap g rfl
      exact ⟨d, hd, blank, hblank, hframe.trans hk.frame⟩

theorem framed_drawn (charts : List (Chart α)) : Framed charts (drawn charts) :=
  List.foldlRecOn charts _ nofun fun map hmap _ hc => preserves_framed_draw hc map hmap

/-- The first chart is drawn into a new map. -/
theorem exists_drawn_singleton (hblank : c.blank? = .ok blank) (hfinite : c.survey.Finite blank) :
    ∃ g, drawn [c] = some g ∧ blank.SameFrame g := by
  obtain ⟨g, hrun, hlearns⟩ := draw_first hblank hfinite
  refine ⟨g, ?_, hlearns.frame⟩
  show final (c.draw none) = some g
  rw [hrun]
  rfl

theorem asAsked_of_oneGeometry {n : Int} (hsize : c.size? = .ok n)
    (hone : OneGeometry (c :: charts))
    (hfinite : ∀ d ∈ c :: charts, ∀ blank, d.blank? = .ok blank → c.survey.Finite blank) :
    c.AsAsked (drawn charts) := by
  have hframed := framed_drawn charts
  refine (asAsked_iff hsize ?_).mpr ?_
  · rintro g (hg | hg)
    · obtain ⟨d, hd, blank, hblank, hframe⟩ := hframed g hg
      exact hframe.sameGeometry.finite (hfinite d (.tail c hd) blank hblank)
    · exact hfinite c (.head charts) g hg
  · rintro g hg rfl
    obtain ⟨d, hd, blank, hblank, hframe⟩ := hframed g hg
    rw [hframe.size] at hsize
    obtain ⟨anew, hanew, hsame⟩ := hone d (.tail c hd) c (.head charts) blank hblank hsize
    exact ⟨anew, hanew, hsame.trans hframe.sameGeometry⟩

theorem finite_ahead (x : ℝ) (g : Grid ℝ) :
    (⟨[⟨0, .plain (.real x)⟩], ⟨0, 0, .computed⟩, .real 5, .real (19 / 20)⟩ :
      Survey ℝ).Finite g := by
  refine Survey.finite_of_numbers nofun ⟨_, rfl⟩ ⟨_, rfl⟩ fun p hp => ?_
  obtain rfl := List.mem_singleton.mp hp
  exact ⟨_, rfl⟩

/-- A scan of finite values is drawn as asked exactly if a map of as many cells, where there is one,
has the geometry that is asked for. So is every scan of a sequence in which the measures that ask
for as many cells ask for one geometry. -/
theorem geometry_kept_iff :
    (∀ (c : Chart α) (map : Option (Grid α)) (n : Int), c.size? = .ok n →
      (∀ g, map = some g ∨ c.blank? = .ok g → c.survey.Finite g) →
      (c.AsAsked map ↔ ∀ g, map = some g → (g.size : Int) = n →
        ∃ blank, c.blank? = .ok blank ∧ blank.SameGeometry g)) ∧
    ∀ (charts : List (Chart α)) (c : Chart α) (n : Int), c.size? = .ok n →
      OneGeometry (c :: charts) →
      (∀ d ∈ c :: charts, ∀ blank, d.blank? = .ok blank → c.survey.Finite blank) →
      c.AsAsked (drawn charts) :=
  ⟨fun _ _ _ => asAsked_iff, fun _ _ _ => asAsked_of_oneGeometry⟩

/-- A scan without readings for a map of 10 m at 5 cells a metre, and then one with a hit straight
ahead for a map of 4 m at 1 cell a metre. The second one is drawn into a map of its own, in which it
is drawn as asked as well where there is such a map already. -/
theorem geometry_kept_of_other_size :
    let first : Chart ℝ :=
      ⟨.number (.whole 10), .number (.whole 5), ⟨[], ⟨0, 0, .computed⟩, .real 5, .real (19 / 20)⟩⟩
    let second : Chart ℝ :=
      ⟨.number (.whole 4), .number (.whole 1),
        ⟨[⟨0, .plain (.real 1)⟩], ⟨0, 0, .computed⟩, .real 5, .real (19 / 20)⟩⟩
    let blank : Grid ℝ := ⟨.whole 4, .whole 1, 4, .replicate _ .unknown⟩
    second.AsAsked (drawn [first]) ∧ second.AsAsked (some (blank.passThrough 2 3)) := by
  intro first second blank
  have hfirst : first.blank? = .ok ⟨.whole 10, .whole 5, 50, .replicate _ .unknown⟩ :=
    Grid.new?_whole (m := 10) (n := 5) (by decide) (by decide) (by decide)
  have hsecond : second.blank? = .ok blank :=
    Grid.new?_whole (m := 4) (n := 1) (by decide) (by decide) (by decide)
  have hfinite : ∀ g, second.survey.Finite g := finite_ahead 1
  have hone : OneGeometry [second, first] := by
    intro c hc d hd g hg hsize
    simp only [List.mem_cons, List.not_mem_nil, or_false] at hc hd
    rcases hc with rfl | rfl <;> rcases hd with rfl | rfl
    · exact ⟨g, hg, (Grid.SameFrame.refl g).sameGeometry⟩
    · obtain rfl := Except.ok.inj (hsecond.symm.trans hg)
      cases hsize
    · obtain rfl := Except.ok.inj (hfirst.symm.trans hg)
      cases hsize
    · exact ⟨g, hg, (Grid.SameFrame.refl g).sameGeometry⟩
  refine ⟨geometry_kept_iff.2 [first] second 4 rfl hone fun _ _ g _ => hfinite g, ?_⟩
  refine (geometry_kept_iff.1 second _ 4 rfl fun g _ => hfinite g).mpr ?_
  rintro _ ⟨⟩ -
  exact ⟨blank, hsecond, (Grid.sameFrame_passThrough blank 2 3).sameGeometry⟩

/-- After a scan for a map of 10 m at 5 cells a metre one for a map of 5 m at 10 cells a metre is
not drawn as asked. -/
theorem not_asAsked_of_other_side :
    let first : Chart ℝ :=
      ⟨.number (.whole 10), .number (.whole 5), ⟨[], ⟨0, 0, .computed⟩, .real 5, .real (19 / 20)⟩⟩
    let second : Chart ℝ :=
      ⟨.number (.whole 5), .number (.whole 10),
        ⟨[⟨0, .plain (.real 1.03)⟩], ⟨0, 0, .computed⟩, .real 5, .real (19 / 20)⟩⟩
    ¬ second.AsAsked (drawn [first]) := by
  intro first second hasked
  have hfirst : first.blank? = .ok ⟨.whole 10, .whole 5, 50, .replicate _ .unknown⟩ :=
    Grid.new?_whole (m := 10) (n := 5) (by decide) (by decide) (by decide)
  have hsecond : second.blank? = .ok ⟨.whole 5, .whole 10, 50, .replicate _ .unknown⟩ :=
    Grid.new?_whole (m := 5) (n := 10) (by decide) (by decide) (by decide)
  have hfinite : ∀ g, second.survey.Finite g := finite_ahead 1.03
  obtain ⟨g, hg, hframe⟩ := exists_drawn_singleton hfirst
    (Survey.finite_of_numbers (by decide) ⟨_, rfl⟩ ⟨_, rfl⟩ nofun)
  obtain ⟨blank, hblank, hsame⟩ := (asAsked_iff (rfl : second.size? = .ok 50)
    fun g _ => hfinite g).mp hasked g hg (congrArg _ hframe.size)
  obtain rfl := Except.ok.inj (hsecond.symm.trans hblank)
  have hside := hsame.side
  rw [hframe.side] at hside
  exact absurd (Int.cast_injective (α := ℝ) hside) (by decide)

end Chart

end ArmRover
