import ArmRover.Proofs.Map.Reuse
import ArmRover.Proofs.Station.Passing
import ArmRover.Proofs.World.Sight
import ArmRover.Rover.Sensors

/-!
# The operations of the sensors

Quotients, square roots, and reading and writing the cells of a map are not defined everywhere. Here
the sensors run with any operations that are the usual ones where these are defined: a quotient by
zero, the root of a negative number and a cell beside the map may give anything, or fail. A refresh
does the same with all of them, wherever the cells of the map, if there is one, have a side. So it
never asks for any of the three.

* `Operations` — what the sensors are run with, `Operations.Usual` — what is asked of it,
  `Operations.strict` — operations that fail where they are not defined.
* `Operations.cast?`, `Operations.scan?` — rays, `Operations.fuseInto` — the map,
  `Operations.refresh` — the sensors.
* `Operations.Usual.cast?_eq`, `Operations.Usual.scan?_eq`, `Operations.Usual.related_fuseInto`,
  `Operations.Usual.refresh_eq` — they do the same.
-/

namespace ArmRover

open ArmRover.Action

/-- The operations that are not defined everywhere. -/
structure Operations (α : Type) where
  quotient? (x y : α) : Except (Fault α) α
  root? (x : α) : Except (Fault α) α
  /-- What is known of a cell. -/
  read? (g : Grid α) (gx gz : Int) : Except (Fault α) Cell
  /-- Write a cell. -/
  write? (g : Grid α) (gx gz : Int) (c : Cell) : Except (Fault α) (Grid α)

namespace Operations

variable [Scalar α] (ops : Operations α)

/-- Operations that fail where they are not defined. -/
def strict : Operations α where
  quotient? := Scalar.divide?
  root? x := if x < 0 then .error .wrongKind else .ok (Scalar.sqrt x)
  read? g gx gz :=
    match g.cell? gx gz with
    | some c => .ok c
    | none => .error .wrongKind
  write? g gx gz c := if g.contains gx gz then .ok (g.setCell gx gz c) else .error .wrongKind

/-! ### Rays -/

/-- Where a coordinate comes to a measure. -/
def crossing? (origin direction : α) (m : Measure α) : Except (Fault α) (Hit α) := do
  let x ← m.only?
  return ⟨← ops.quotient? (x - origin) direction, if m.listed then .listed else .computed⟩

/-- The part of a stretch in which one coordinate lies between two measures. -/
def between? (s : Shape.Stretch α) (form : Vantage.Form) (origin direction : α)
    (lower upper : Value α) : Except (Fault α) (Option (Shape.Stretch α)) := do
  if Shape.Stretch.parallel direction then
    if ← form.above? lower origin then return none
    if ← form.below? upper origin then return none
    return some s
  else
    let lower ← form.measure? lower
    let upper ← form.measure? upper
    return s.crossing (← ops.crossing? origin direction lower)
      (← ops.crossing? origin direction upper)

/-- Where a ray meets a box. -/
def boxHit? (ray : Ray α) (xMin xMax zMin zMax : Value α) :
    Except (Fault α) (Option (Hit α)) := do
  let p := ray.origin
  match ← ops.between? .whole p.form p.x ray.dx xMin xMax with
  | none => return none
  | some s => return (← ops.between? s p.form p.z ray.dz zMin zMax).map Shape.Stretch.near

/-- Where a ray crosses a circle. -/
def circleCrossings? (ray : Ray α) (x z squaredRadius : α) : Except (Fault α) (Option (α × α)) :=
  let fx := ray.origin.x - x
  let fz := ray.origin.z - z
  let a := ray.dx * ray.dx + ray.dz * ray.dz
  let b := 2 * (fx * ray.dx + fz * ray.dz)
  let c := fx * fx + fz * fz - squaredRadius
  let discriminant := b * b - 4 * a * c
  if a == 0 || decide (discriminant < 0) then return none
  else do
    let root ← ops.root? discriminant
    return some (← ops.quotient? (-b - root) (2 * a), ← ops.quotient? (-b + root) (2 * a))

/-- Where a ray meets a circle. -/
def circleHit? (ray : Ray α) (x z radius : Value α) : Except (Fault α) (Option (Hit α)) := do
  let x ← ray.origin.form.measure? x
  let z ← ray.origin.form.measure? z
  if !x.agrees z then throw .notSingle
  let squaredRadius ← (← radius.number?).square?
  if Shape.Ray.vertical ray then return none
  let crossings ← ops.circleCrossings? ray (← x.only?) (← z.only?) squaredRadius
  if crossings.isSome && (x.listed || z.listed) then throw .wrongKind
  return Shape.firstOf crossings

/-- Where a ray meets a shape. -/
def hit? (ray : Ray α) : Shape (Value α) → Except (Fault α) (Option (Hit α))
  | .box xMin xMax zMin zMax => ops.boxHit? ray xMin xMax zMin zMax
  | .circle x z radius => ops.circleHit? ray x z radius

/-- The nearer of the hit so far and that of an obstacle. -/
def withObstacle? (ray : Ray α) (range : Value α) (nearest : Option (Hit α)) (o : Obstacle α) :
    Except (Fault α) (Option (Hit α)) := do
  match ← ops.hit? ray o.shape with
  | none => return nearest
  | some h => if ← h.within? range then return some (World.nearer nearest h) else return nearest

/-- The hit on the first solid obstacle along a ray. -/
def nearest? (world : World α) (ray : Ray α) (range : Value α) :
    Except (Fault α) (Option (Hit α)) :=
  (world.filter Obstacle.solid).foldlM (ops.withObstacle? ray range) none

/-- What a ray tells of the world. -/
def cast? (world : World α) (ray : Ray α) (range : Value α) : Except (Fault α) (Sighting α) := do
  match ← ops.nearest? world ray range with
  | none => return .plain range
  | some h => return .hit h

/-- Readings along `n` rays all around a point. -/
def around? (world : World α) (origin : Vantage α) (n : Nat) (range : Value α) :
    Except (Fault α) (List (Reading α)) := do
  let part ← ops.quotient? (2 * Scalar.pi) (Scalar.ofInt n)
  (List.range n).mapM fun (i : Nat) => do
    let angle := Scalar.ofInt i * part
    return ⟨angle, ← ops.cast? world (Ray.along origin (ArmRover.heading angle)) range⟩

/-- Readings all around a point. -/
def scan? (world : World α) (origin : Vantage α) (rays range : Value α) :
    Except (Fault α) (List (Reading α)) := do
  let n ← rays.number?
  if n.below 1 then throw (.rayCount rays)
  let _ ← n.scalar?
  ops.around? world origin (← n.whole?).toNat range

/-! ### The map -/

/-- The length of a side of a cell. -/
def cellSide? (g : Grid α) : Except (Fault α) α := ops.quotient? g.side.value (Scalar.ofInt g.size)

/-- The number of the cell along one axis. -/
def index? (g : Grid α) (x : α) : Except (Fault α) α := do
  return Scalar.ofInt g.size / 2 + (← ops.quotient? x (← ops.cellSide? g))

/-- The cell that holds a position. -/
def locate? (g : Grid α) (x z : α) : Except (Fault α) (Int × Int) := do
  let gx ← Scalar.floor? (← ops.index? g x)
  let gz ← Scalar.floor? (← ops.index? g z)
  return (gx, gz)

/-- A ray went through the cell. -/
def passThrough? (g : Grid α) (gx gz : Int) : Except (Fault α) (Grid α) := do
  if g.contains gx gz then
    if (← ops.read? g gx gz) = .occupied then return g
    ops.write? g gx gz .free
  else return g

/-- A ray ended in the cell. -/
def endIn? (g : Grid α) (gx gz : Int) : Except (Fault α) (Grid α) :=
  if g.contains gx gz then ops.write? g gx gz .occupied else .ok g

/-- Mark the cell at a distance along a ray. -/
def markAt (mark : Grid α → Int → Int → Except (Fault α) (Grid α)) (origin : Vantage α)
    (sin cos distance : α) : Action α (Grid α) Unit := do
  let (x, z) ← Action.lift (origin.along? sin cos distance)
  let (gx, gz) ← Action.lift (ops.locate? (← get) x z)
  set (← Action.lift (mark (← get) gx gz))

/-- Fuse one reading. -/
def fuseReading (origin : Vantage α) (limit : Except (Fault α) (Value α)) (p : Reading α) :
    Action α (Grid α) Unit := do
  let (sin, cos) ← Action.lift (Scalar.sinCos? p.angle)
  let cellSide ← Action.lift (ops.cellSide? (← get))
  let distance ← Action.lift p.distance.value.scalar?
  let steps ← Action.lift (Scalar.floor? (← Action.lift (ops.quotient? distance cellSide)))
  Action.upTo steps.toNat fun step =>
    ops.markAt ops.passThrough? origin sin cos (Scalar.ofInt step * cellSide)
  if ← Action.lift (p.distance.below? (← Action.lift limit)) then
    ops.markAt ops.endIn? origin sin cos distance

/-- Fuse the readings of a scan. -/
def fuse (scan : List (Reading α)) (origin : Vantage α) (range ratio : Value α) :
    Action α (Grid α) Unit :=
  Action.each scan (ops.fuseReading origin (range.product? ratio))

/-- Have a map with the given side and density. The side of its cells is computed at once. -/
def prepare (side density : Value α) : Action α (Option (Grid α)) Unit := do
  let size ← Action.lift (Grid.size? side density)
  if !Grid.hasSize (← get) size then
    let g ← Action.lift (Grid.new? side density)
    let _ ← Action.lift (ops.cellSide? g)
    set (some g)

/-- Fuse a scan into the map, if there is one. -/
def fuseIfAny (scan : List (Reading α)) (origin : Vantage α) (range ratio : Value α) :
    Action α (Option (Grid α)) Unit := do
  match ← get with
  | none => pure ()
  | some g => Action.on (fun _ => g) (fun _ g => some g) (ops.fuse scan origin range ratio)

/-- Fuse a scan into a map with the given side and density. -/
def fuseInto (scan : List (Reading α)) (origin : Vantage α)
    (side density range ratio : Value α) : Action α (Option (Grid α)) Unit := do
  ops.prepare side density
  ops.fuseIfAny scan origin range ratio

/-! ### The sensors -/

/-- The reading of the distance sensor, refreshed if it is due. -/
def lookAhead (senses : Settings.Senses α) (world : World α) (now : α) :
    Action α (Station α) (Value α) := do
  let s ← get
  if ← Action.lift (Sensors.fresh? s.gates.distance now (.real senses.interval)) then
    return s.rover.distance
  modify fun s => { s with gates := { s.gates with distance := some now } }
  let direction ← Action.lift (heading? s.rover.heading)
  let sighting ← Action.lift (ops.cast? world (Ray.along s.rover.ground direction) senses.range)
  let reading ← Action.lift sighting.value.numeric?
  modify fun s => s.setReading reading
  return sighting.value

/-- Scan all around and fuse the scan into the map. -/
def scanAround (senses : Settings.Senses α) (mapping : Settings.Mapping α) (world : World α) :
    Action α (Station α) Unit := do
  let ground := (← get).rover.ground
  let scan ← Action.lift (ops.scan? world ground (.number senses.rays) senses.range)
  modify fun s => { s with rover := { s.rover with scan } }
  Action.on Station.map (fun s map => { s with map })
    (ops.fuseInto scan ground (.number mapping.side) (.number mapping.density) senses.range
      mapping.hitRatio)

/-- Refresh the sensors that are due, if the rover is active. -/
def refresh (senses : Settings.Senses α) (mapping : Settings.Mapping α) (world : World α)
    (now : α) : Action α (Station α) Unit := do
  if (← get).active ≠ .rover then return
  let _ ← ops.lookAhead senses world now
  if ← Action.lift (Sensors.fresh? (← get).gates.scan now senses.scanInterval) then return
  modify fun s => { s with gates := { s.gates with scan := some now } }
  ops.scanAround senses mapping world

/-! ### The usual operations -/

/-- Operations that are the usual ones where these are defined. -/
structure Usual (ops : Operations ℝ) : Prop where
  quotient? : ∀ (x : ℝ) {y : ℝ}, y ≠ 0 → ops.quotient? x y = .ok (x / y)
  root? : ∀ {x : ℝ}, 0 ≤ x → ops.root? x = .ok √x
  read? : ∀ {g : Grid ℝ} {gx gz : Int} {c : Cell}, g.cell? gx gz = some c →
    ops.read? g gx gz = .ok c
  write? : ∀ {g : Grid ℝ} {gx gz : Int}, g.contains gx gz = true →
    ∀ c, ops.write? g gx gz c = .ok (g.setCell gx gz c)

theorem usual_strict : (strict : Operations ℝ).Usual where
  quotient? x y hy := by
    have hzero : (y == Scalar.ofInt 0) = false := by
      rw [Scalar.ofInt_real, Int.cast_zero]
      exact beq_eq_false_iff_ne.mpr hy
    show (if y == Scalar.ofInt 0 then .error .divisionByZero else .ok (x / y) :
      Except (Fault ℝ) ℝ) = _
    rw [hzero]
    rfl
  root? {x} hx := by
    have hreal : ¬ x < Scalar.ofInt 0 := by
      rw [Scalar.ofInt_real, Int.cast_zero]
      exact not_lt.mpr hx
    exact if_neg hreal
  read? hc := by
    show (match Grid.cell? _ _ _ with | some c => .ok c | none => .error .wrongKind :
      Except (Fault ℝ) Cell) = _
    rw [hc]
  write? hcontains c := if_pos hcontains

/-- The cells of the map, if there is one, have a side. -/
def Sided (map : Option (Grid ℝ)) : Prop := ∀ g, map = some g → g.cellSide ≠ 0

namespace Usual

variable {ops : Operations ℝ} (h : ops.Usual)

include h

/-! ### Rays do the same -/

theorem crossing?_eq {direction : ℝ} (hd : direction ≠ 0) (origin : ℝ) (m : Measure ℝ) :
    ops.crossing? origin direction m = Hit.crossing? origin direction m := by
  unfold crossing? Hit.crossing?
  cases m.only? with
  | error fault => rfl
  | ok x =>
    show (do return ⟨← ops.quotient? (x - origin) direction, _⟩ : Except (Fault ℝ) (Hit ℝ)) = _
    rw [h.quotient? _ hd]
    rfl

/-- Along a direction that does not count as parallel a coordinate changes. -/
theorem between?_eq (s : Shape.Stretch ℝ) (form : Vantage.Form) (origin direction : ℝ)
    (lower upper : Value ℝ) :
    ops.between? s form origin direction lower upper =
      s.between? form origin direction lower upper := by
  unfold between? Shape.Stretch.between?
  by_cases hparallel : Shape.Stretch.parallel direction = true
  · rw [if_pos hparallel, if_pos hparallel]
  · have hd := Shape.Stretch.ne_zero_of_not_parallel hparallel
    rw [if_neg hparallel, if_neg hparallel]
    simp only [h.crossing?_eq hd]

theorem boxHit?_eq (ray : Ray ℝ) (xMin xMax zMin zMax : Value ℝ) :
    ops.boxHit? ray xMin xMax zMin zMax = Shape.boxHit? ray xMin xMax zMin zMax := by
  refine congrArg₂ bind (h.between?_eq _ _ _ _ _ _) (funext fun found => ?_)
  cases found with
  | none => rfl
  | some s =>
    exact congrArg (fun found => do return (← found).map Shape.Stretch.near)
      (h.between?_eq s _ _ _ _ _)

/-- Roots are only taken of a discriminant that is not negative, for a ray with some length. -/
theorem circleCrossings?_eq (ray : Ray ℝ) (x z squaredRadius : ℝ) :
    ops.circleCrossings? ray x z squaredRadius =
      .ok (Shape.circleCrossings ray x z squaredRadius) := by
  unfold circleCrossings? Shape.circleCrossings
  simp only [Scalar.add_real, Scalar.sub_real, Scalar.mul_real, Scalar.div_real, Scalar.neg_real,
    Scalar.lt_real, Scalar.zero_real, Scalar.numeral_real]
  split
  case isTrue => rfl
  case isFalse hreal =>
    rw [Bool.or_eq_true, not_or, beq_iff_eq, decide_eq_true_eq, not_lt] at hreal
    have h2a := mul_ne_zero two_ne_zero hreal.1
    rw [h.root? hreal.2]
    show (do return some (← ops.quotient? _ _, ← ops.quotient? _ _) :
      Except (Fault ℝ) (Option (ℝ × ℝ))) = _
    rw [h.quotient? _ h2a, h.quotient? _ h2a]
    rfl

theorem circleHit?_eq (ray : Ray ℝ) (x z radius : Value ℝ) :
    ops.circleHit? ray x z radius = Shape.circleHit? ray x z radius := by
  unfold circleHit? Shape.circleHit?
  simp only [h.circleCrossings?_eq]
  rfl

theorem hit?_eq (ray : Ray ℝ) (shape : Shape (Value ℝ)) : ops.hit? ray shape = shape.hit? ray := by
  cases shape with
  | box xMin xMax zMin zMax => exact h.boxHit?_eq ray xMin xMax zMin zMax
  | circle x z radius => exact h.circleHit?_eq ray x z radius

theorem cast?_eq (world : World ℝ) (ray : Ray ℝ) (range : Value ℝ) :
    ops.cast? world ray range = world.cast? ray range := by
  have hobstacle : ops.withObstacle? ray range = World.withObstacle? ray range := by
    funext nearest o
    refine congrArg₂ bind (h.hit?_eq ray o.shape) (funext fun hit => ?_)
    cases hit <;> rfl
  have hnearest : ops.nearest? world ray range = world.nearest? ray range := by
    unfold nearest? World.nearest?
    rw [hobstacle]
  refine congrArg₂ bind hnearest (funext fun nearest => ?_)
  cases nearest <;> rfl

theorem around?_eq (world : World ℝ) (origin : Vantage ℝ) {n : Nat} (hpos : 0 < n)
    (range : Value ℝ) : ops.around? world origin n range = world.around? origin n range := by
  have hparts : (Scalar.ofInt n : ℝ) ≠ 0 := by
    rw [Scalar.ofInt_real, Int.cast_natCast]
    exact Nat.cast_ne_zero.mpr hpos.ne'
  unfold around? World.around?
  rw [h.quotient? _ hparts]
  simp only [h.cast?_eq]
  rfl

/-- The circle is only divided into a positive number of parts. -/
theorem scan?_eq (world : World ℝ) (origin : Vantage ℝ) (rays range : Value ℝ) :
    ops.scan? world origin rays range = world.scan? origin rays range := by
  refine congrArg (Except.bind rays.number?) (funext fun n => ?_)
  show (do
    if n.below (Scalar.ofInt 1) then throw (Fault.rayCount rays)
    let _ ← n.scalar?
    ops.around? world origin (← n.whole?).toNat range) = (do
    if n.below (Scalar.ofInt 1) then throw (Fault.rayCount rays)
    let _ ← n.scalar?
    world.around? origin (← n.whole?).toNat range)
  by_cases hbelow : n.below (Scalar.ofInt 1) = true
  · rw [if_pos hbelow, if_pos hbelow]
    rfl
  · rw [if_neg hbelow, if_neg hbelow, n.scalar?_eq_value]
    cases n with
    | real x => rfl
    | whole k =>
      rw [Number.below_real, decide_eq_true_eq, not_lt] at hbelow
      have hk : 1 ≤ k := Int.cast_le.mp hbelow
      exact h.around?_eq world origin (by omega) range

/-! ### The map does the same -/

section Map

variable {g : Grid ℝ}

theorem cellSide?_eq (hside : g.cellSide ≠ 0) : ops.cellSide? g = .ok g.cellSide := by
  have hsize : (Scalar.ofInt g.size : ℝ) ≠ 0 := by
    rw [Scalar.ofInt_real, Int.cast_natCast]
    intro hzero
    rw [Grid.cellSide_real, hzero, div_zero] at hside
    exact hside rfl
  unfold cellSide?
  rw [h.quotient? _ hsize, Grid.cellSide_real, Scalar.ofInt_real, Int.cast_natCast]

theorem locate?_eq (hside : g.cellSide ≠ 0) (x z : ℝ) : ops.locate? g x z = g.locate? x z := by
  have hindex : ∀ x, ops.index? g x = .ok (g.index x) := by
    intro x
    unfold index?
    rw [h.cellSide?_eq hside]
    show (do return g.size / 2 + (← ops.quotient? x g.cellSide) : Except (Fault ℝ) ℝ) = _
    rw [h.quotient? _ hside, Grid.index_real]
    rfl
  unfold locate?
  rw [hindex, hindex]
  rfl

/-- Only cells of the map are read and written. -/
theorem passThrough?_eq (g : Grid ℝ) (gx gz : Int) :
    ops.passThrough? g gx gz = .ok (g.passThrough gx gz) := by
  unfold passThrough? Grid.passThrough
  by_cases hcontains : g.contains gx gz = true
  · obtain ⟨c, hc⟩ := Option.ne_none_iff_exists'.mp (Grid.cell?_ne_none_iff.mpr hcontains)
    rw [if_pos hcontains, h.read? hc, hc, h.write? hcontains]
    cases c <;> rfl
  · have hnone := Grid.cell?_of_not_contains hcontains
    rw [if_neg hcontains, hnone, if_neg nofun]
    unfold Grid.setCell
    rw [if_neg hcontains]
    rfl

theorem endIn?_eq (g : Grid ℝ) (gx gz : Int) :
    ops.endIn? g gx gz = .ok (g.endIn gx gz) := by
  unfold endIn? Grid.endIn
  by_cases hcontains : g.contains gx gz = true
  · rw [if_pos hcontains, h.write? hcontains]
  · unfold Grid.setCell
    rw [if_neg hcontains, if_neg hcontains]

/-- Marks keep the side of the cells. -/
theorem related_markAt {mark? : Grid ℝ → Int → Int → Except (Fault ℝ) (Grid ℝ)}
    {mark : Grid ℝ → Int → Int → Grid ℝ} (hmark : ∀ g x z, mark? g x z = .ok (mark g x z))
    (hframe : ∀ (g : Grid ℝ) x z, g.SameFrame (mark g x z)) (origin : Vantage ℝ) (sin cos d : ℝ) :
    Related (Same fun g : Grid ℝ => g.cellSide ≠ 0) Eq (ops.markAt mark? origin sin cos d)
      (Grid.markAt mark origin sin cos d) := by
  unfold markAt Grid.markAt
  refine related_seq (related_lift _) fun (x, z) => related_get_bind fun g hside => ?_
  rw [h.locate?_eq hside]
  refine related_seq (related_lift _) fun (gx, gz) => ?_
  -- one side runs `mark?` and the other changes the map, so they are compared map by map
  rintro k _ ⟨rfl, hk⟩
  show Alike _ _ ((Action.lift (mark? k gx gz) >>= set : Action ℝ (Grid ℝ) PUnit) k) _
  rw [hmark]
  refine .ok rfl ⟨rfl, ?_⟩
  show (mark k gx gz).cellSide ≠ 0
  rwa [(hframe k gx gz).cellSide]

theorem related_fuseReading (origin : Vantage ℝ) (limit : Except (Fault ℝ) (Value ℝ))
    (p : Reading ℝ) :
    Related (Same fun g : Grid ℝ => g.cellSide ≠ 0) Eq (ops.fuseReading origin limit p)
      (Grid.fuseReading origin limit p) := by
  have hpass := h.related_markAt h.passThrough?_eq Grid.sameFrame_passThrough origin
  have hend := h.related_markAt h.endIn?_eq Grid.sameFrame_endIn origin
  unfold fuseReading Grid.fuseReading
  refine related_seq (related_lift _) fun (sin, cos) => related_get_bind fun g hside => ?_
  refine related_lift_left (h.cellSide?_eq hside) ?_
  refine related_seq (related_lift _) fun d => related_lift_left (h.quotient? d hside) ?_
  refine related_seq (related_lift _) fun steps => ?_
  refine related_seq (related_each fun step _ => hpass _ _ _) fun _ => ?_
  refine related_seq (related_lift _) fun l => related_seq (related_lift _) fun hit => ?_
  exact related_ite Iff.rfl (fun _ => hend _ _ _) fun _ => related_pure rfl

theorem related_prepare (side density : Value ℝ) :
    Related (Same Sided) Eq (ops.prepare side density) (Grid.prepare side density) := by
  unfold prepare Grid.prepare
  refine related_seq (related_lift _) fun size => related_get_bind fun map _ => ?_
  refine related_ite Iff.rfl (fun _ => ?_) fun _ => related_pure rfl
  cases hnew : Grid.new? side density with
  | error fault => exact related_throw fault
  | ok g =>
    -- the measures of a new map have been checked, so its cells have a side
    have hside := (Grid.ofMeasures_of_new? hnew).cellSide_pos.ne'
    refine related_lift_left rfl (related_lift_left (h.cellSide?_eq hside) ?_)
    rintro _ _ -
    refine .ok rfl ⟨rfl, ?_⟩
    rintro _ ⟨⟩
    exact hside

/-- A new map has cells with a side, and fusing keeps it. -/
theorem related_fuseInto (scan : List (Reading ℝ)) (origin : Vantage ℝ)
    (side density range ratio : Value ℝ) :
    Related (Same Sided) Eq (ops.fuseInto scan origin side density range ratio)
      (Grid.fuseInto scan origin side density range ratio) := by
  refine related_seq (h.related_prepare side density) fun _ => ?_
  refine related_get_bind fun map hmap => ?_
  cases map with
  | none => exact related_pure rfl
  | some g =>
    refine related_on (P := Same fun g : Grid ℝ => g.cellSide ≠ 0) ?_
      (related_each fun p _ => h.related_fuseReading origin _ p) ?_
    · exact fun _ _ _ => ⟨rfl, hmap g rfl⟩
    · rintro _ _ k _ - ⟨rfl, hk⟩
      refine ⟨rfl, ?_⟩
      rintro _ ⟨⟩
      exact hk

end Map

/-! ### The sensors do the same -/

theorem lookAhead_eq (senses : Settings.Senses ℝ) (world : World ℝ) (now : ℝ) :
    ops.lookAhead senses world now = Sensors.lookAhead senses world now := by
  unfold lookAhead Sensors.lookAhead
  simp only [h.cast?_eq]

theorem related_scanAround (senses : Settings.Senses ℝ) (mapping : Settings.Mapping ℝ)
    (world : World ℝ) :
    Related (Same fun st : Station ℝ => Sided st.map) Eq (ops.scanAround senses mapping world)
      (Sensors.scanAround senses mapping world) := by
  unfold scanAround Sensors.scanAround
  refine related_get_bind fun st _ => ?_
  dsimp only
  rw [h.scan?_eq]
  refine related_seq (related_lift _) fun scan => ?_
  have hfuse := h.related_fuseInto scan st.rover.ground (.number mapping.side)
    (.number mapping.density) senses.range mapping.hitRatio
  refine related_seq (related_modify ?_) fun _ => related_on ?_ hfuse ?_
  · rintro s _ ⟨rfl, hs⟩
    exact ⟨rfl, hs⟩
  · rintro s _ ⟨rfl, hs⟩
    exact ⟨rfl, hs⟩
  · rintro s _ map _ ⟨rfl, -⟩ ⟨rfl, hmap⟩
    exact ⟨rfl, hmap⟩

/-- A refresh does the same with all operations that are the usual ones where these are defined. -/
theorem refresh_eq (senses : Settings.Senses ℝ) (mapping : Settings.Mapping ℝ) (world : World ℝ)
    (now : ℝ) {st : Station ℝ} (hmap : Sided st.map) :
    ops.refresh senses mapping world now st = Sensors.refresh senses mapping world now st := by
  refine Related.eq_of (V := fun st : Station ℝ => Sided st.map) ?_ hmap
  unfold refresh Sensors.refresh
  refine related_get_bind fun s _ => related_ite Iff.rfl (fun _ => related_pure rfl) fun _ => ?_
  rw [h.lookAhead_eq]
  -- looking ahead is the same, and leaves the map as it is
  refine related_seq (related_of_preserves ?_) fun _ => related_get_bind fun t _ => ?_
  · exact Sensors.preserves_lookAhead (fun _ h => h) fun _ _ h => h
  refine related_seq (related_lift _) fun fresh => ?_
  refine related_ite Iff.rfl (fun _ => related_pure rfl) fun _ => ?_
  refine related_seq (related_modify ?_) fun _ => h.related_scanAround senses mapping world
  rintro s _ ⟨rfl, hs⟩
  exact ⟨rfl, hs⟩

end Usual

end Operations

end ArmRover
