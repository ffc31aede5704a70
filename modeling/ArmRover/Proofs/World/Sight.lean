import ArmRover.Proofs.Action
import ArmRover.Proofs.World.Hit
import Mathlib.Algebra.Order.Group.Int
import Mathlib.Analysis.SpecialFunctions.Trigonometric.Bounds

/-!
# What a sensor sees

Over the real numbers the distance that a ray tells is how far the ray can be followed, up to the
range of the sensor, before it comes to a solid shape. Rays that are spread evenly are fit for this,
unless they are so many that a ray is very nearly along an axis and not quite.

* `World.SolidAt` — positions that are taken, `World.Proper` — worlds of proper shapes.
* `Sighting.Tells` — what a distance says about a ray, `World.exists_cast?` — that of a sighting.
* `World.regular_rayAngle` — evenly spread rays, `World.tells_of_scan?` — the readings of a scan.
-/

namespace ArmRover

open ArmRover.Action

/-! ### Worlds -/

namespace World

/-- A solid shape takes the position. -/
def SolidAt (world : World ℝ) (x z : ℝ) : Prop :=
  ∃ o ∈ world, o.solid = true ∧ o.shape.Contains x z

/-- All solid shapes have measures in order. -/
def Proper (world : World ℝ) : Prop := ∀ o ∈ world, o.solid = true → o.shape.Proper

end World

/-- The position of a ray at a parameter is taken by a solid shape. -/
def Ray.Blocked (ray : Ray ℝ) (world : World ℝ) (t : ℝ) : Prop :=
  world.SolidAt (ray.origin.x + ray.dx * t) (ray.origin.z + ray.dz * t)

/-- A distance within the range up to which no position of a ray is taken. If it is less than the
range, then the position there is taken. -/
structure Sighting.Tells (world : World ℝ) (ray : Ray ℝ) (range : ℝ) (s : Sighting ℝ) : Prop where
  isNumber : s.value.IsNumber
  nonneg : 0 ≤ s.value.amount
  clear : ∀ t, 0 ≤ t → t < s.value.amount → ¬ ray.Blocked world t
  le : s.value.amount ≤ range
  blocked : s.value.amount < range → ray.Blocked world s.value.amount

/-! ### The nearest hit -/

namespace Hit

/-- A hit at the first of some parameters, if there is one within a range. -/
def FirstWithin (range : ℝ) (inside : ℝ → Prop) : Option (Hit ℝ) → Prop
  | none => ∀ t, 0 ≤ t → t ≤ range → ¬ inside t
  | some h => First inside (some h) ∧ h.place ≤ range

theorem within?_of_isNumber (h : Hit ℝ) {range : Value ℝ} (hrange : range.IsNumber) :
    h.within? range = .ok (decide (h.place ≤ range.amount)) := by
  obtain ⟨place, form⟩ := h
  cases form with
  | start => exact Value.ask?_atLeast hrange place
  | computed => exact Value.askComputed?_of_isNumber hrange (·.atLeast place)
  | listed => exact Value.askComputed?_of_isNumber hrange (·.atLeast place)

/-- A hit on something else that is not within the range makes no difference. -/
theorem FirstWithin.of_beyond {range : ℝ} {inside inside' : ℝ → Prop} {nearest : Option (Hit ℝ)}
    (hnearest : FirstWithin range inside nearest)
    (hbeyond : ∀ t, 0 ≤ t → t ≤ range → ¬ inside' t) :
    FirstWithin range (fun t => inside t ∨ inside' t) nearest := by
  cases nearest with
  | none => exact fun t ht hle hin => hin.elim (hnearest t ht hle) (hbeyond t ht hle)
  | some n =>
    obtain ⟨⟨hform, hnonneg, hin, hbefore⟩, hle⟩ := hnearest
    refine ⟨⟨hform, hnonneg, .inl hin, fun t ht htn hin => ?_⟩, hle⟩
    exact hin.elim (hbefore t ht htn) (hbeyond t ht (htn.le.trans hle))

/-- The nearer one of two hits within the range. -/
theorem FirstWithin.nearer {range : ℝ} {inside inside' : ℝ → Prop} {nearest : Option (Hit ℝ)}
    {h : Hit ℝ} (hnearest : FirstWithin range inside nearest) (hh : First inside' (some h))
    (hle : h.place ≤ range) :
    FirstWithin range (fun t => inside t ∨ inside' t) (some (World.nearer nearest h)) := by
  obtain ⟨hform, hnonneg, hin, hbefore⟩ := hh
  cases nearest with
  | none =>
    refine ⟨⟨hform, hnonneg, .inr hin, fun t ht hth hin => ?_⟩, hle⟩
    exact hin.elim (hnearest t ht (hth.le.trans hle)) (hbefore t ht hth)
  | some n =>
    obtain ⟨⟨hform', hnonneg', hin', hbefore'⟩, hle'⟩ := hnearest
    unfold World.nearer
    dsimp only
    split
    case isTrue hlt =>
      refine ⟨⟨hform, hnonneg, .inr hin, fun t ht hth hin => ?_⟩, hle⟩
      exact hin.elim (hbefore' t ht (hth.trans hlt)) (hbefore t ht hth)
    case isFalse hlt =>
      refine ⟨⟨hform', hnonneg', .inl hin', fun t ht htn hin => ?_⟩, hle'⟩
      exact hin.elim (hbefore' t ht htn) (hbefore t ht (htn.trans_le (not_lt.mp hlt)))

end Hit

namespace World

variable {world : World ℝ} {ray : Ray ℝ} {range : Value ℝ}

theorem exists_withObstacle? (hray : ray.Regular) (hrange : range.IsNumber) {o : Obstacle ℝ}
    (ho : o.shape.Proper) {inside : ℝ → Prop} {nearest : Option (Hit ℝ)}
    (hnearest : Hit.FirstWithin range.amount inside nearest) :
    ∃ next, withObstacle? ray range nearest o = .ok next ∧
      Hit.FirstWithin range.amount (fun t => inside t ∨ ray.Meets o.shape t) next := by
  obtain ⟨hit, hrun, hfirst⟩ := Shape.exists_hit? hray ho
  unfold withObstacle?
  rw [hrun]
  cases hit with
  | none => exact ⟨nearest, rfl, hnearest.of_beyond fun t ht _ => hfirst t ht⟩
  | some h =>
    show ∃ next, (do
      if ← h.within? range then return some (nearer nearest h) else return nearest :
      Except (Fault ℝ) (Option (Hit ℝ))) = .ok next ∧ _
    rw [h.within?_of_isNumber hrange]
    by_cases hle : h.place ≤ range.amount
    · rw [decide_eq_true hle]
      exact ⟨_, rfl, hnearest.nearer hfirst hle⟩
    · rw [decide_eq_false hle]
      refine ⟨nearest, rfl, hnearest.of_beyond fun t ht hle' => ?_⟩
      exact hfirst.2.2.2 t ht (hle'.trans_lt (not_le.mp hle))

theorem exists_foldlM_withObstacle? (hray : ray.Regular) (hrange : range.IsNumber)
    {obstacles : List (Obstacle ℝ)} (hproper : ∀ o ∈ obstacles, o.shape.Proper)
    {inside : ℝ → Prop} {nearest : Option (Hit ℝ)}
    (hnearest : Hit.FirstWithin range.amount inside nearest) :
    ∃ last, obstacles.foldlM (withObstacle? ray range) nearest = .ok last ∧
      Hit.FirstWithin range.amount
        (fun t => inside t ∨ ∃ o ∈ obstacles, ray.Meets o.shape t) last := by
  induction obstacles generalizing inside nearest with
  | nil =>
    refine ⟨nearest, rfl, hnearest.of_beyond ?_⟩
    rintro t - - ⟨o, ho, -⟩
    cases ho
  | cons o rest ih =>
    obtain ⟨next, hrun, hnext⟩ :=
      exists_withObstacle? hray hrange (hproper o List.mem_cons_self) hnearest
    obtain ⟨last, hrest, hlast⟩ := ih (fun p hp => hproper p (List.mem_cons_of_mem _ hp)) hnext
    refine ⟨last, ?_, ?_⟩
    · rw [List.foldlM_cons, hrun]
      exact hrest
    · simpa [or_assoc] using hlast

theorem exists_nearest? (hray : ray.Regular) (hworld : world.Proper) (hrange : range.IsNumber) :
    ∃ hit, world.nearest? ray range = .ok hit ∧
      Hit.FirstWithin range.amount (ray.Blocked world) hit := by
  have hproper : ∀ o ∈ world.filter Obstacle.solid, o.shape.Proper := by
    intro o ho
    obtain ⟨hmem, hsolid⟩ := List.mem_filter.mp ho
    exact hworld o hmem hsolid
  have hnone : Hit.FirstWithin range.amount (fun _ => False) none := fun _ _ _ => id
  obtain ⟨hit, hrun, hfirst⟩ := exists_foldlM_withObstacle? hray hrange hproper hnone
  refine ⟨hit, hrun, ?_⟩
  have hblocked : (fun t => False ∨ ∃ o ∈ world.filter Obstacle.solid, ray.Meets o.shape t) =
      ray.Blocked world := by
    funext t
    simp [Ray.Blocked, SolidAt, Ray.Meets, and_assoc]
  rwa [hblocked] at hfirst

/-- A ray that is cast tells how far it can be followed. -/
theorem exists_cast? (hray : ray.Regular) (hworld : world.Proper) (hrange : range.IsNumber)
    (hnonneg : 0 ≤ range.amount) :
    ∃ s, world.cast? ray range = .ok s ∧ s.Tells world ray range.amount := by
  obtain ⟨hit, hrun, hfirst⟩ := exists_nearest? hray hworld hrange
  unfold cast?
  rw [hrun]
  cases hit with
  | none =>
    exact ⟨.plain range, rfl, {
      isNumber := hrange
      nonneg := hnonneg
      clear := fun t ht hlt => hfirst t ht hlt.le
      le := le_rfl
      blocked := fun h => absurd h (lt_irrefl _) }⟩
  | some h =>
    obtain ⟨⟨hform, hplace, hin, hbefore⟩, hle⟩ := hfirst
    have hvalue : (Sighting.hit h).value = .real h.place := by
      obtain ⟨place, form⟩ := h
      cases form with
      | start => rfl
      | computed => rfl
      | listed => exact absurd rfl hform
    have hamount : (Sighting.hit h).value.amount = h.place := by
      rw [hvalue]
      rfl
    exact ⟨.hit h, rfl, {
      isNumber := ⟨_, by rw [hvalue]; rfl⟩
      nonneg := by rwa [hamount]
      clear := by rwa [hamount]
      le := by rwa [hamount]
      blocked := fun _ => by rwa [hamount] }⟩

/-! ### Rays all around -/

/-- After some but not all of the `n` parts of a half turn, the sine is at least `2 / n`. -/
theorem le_sin_part {r n : Nat} (hr : 0 < r) (hrn : r < n) :
    2 / n ≤ Real.sin (r * Real.pi / n) := by
  have hn : (0 : ℝ) < n := Nat.cast_pos.mpr (hr.trans hrn)
  have hquarter : ∀ m : Nat, 0 < m → 2 * m ≤ n → 2 / n ≤ Real.sin (m * Real.pi / n) := by
    intro m hm hmn
    have hm' : (1 : ℝ) ≤ m := Nat.one_le_cast.mpr hm
    have hmn' : 2 * (m : ℝ) ≤ n := by exact_mod_cast hmn
    have hle : m * Real.pi / n ≤ Real.pi / 2 := by
      rw [div_le_div_iff₀ hn two_pos]
      nlinarith [Real.pi_pos]
    calc 2 / (n : ℝ) ≤ 2 * m / n := by gcongr; linarith
      _ = 2 / Real.pi * (m * Real.pi / n) := by field_simp
      _ ≤ Real.sin (m * Real.pi / n) := Real.mul_le_sin (by positivity) hle
  by_cases hhalf : 2 * r ≤ n
  · exact hquarter r hr hhalf
  · have hother : (r : ℝ) * Real.pi / n = Real.pi - (n - r : Nat) * Real.pi / n := by
      rw [Nat.cast_sub hrn.le]
      field_simp
      ring
    rw [hother, Real.sin_pi_sub]
    exact hquarter (n - r) (by omega) (by omega)

/-- The sine of a fraction of a half turn is zero, or not very small. -/
theorem sin_eq_zero_of_small {k n : Nat} (hn : 0 < n)
    (hsmall : |Real.sin (k * Real.pi / n)| < 2 / n) : Real.sin (k * Real.pi / n) = 0 := by
  have hn' : (n : ℝ) ≠ 0 := Nat.cast_ne_zero.mpr hn.ne'
  have hangle : (k : ℝ) * Real.pi / n = (k % n : Nat) * Real.pi / n + (k / n : Nat) * Real.pi := by
    have hk : (k : ℝ) = n * (k / n : Nat) + (k % n : Nat) := by
      exact_mod_cast (Nat.div_add_mod k n).symm
    rw [hk]
    field_simp
    ring
  rw [hangle, Real.sin_add_nat_mul_pi] at hsmall ⊢
  rcases Nat.eq_zero_or_pos (k % n) with hzero | hpos
  · simp [hzero]
  · rw [abs_mul, abs_neg_one_pow, one_mul] at hsmall
    have hle := le_sin_part hpos (Nat.mod_lt k hn)
    exact absurd (hle.trans (le_abs_self _)) (not_le.mpr hsmall)

theorem rayAngle_real (n i : Nat) : (rayAngle n i : ℝ) = i * (2 * Real.pi / n) := by
  show ((i : Int) : ℝ) * (@OfNat.ofNat ℝ 2 (Scalar.instOfNat 2) * Real.pi / ((n : Int) : ℝ)) = _
  rw [Scalar.numeral_real, Int.cast_natCast, Int.cast_natCast]

/-- One of fewer than 10¹² evenly spread rays. -/
theorem regular_rayAngle {origin : Vantage ℝ} (horigin : origin.form ≠ .text) {n : Nat}
    (hpos : 0 < n) (hfew : n < 10 ^ 12) (i : Nat) :
    (Ray.along origin (heading (rayAngle n i))).Regular := by
  have hn : (0 : ℝ) < n := Nat.cast_pos.mpr hpos
  have hleast : (1 : ℝ) / 10 ^ 12 ≤ 1 / n := by
    have hfew' : (n : ℝ) ≤ 10 ^ 12 := by exact_mod_cast hfew.le
    exact one_div_le_one_div_of_le hn hfew'
  have hsin : rayAngle n i = ((2 * i : Nat) : ℝ) * Real.pi / n := by
    rw [rayAngle_real]
    push_cast
    ring
  have hcos : Real.cos (rayAngle n i) =
      Real.sin (((4 * i + n : Nat) : ℝ) * Real.pi / (2 * n : Nat)) := by
    rw [rayAngle_real, ← Real.sin_add_pi_div_two]
    congr 1
    push_cast
    field_simp
    ring
  have hparallel : ∀ d : ℝ, Shape.Stretch.parallel d = true → |d| < 1 / n := by
    intro d hd
    have hd' := of_decide_eq_true hd
    rw [Scalar.abs_real, Scalar.ofScientific_real, Nat.cast_one] at hd'
    exact hd'.trans_le hleast
  refine ⟨horigin, ?_, fun h => ?_, fun h => ?_⟩
  · show Real.sin _ * Real.sin _ + Real.cos _ * Real.cos _ = 1
    rw [← pow_two, ← pow_two]
    exact Real.sin_sq_add_cos_sq _
  · show Real.sin _ = 0
    have hsmall : |Real.sin (rayAngle n i)| < 1 / n := hparallel _ h
    rw [hsin] at hsmall ⊢
    exact sin_eq_zero_of_small hpos (hsmall.trans (by gcongr; norm_num))
  · show Real.cos _ = 0
    have hsmall : |Real.cos (rayAngle n i)| < 1 / n := hparallel _ h
    rw [hcos] at hsmall ⊢
    refine sin_eq_zero_of_small (by omega) (hsmall.trans_eq ?_)
    push_cast
    field_simp

/-! ### Scans -/

/-- The readings all around are what the rays tell. -/
theorem around?_of_cast? {origin : Vantage ℝ} {n : Nat} {told : Nat → Sighting ℝ}
    (hrun : ∀ i, world.cast? (Ray.along origin (heading (rayAngle n i))) range = .ok (told i)) :
    world.around? origin n range = .ok ((List.range n).map fun i => ⟨rayAngle n i, told i⟩) := by
  unfold around?
  simp only [hrun]
  exact List.mapM_pure

/-- Fewer than 10¹² rays all around tell how far they can be followed. -/
theorem exists_around? {origin : Vantage ℝ} (horigin : origin.form ≠ .text)
    (hworld : world.Proper) {n : Nat} (hpos : 0 < n) (hfew : n < 10 ^ 12)
    (hrange : range.IsNumber) (hnonneg : 0 ≤ range.amount) :
    ∃ told : Nat → Sighting ℝ,
      world.around? origin n range =
        .ok ((List.range n).map fun i => ⟨rayAngle n i, told i⟩) ∧
      ∀ i, (told i).Tells world (Ray.along origin (heading (rayAngle n i))) range.amount := by
  choose told hrun htells using fun i =>
    exists_cast? (regular_rayAngle horigin hpos hfew i) hworld hrange hnonneg
  exact ⟨told, around?_of_cast? hrun, htells⟩

/-- A scan has a whole number of rays, at least one. -/
theorem of_scan? {origin : Vantage ℝ} {rays range : Value ℝ} {scan : List (Reading ℝ)}
    (h : world.scan? origin rays range = .ok scan) :
    ∃ n : Nat, rays.number? = .ok (.whole n) ∧ 0 < n ∧ world.around? origin n range = .ok scan := by
  obtain ⟨n, hn, h⟩ := bind_eq_ok.mp h
  obtain ⟨hbelow, h⟩ := of_unless_ok h
  obtain ⟨_, -, h⟩ := bind_eq_ok.mp h
  obtain ⟨m, hm, h⟩ := bind_eq_ok.mp h
  cases n with
  | real x => cases hm
  | whole k =>
    obtain rfl := Except.ok.inj hm
    rw [Number.below_real, decide_eq_true_eq, not_lt] at hbelow
    have hk : 1 ≤ k := Int.cast_le.mp hbelow
    refine ⟨k.toNat, ?_, by omega, h⟩
    rw [hn, Int.toNat_of_nonneg (by omega)]

theorem scan?_whole {n : Nat} (hpos : 0 < n) (origin : Vantage ℝ) (range : Value ℝ) :
    world.scan? origin (.number (.whole n)) range = world.around? origin n range := by
  show (do
    if (Number.whole n : Number ℝ).below (Scalar.ofInt 1) then
      throw (Fault.rayCount (.number (.whole n)))
    let _ ← (Number.whole n : Number ℝ).scalar?
    world.around? origin (← (Number.whole n : Number ℝ).whole?).toNat range :
    Except (Fault ℝ) _) = _
  rw [Number.whole_below_one (by omega), Number.scalar?_eq_value]
  rfl

/-- The readings of a scan tell how far the rays can be followed. -/
theorem tells_of_scan? {origin : Vantage ℝ} (horigin : origin.form ≠ .text) {rays : Number ℝ}
    {scan : List (Reading ℝ)} (hworld : world.Proper) (hfew : rays.value < 10 ^ 12)
    (hrange : range.IsNumber) (hnonneg : 0 ≤ range.amount)
    (h : world.scan? origin (.number rays) range = .ok scan) :
    ∀ p ∈ scan, p.distance.Tells world (Ray.along origin (heading p.angle)) range.amount := by
  obtain ⟨n, hn, hpos, haround⟩ := of_scan? h
  obtain rfl : rays = .whole n := Except.ok.inj hn
  have hfew' : n < 10 ^ 12 := by
    have hcast : ((n : Int) : ℝ) < 10 ^ 12 := hfew
    exact_mod_cast hcast
  obtain ⟨told, hrun, htells⟩ := exists_around? horigin hworld hpos hfew' hrange hnonneg
  obtain rfl := Except.ok.inj (hrun.symm.trans haround)
  intro p hp
  obtain ⟨i, -, rfl⟩ := List.mem_map.mp hp
  exact htells i

end World

end ArmRover
