import ArmRover.Proofs.Value.Amount
import ArmRover.World.Obstacle

/-!
# Where a ray meets a shape

Over the real numbers the hit of a ray on a shape is the first position of the ray that lies in the
shape. A ray has a hit on every shape that it comes to, and on no other.

* `Shape.Contains` — the positions in a shape, `Ray.Meets` — the parameters at which a ray is in it.
* `Hit.First` — the first of some parameters, if there is one.
* `Shape.Stretch.Covers` — the parameters of a stretch, `Shape.Stretch.exists_between?` — one
  coordinate between its bounds.
* `Shape.exists_hit?` — the hit of a ray on a shape.
-/

namespace ArmRover

/-! ### Positions in a shape -/

namespace Shape

/-- A position of the ground lies in the shape, or on its border. -/
def Contains : Shape (Value ℝ) → ℝ → ℝ → Prop
  | box xMin xMax zMin zMax, x, z =>
    (xMin.amount ≤ x ∧ x ≤ xMax.amount) ∧ zMin.amount ≤ z ∧ z ≤ zMax.amount
  | circle xCenter zCenter radius, x, z =>
    (x - xCenter.amount) ^ 2 + (z - zCenter.amount) ^ 2 ≤ radius.amount ^ 2

/-- Numbers that are the lower and the upper bound of some coordinate. -/
structure Bounds (lower upper : Value ℝ) : Prop where
  lower_isNumber : lower.IsNumber
  upper_isNumber : upper.IsNumber
  le : lower.amount ≤ upper.amount

/-- The measures of the shape are numbers, and those of a box are in order. -/
def Proper : Shape (Value ℝ) → Prop
  | box xMin xMax zMin zMax => Bounds xMin xMax ∧ Bounds zMin zMax
  | circle x z radius => x.IsNumber ∧ z.IsNumber ∧ radius.IsNumber

end Shape

namespace Ray

/-- A ray that can be set against numbers, of length 1, along which a coordinate does not change if
it counts as one that does not. -/
structure Regular (ray : Ray ℝ) : Prop where
  form : ray.origin.form ≠ .text
  unit : ray.dx * ray.dx + ray.dz * ray.dz = 1
  dx : Shape.Stretch.parallel ray.dx = true → ray.dx = 0
  dz : Shape.Stretch.parallel ray.dz = true → ray.dz = 0

/-- The ray is in the shape at a parameter. -/
def Meets (ray : Ray ℝ) (shape : Shape (Value ℝ)) (t : ℝ) : Prop :=
  shape.Contains (ray.origin.x + ray.dx * t) (ray.origin.z + ray.dz * t)

end Ray

/-- A hit at the first of some parameters that are not negative, if there is one. -/
def Hit.First (inside : ℝ → Prop) : Option (Hit ℝ) → Prop
  | none => ∀ t, 0 ≤ t → ¬ inside t
  | some h => h.form ≠ .listed ∧ 0 ≤ h.place ∧ inside h.place ∧
      ∀ t, 0 ≤ t → t < h.place → ¬ inside t

namespace Vantage.Form

variable {form : Form} {v : Value ℝ}

theorem above?_of_isNumber (hform : form ≠ .text) (h : v.IsNumber) (x : ℝ) :
    form.above? v x = .ok (decide (x < v.amount)) := by
  cases form with
  | computed => exact Value.askComputed?_of_isNumber h (·.above x)
  | given => exact Value.ask?_above h x
  | text => exact absurd rfl hform

theorem below?_of_isNumber (hform : form ≠ .text) (h : v.IsNumber) (x : ℝ) :
    form.below? v x = .ok (decide (v.amount < x)) := by
  cases form with
  | computed => exact Value.askComputed?_of_isNumber h (·.below x)
  | given => exact Value.ask?_below h x
  | text => exact absurd rfl hform

theorem measure?_of_isNumber (hform : form ≠ .text) (h : v.IsNumber) :
    form.measure? v = .ok ⟨[], [v.amount]⟩ := by
  cases form with
  | computed => exact Value.measure?_of_isNumber h
  | given =>
    show (do return ⟨[], [← v.scalar?]⟩ : Except (Fault ℝ) (Measure ℝ)) = _
    rw [Value.scalar?_of_isNumber h]
    rfl
  | text => exact absurd rfl hform

end Vantage.Form

namespace Shape

/-! ### Boxes -/

namespace Stretch

/-- The stretch holds the parameters of a ray that meet a condition, at least one. -/
structure Covers (s : Stretch ℝ) (inside : ℝ → Prop) : Prop where
  form : s.near.form ≠ .listed
  nonneg : 0 ≤ s.near.place
  le : ∀ far ∈ s.far, s.near.place ≤ far
  iff : ∀ t, 0 ≤ t → (inside t ↔ s.near.place ≤ t ∧ ∀ far ∈ s.far, t ≤ far)

/-- The parameters of a ray that meet a condition, if there are any. -/
def Found (inside : ℝ → Prop) : Option (Stretch ℝ) → Prop
  | none => ∀ t, 0 ≤ t → ¬ inside t
  | some s => s.Covers inside

theorem covers_whole : (whole : Stretch ℝ).Covers fun _ => True where
  form := nofun
  nonneg := by
    show (0 : ℝ) ≤ @OfNat.ofNat ℝ 0 (Scalar.instOfNat 0)
    rw [Scalar.ofNat_real, Nat.cast_zero]
  le := nofun
  iff t ht := by
    have hplace : (whole : Stretch ℝ).near.place ≤ t := by
      show @OfNat.ofNat ℝ 0 (Scalar.instOfNat 0) ≤ t
      rwa [Scalar.ofNat_real, Nat.cast_zero]
    exact ⟨fun _ => ⟨hplace, nofun⟩, fun _ => trivial⟩

/-- A coordinate lies between its bounds from the first to the last time that it comes to one. -/
theorem between_iff {origin direction lower upper : ℝ} (hd : direction ≠ 0) (hle : lower ≤ upper)
    (t : ℝ) :
    lower ≤ origin + direction * t ∧ origin + direction * t ≤ upper ↔
      min ((lower - origin) / direction) ((upper - origin) / direction) ≤ t ∧
        t ≤ max ((lower - origin) / direction) ((upper - origin) / direction) := by
  rcases lt_or_gt_of_ne hd with hneg | hpos
  · have hplaces : (upper - origin) / direction ≤ (lower - origin) / direction :=
      div_le_div_of_nonpos_of_le hneg.le (by linarith)
    rw [min_eq_right hplaces, max_eq_left hplaces, div_le_iff_of_neg hneg, le_div_iff_of_neg hneg]
    constructor <;> rintro ⟨h, h'⟩ <;> constructor <;> linarith
  · have hplaces : (lower - origin) / direction ≤ (upper - origin) / direction :=
      div_le_div_of_nonneg_right (by linarith) hpos.le
    rw [min_eq_left hplaces, max_eq_right hplaces, div_le_iff₀ hpos, le_div_iff₀ hpos]
    constructor <;> rintro ⟨h, h'⟩ <;> constructor <;> linarith

/-- The later of two hits. -/
theorem later_le_iff (a b : Hit ℝ) (t : ℝ) :
    (if a.place < b.place then b else a).place ≤ t ↔ a.place ≤ t ∧ b.place ≤ t := by
  split
  case isTrue h => exact ⟨fun ht => ⟨(le_of_lt h).trans ht, ht⟩, And.right⟩
  case isFalse h => exact ⟨fun ht => ⟨ht, (not_lt.mp h).trans ht⟩, And.left⟩

/-- The part of a stretch from a hit on and up to the parameter `leave`. -/
theorem found_cut {s : Stretch ℝ} {inside : ℝ → Prop} (hs : s.Covers inside) {enter : Hit ℝ}
    (henter : enter.form ≠ .listed) {leave last : ℝ}
    (hlast : ∀ t, t ≤ last ↔ (∀ far ∈ s.far, t ≤ far) ∧ t ≤ leave) :
    let near := if s.near.place < enter.place then enter else s.near
    Found (fun t => inside t ∧ enter.place ≤ t ∧ t ≤ leave)
      (if (some last).any fun far => far < near.place then none else some ⟨near, some last⟩) := by
  intro near
  have hform : near.form ≠ .listed := by
    unfold near
    split
    · exact henter
    · exact hs.form
  have hnear : ∀ t, near.place ≤ t ↔ s.near.place ≤ t ∧ enter.place ≤ t := later_le_iff _ _
  have hiff : ∀ t, 0 ≤ t →
      (inside t ∧ enter.place ≤ t ∧ t ≤ leave ↔ near.place ≤ t ∧ t ≤ last) := by
    intro t ht
    rw [hs.iff t ht, hnear, hlast]
    tauto
  by_cases h : last < near.place
  · rw [if_pos (by simpa using h)]
    intro t ht hinside
    have hin := (hiff t ht).mp hinside
    exact absurd (hin.1.trans hin.2) (not_le.mpr h)
  · rw [if_neg (by simpa using h)]
    exact {
      form := hform
      nonneg := hs.nonneg.trans ((hnear near.place).mp le_rfl).1
      le := by simpa using h
      iff := by simpa using hiff }

theorem found_crossing {s : Stretch ℝ} {inside : ℝ → Prop} (hs : s.Covers inside) {a b : Hit ℝ}
    (ha : a.form ≠ .listed) (hb : b.form ≠ .listed) :
    Found (fun t => inside t ∧ min a.place b.place ≤ t ∧ t ≤ max a.place b.place)
      (s.crossing a b) := by
  have hendless : ∀ leave t : ℝ, t ≤ leave ↔ (∀ far ∈ (none : Option ℝ), t ≤ far) ∧ t ≤ leave := by
    simp
  have hended : ∀ far leave t : ℝ,
      t ≤ Scalar.lesser far leave ↔ (∀ f ∈ some far, t ≤ f) ∧ t ≤ leave := by
    intro far leave t
    rw [Scalar.lesser_real]
    simp
  obtain ⟨near, far⟩ := s
  unfold crossing
  by_cases h : b.place < a.place
  · rw [if_pos h, min_eq_right (le_of_lt h), max_eq_left (le_of_lt h)]
    cases far with
    | none => exact found_cut hs hb (hendless a.place)
    | some far => exact found_cut hs hb (hended far a.place)
  · rw [if_neg h, min_eq_left (not_lt.mp h), max_eq_right (not_lt.mp h)]
    cases far with
    | none => exact found_cut hs ha (hendless b.place)
    | some far => exact found_cut hs ha (hended far b.place)

/-- A coordinate that counts as changing does. -/
theorem ne_zero_of_not_parallel {direction : ℝ} (h : ¬ parallel direction = true) :
    direction ≠ 0 := by
  rintro rfl
  refine h (decide_eq_true ?_)
  rw [Scalar.abs_real, abs_zero, Scalar.ofScientific_real]
  positivity

theorem exists_between? {s : Stretch ℝ} {inside : ℝ → Prop} (hs : s.Covers inside)
    {form : Vantage.Form} (hform : form ≠ .text) {lower upper : Value ℝ}
    (hbounds : Bounds lower upper) (origin : ℝ) {direction : ℝ}
    (hdirection : parallel direction = true → direction = 0) :
    ∃ found, s.between? form origin direction lower upper = .ok found ∧
      Found (fun t => inside t ∧ lower.amount ≤ origin + direction * t ∧
        origin + direction * t ≤ upper.amount) found := by
  have hlower := hbounds.lower_isNumber
  have hupper := hbounds.upper_isNumber
  unfold between?
  by_cases hparallel : parallel direction = true
  · obtain rfl := hdirection hparallel
    rw [if_pos hparallel, Vantage.Form.above?_of_isNumber hform hlower,
      Vantage.Form.below?_of_isNumber hform hupper]
    simp only [zero_mul, add_zero]
    by_cases hbelow : origin < lower.amount
    · exact ⟨none, by simp [hbelow]; rfl, fun t _ ht => absurd ht.2.1 (not_le.mpr hbelow)⟩
    by_cases habove : upper.amount < origin
    · exact ⟨none, by simp [hbelow, habove]; rfl,
        fun t _ ht => absurd ht.2.2 (not_le.mpr habove)⟩
    · refine ⟨some s, by simp [hbelow, habove]; rfl, { hs with iff := fun t ht => ?_ }⟩
      rw [hs.iff t ht]
      exact ⟨And.left, fun h => ⟨h, not_lt.mp hbelow, not_lt.mp habove⟩⟩
  · have hne := ne_zero_of_not_parallel hparallel
    rw [if_neg hparallel, Vantage.Form.measure?_of_isNumber hform hlower,
      Vantage.Form.measure?_of_isNumber hform hupper]
    refine ⟨_, rfl, ?_⟩
    simp only [between_iff hne hbounds.le]
    exact found_crossing hs nofun nofun

end Stretch

theorem exists_boxHit? {ray : Ray ℝ} (hform : ray.origin.form ≠ .text)
    (hdx : Stretch.parallel ray.dx = true → ray.dx = 0)
    (hdz : Stretch.parallel ray.dz = true → ray.dz = 0) {xMin xMax zMin zMax : Value ℝ}
    (hx : Bounds xMin xMax) (hz : Bounds zMin zMax) :
    ∃ hit, boxHit? ray xMin xMax zMin zMax = .ok hit ∧
      Hit.First (ray.Meets (box xMin xMax zMin zMax)) hit := by
  obtain ⟨foundX, hrunX, hfoundX⟩ :=
    Stretch.exists_between? Stretch.covers_whole hform hx ray.origin.x hdx
  unfold boxHit?
  dsimp only
  rw [hrunX]
  cases foundX with
  | none =>
    refine ⟨none, rfl, fun t ht hin => hfoundX t ht ⟨trivial, hin.1⟩⟩
  | some s =>
    obtain ⟨foundZ, hrunZ, hfoundZ⟩ :=
      Stretch.exists_between? hfoundX hform hz ray.origin.z hdz
    refine ⟨foundZ.map Stretch.near, ?_, ?_⟩
    · show (do return (← s.between? _ _ _ _ _).map Stretch.near : Except (Fault ℝ) _) = _
      rw [hrunZ]
      rfl
    · cases foundZ with
      | none => exact fun t ht hin => hfoundZ t ht ⟨⟨trivial, hin.1⟩, hin.2⟩
      | some s =>
        have hiff : ∀ t, 0 ≤ t → (ray.Meets (box xMin xMax zMin zMax) t ↔
            s.near.place ≤ t ∧ ∀ far ∈ s.far, t ≤ far) := by
          intro t ht
          rw [← hfoundZ.iff t ht, true_and]
          rfl
        refine ⟨hfoundZ.form, hfoundZ.nonneg, ?_, fun t ht hbefore hin => ?_⟩
        · exact (hiff _ hfoundZ.nonneg).mpr ⟨le_rfl, hfoundZ.le⟩
        · exact absurd ((hiff t ht).mp hin).1 (not_le.mpr hbefore)

/-! ### Circles -/

/-- A ray with some length over the ground is in a circle from the one crossing to the other, if
there are any. -/
theorem circleCrossings_cases {ray : Ray ℝ} (hlong : 0 < ray.dx * ray.dx + ray.dz * ray.dz)
    (x z squaredRadius : ℝ) :
    let inside := fun t =>
      (ray.origin.x + ray.dx * t - x) ^ 2 + (ray.origin.z + ray.dz * t - z) ^ 2 ≤ squaredRadius
    circleCrossings ray x z squaredRadius = none ∧ (∀ t, ¬ inside t) ∨
      ∃ enter leave, circleCrossings ray x z squaredRadius = some (enter, leave) ∧
        enter ≤ leave ∧ ∀ t, inside t ↔ enter ≤ t ∧ t ≤ leave := by
  intro inside
  set a := ray.dx * ray.dx + ray.dz * ray.dz with ha
  set b := 2 * ((ray.origin.x - x) * ray.dx + (ray.origin.z - z) * ray.dz) with hb
  set c := (ray.origin.x - x) * (ray.origin.x - x) + (ray.origin.z - z) * (ray.origin.z - z) -
    squaredRadius with hc
  have hinside : ∀ t, inside t ↔ (2 * a * t + b) ^ 2 ≤ b * b - 4 * a * c := by
    intro t
    have hsum : (ray.origin.x + ray.dx * t - x) ^ 2 + (ray.origin.z + ray.dz * t - z) ^ 2 -
        squaredRadius = a * t ^ 2 + b * t + c := by
      rw [ha, hb, hc]
      ring
    have hsquare : (2 * a * t + b) ^ 2 - (b * b - 4 * a * c) =
        4 * a * (a * t ^ 2 + b * t + c) := by ring
    show _ ≤ squaredRadius ↔ _
    have h4a : 0 < 4 * a := by linarith
    rw [← sub_nonpos, hsum, ← sub_nonpos (a := (2 * a * t + b) ^ 2), hsquare]
    exact ⟨mul_nonpos_of_nonneg_of_nonpos h4a.le, fun h => nonpos_of_mul_nonpos_right h h4a⟩
  have hrun : circleCrossings ray x z squaredRadius =
      if b * b - 4 * a * c < 0 then none
      else some ((-b - √(b * b - 4 * a * c)) / (2 * a),
        (-b + √(b * b - 4 * a * c)) / (2 * a)) := by
    have hvertical : (a == 0) = false := beq_eq_false_iff_ne.mpr hlong.ne'
    unfold circleCrossings
    simp only [Scalar.add_real, Scalar.sub_real, Scalar.mul_real, Scalar.div_real, Scalar.neg_real,
      Scalar.lt_real, Scalar.zero_real, Scalar.numeral_real, ← ha, hvertical, Bool.false_or,
      decide_eq_true_eq]
    rfl
  have h2a : 0 < 2 * a := by linarith
  rw [hrun]
  split
  case isTrue h =>
    refine .inl ⟨rfl, fun t ht => ?_⟩
    exact absurd ((sq_nonneg _).trans ((hinside t).mp ht)) (not_le.mpr h)
  case isFalse h =>
    refine .inr ⟨_, _, rfl, ?_, fun t => ?_⟩
    · gcongr
      linarith [Real.sqrt_nonneg (b * b - 4 * a * c)]
    · rw [hinside, Real.sq_le (not_lt.mp h), div_le_iff₀ h2a, le_div_iff₀ h2a]
      constructor <;> rintro ⟨h1, h2⟩ <;> constructor <;> linarith

theorem firstOf_some (enter leave : ℝ) :
    firstOf (some (enter, leave)) =
      if leave < 0 then none else some (if enter < 0 then .start else ⟨enter, .computed⟩) := by
  rw [← Scalar.zero_real]
  rfl

theorem first_firstOf {inside : ℝ → Prop} {enter leave : ℝ} (hle : enter ≤ leave)
    (hinside : ∀ t, inside t ↔ enter ≤ t ∧ t ≤ leave) :
    Hit.First inside (firstOf (some (enter, leave))) := by
  rw [firstOf_some]
  by_cases hleave : leave < 0
  · rw [if_pos hleave]
    exact fun t ht hin => absurd (((hinside t).mp hin).2.trans_lt hleave) (not_lt.mpr ht)
  rw [if_neg hleave]
  by_cases henter : enter < 0
  · have hplace : (Hit.start : Hit ℝ).place = 0 := Scalar.zero_real
    rw [if_pos henter]
    refine ⟨nofun, hplace.ge, ?_, fun t ht hbefore => ?_⟩
    · rw [hplace]
      exact (hinside 0).mpr ⟨henter.le, not_lt.mp hleave⟩
    · rw [hplace] at hbefore
      exact absurd hbefore (not_lt.mpr ht)
  · rw [if_neg henter]
    refine ⟨nofun, not_lt.mp henter, (hinside _).mpr ⟨le_rfl, hle⟩, fun t _ hbefore hin => ?_⟩
    exact absurd ((hinside t).mp hin).1 (not_le.mpr hbefore)

theorem exists_circleHit? {ray : Ray ℝ} (hform : ray.origin.form ≠ .text)
    (hlong : 0 < ray.dx * ray.dx + ray.dz * ray.dz) {x z radius : Value ℝ} (hx : x.IsNumber)
    (hz : z.IsNumber) (hradius : radius.IsNumber) :
    ∃ hit, circleHit? ray x z radius = .ok hit ∧
      Hit.First (ray.Meets (circle x z radius)) hit := by
  obtain ⟨n, hn, hamount⟩ := Value.exists_number? hradius
  have hvertical : Ray.vertical ray = false := by
    unfold Ray.vertical
    simp [hlong.ne']
  have hrun : circleHit? ray x z radius =
      .ok (firstOf (circleCrossings ray x.amount z.amount (radius.amount ^ 2))) := by
    unfold circleHit?
    rw [Vantage.Form.measure?_of_isNumber hform hx, Vantage.Form.measure?_of_isNumber hform hz, hn]
    show (do
      let squaredRadius ← n.square?
      if Ray.vertical ray then return none
      let crossings := circleCrossings ray x.amount z.amount squaredRadius
      if crossings.isSome && (false || false) then throw .wrongKind
      return firstOf crossings : Except (Fault ℝ) (Option (Hit ℝ))) = _
    rw [Number.square?_eq_value, hvertical, hamount, Bool.or_false]
    simp only [Bool.and_false]
    rfl
  refine ⟨_, hrun, ?_⟩
  rcases circleCrossings_cases hlong x.amount z.amount (radius.amount ^ 2) with
    ⟨hnone, hnever⟩ | ⟨enter, leave, hsome, hle, hinside⟩
  · rw [hnone]
    exact fun t _ => hnever t
  · rw [hsome]
    exact first_firstOf hle hinside

/-! ### All shapes -/

/-- A ray has a hit on a shape if and where it first comes to the shape. -/
theorem exists_hit? {ray : Ray ℝ} (hray : ray.Regular) {shape : Shape (Value ℝ)}
    (hshape : shape.Proper) :
    ∃ hit, shape.hit? ray = .ok hit ∧ Hit.First (ray.Meets shape) hit := by
  cases shape with
  | box xMin xMax zMin zMax =>
    exact exists_boxHit? hray.form hray.dx hray.dz hshape.1 hshape.2
  | circle x z radius =>
    have hlong : 0 < ray.dx * ray.dx + ray.dz * ray.dz := hray.unit ▸ one_pos
    exact exists_circleHit? hray.form hlong hshape.1 hshape.2.1 hshape.2.2

end Shape

end ArmRover
