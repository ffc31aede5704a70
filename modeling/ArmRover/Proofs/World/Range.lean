import ArmRover.Proofs.Scalar.Order
import ArmRover.Proofs.World.Sight

/-!
# Lengths within the range of a sensor

Not every world is made of shapes with measures in order, and not every ray is fit to measure one.
Whatever the shapes and the ray, no hit lies behind the start of the ray, and none beyond the range
counts. What a ray tells, if it tells anything, is therefore a length from zero to the range, and a
scan, if there is one, is made of such lengths at evenly spread angles. That hits lie ahead is a law
of all scalars in order, except for hits that are at no place at all.

* `Shape.Stretch.near_le_of_between?` — the near end of a stretch only moves ahead,
  `Shape.zero_le_place_of_hit?`, `Shape.place_nonneg_of_hit?` — a hit is not behind the start of the
  ray.
* `Hit.InRange`, `Value.InRange`, `Sighting.InRange` — lengths within a range,
  `World.inRange_of_cast?` — what a ray tells.
* `World.strictMono_rayAngle`, `World.angles_of_around?`, `World.inRange_of_around?` — scans.
-/

namespace ArmRover

open ArmRover.Action

/-! ### Hits are ahead -/

namespace Shape

section Ordered

variable {α : Type} [Scalar α] [Scalar.Ordered α]

namespace Stretch

variable {s t : Stretch α}

theorem near_le_of_crossing (hs : Scalar.isNaN s.near.place = false) {a b : Hit α}
    (h : s.crossing a b = some t) : s.near.place ≤ t.near.place := by
  have hlater : ∀ enter : Hit α,
      s.near.place ≤ (if s.near.place < enter.place then enter else s.near).place := by
    intro enter
    split
    case isTrue hlt => exact Scalar.Ordered.le_of_lt hlt
    case isFalse => exact Scalar.Ordered.le_refl hs
  unfold crossing at h
  by_cases hplaces : b.place < a.place
  · rw [if_pos hplaces] at h
    obtain ⟨-, h⟩ := Option.ite_none_left_eq_some.mp h
    exact Option.some.inj h ▸ hlater b
  · rw [if_neg hplaces] at h
    obtain ⟨-, h⟩ := Option.ite_none_left_eq_some.mp h
    exact Option.some.inj h ▸ hlater a

/-- The near end of a stretch only moves ahead. -/
theorem near_le_of_between? (hs : Scalar.isNaN s.near.place = false) {form : Vantage.Form}
    {origin direction : α} {lower upper : Value α}
    (h : s.between? form origin direction lower upper = .ok (some t)) :
    s.near.place ≤ t.near.place := by
  unfold between? at h
  split at h
  · obtain ⟨below, -, h⟩ := bind_eq_ok.mp h
    cases below with
    | true => cases h
    | false =>
      obtain ⟨above, -, h⟩ := bind_eq_ok.mp h
      cases above with
      | true => cases h
      | false =>
        obtain rfl := Option.some.inj (Except.ok.inj h)
        exact Scalar.Ordered.le_refl hs
  · obtain ⟨lowest, -, h⟩ := bind_eq_ok.mp h
    obtain ⟨highest, -, h⟩ := bind_eq_ok.mp h
    obtain ⟨atLower, -, h⟩ := bind_eq_ok.mp h
    obtain ⟨atUpper, -, h⟩ := bind_eq_ok.mp h
    exact near_le_of_crossing hs (Except.ok.inj h)

end Stretch

variable {ray : Ray α} {hit : Hit α}

theorem zero_le_place_of_boxHit? (hzero : Scalar.isNaN (0 : α) = false)
    {xMin xMax zMin zMax : Value α} (h : boxHit? ray xMin xMax zMin zMax = .ok (some hit)) :
    0 ≤ hit.place := by
  unfold boxHit? at h
  obtain ⟨betweenX, hx, h⟩ := bind_eq_ok.mp h
  cases betweenX with
  | none => cases h
  | some s =>
    obtain ⟨betweenZ, hz, h⟩ := bind_eq_ok.mp h
    cases betweenZ with
    | none => cases h
    | some t =>
      obtain rfl := Option.some.inj (Except.ok.inj h)
      have hs : 0 ≤ s.near.place := Stretch.near_le_of_between? (s := .whole) hzero hx
      have ht := Stretch.near_le_of_between? (Scalar.Ordered.not_nan_of_le hs).2 hz
      exact Scalar.Ordered.le_trans hs ht

theorem zero_le_place_of_firstOf (hzero : Scalar.isNaN (0 : α) = false) {crossings : Option (α × α)}
    (h : firstOf crossings = some hit) (hplace : Scalar.isNaN hit.place = false) :
    0 ≤ hit.place := by
  cases crossings with
  | none => cases h
  | some crossing =>
    obtain ⟨enter, leave⟩ := crossing
    obtain ⟨-, h⟩ := Option.ite_none_left_eq_some.mp h
    obtain rfl := Option.some.inj h
    by_cases henter : enter < 0
    · rw [if_pos henter]
      exact Scalar.Ordered.le_refl hzero
    · rw [if_neg henter] at hplace ⊢
      exact Scalar.Ordered.le_of_not_lt hplace hzero henter

theorem zero_le_place_of_circleHit? (hzero : Scalar.isNaN (0 : α) = false) {x z radius : Value α}
    (h : circleHit? ray x z radius = .ok (some hit)) (hplace : Scalar.isNaN hit.place = false) :
    0 ≤ hit.place := by
  unfold circleHit? at h
  obtain ⟨_, -, h⟩ := bind_eq_ok.mp h
  obtain ⟨_, -, h⟩ := bind_eq_ok.mp h
  obtain ⟨-, h⟩ := of_unless_ok h
  obtain ⟨_, -, h⟩ := bind_eq_ok.mp h
  obtain ⟨_, -, h⟩ := bind_eq_ok.mp h
  split at h
  · cases h
  · obtain ⟨_, -, h⟩ := bind_eq_ok.mp h
    obtain ⟨_, -, h⟩ := bind_eq_ok.mp h
    obtain ⟨-, h⟩ := of_unless_ok h
    exact zero_le_place_of_firstOf hzero (Except.ok.inj h) hplace

/-- A hit that is anywhere is not behind the start of the ray. -/
theorem zero_le_place_of_hit? (hzero : Scalar.isNaN (0 : α) = false) {shape : Shape (Value α)}
    (h : shape.hit? ray = .ok (some hit)) (hplace : Scalar.isNaN hit.place = false) :
    0 ≤ hit.place := by
  cases shape with
  | box xMin xMax zMin zMax => exact zero_le_place_of_boxHit? hzero h
  | circle x z radius => exact zero_le_place_of_circleHit? hzero h hplace

end Ordered

/-- A hit is not behind the start of the ray. -/
theorem place_nonneg_of_hit? {ray : Ray ℝ} {hit : Hit ℝ} {shape : Shape (Value ℝ)}
    (h : shape.hit? ray = .ok (some hit)) : 0 ≤ hit.place :=
  Scalar.zero_real ▸ zero_le_place_of_hit? rfl h rfl

end Shape

/-! ### Lengths -/

/-- A hit from the start of the ray up to a range. -/
def Hit.InRange (range : ℝ) (h : Hit ℝ) : Prop := 0 ≤ h.place ∧ h.place ≤ range

/-- A number from zero to a range. -/
structure Value.InRange (range : ℝ) (v : Value ℝ) : Prop where
  isNumber : v.IsNumber
  nonneg : 0 ≤ v.amount
  le : v.amount ≤ range

/-- A length from zero to a range. -/
def Sighting.InRange (range : ℝ) : Sighting ℝ → Prop
  | hit h => h.InRange range
  | plain v => v.InRange range

namespace Sighting

/-- What a sensor can store of a length within the range is within the range. -/
theorem InRange.of_numeric? {range d : ℝ} {s : Sighting ℝ} (hs : s.InRange range)
    (h : s.value.numeric? = .ok d) : (Value.real d).InRange range := by
  suffices hd : 0 ≤ d ∧ d ≤ range from ⟨⟨_, rfl⟩, hd.1, hd.2⟩
  cases s with
  | plain v =>
    obtain rfl := Except.ok.inj ((Value.numeric?_of_isNumber hs.isNumber).symm.trans h)
    exact ⟨hs.nonneg, hs.le⟩
  | hit n =>
    obtain ⟨place, form⟩ := n
    cases form with
    | start => exact Except.ok.inj h ▸ hs
    | computed => exact Except.ok.inj h ▸ hs
    | listed => cases h

end Sighting

namespace World

variable {world : World ℝ} {ray : Ray ℝ} {range : Value ℝ}

theorem inRange_nearer {range : ℝ} {nearest : Option (Hit ℝ)} {hit : Hit ℝ}
    (hnearest : ∀ n ∈ nearest, n.InRange range) (hhit : hit.InRange range) :
    (nearer nearest hit).InRange range := by
  cases nearest with
  | none => exact hhit
  | some n =>
    unfold nearer
    dsimp only
    split
    · exact hhit
    · exact hnearest n rfl

theorem inRange_of_withObstacle? (hrange : range.IsNumber) (o : Obstacle ℝ)
    {nearest next : Option (Hit ℝ)} (h : withObstacle? ray range nearest o = .ok next)
    (hnearest : ∀ n ∈ nearest, n.InRange range.amount) : ∀ n ∈ next, n.InRange range.amount := by
  unfold withObstacle? at h
  obtain ⟨hit, hhit, h⟩ := bind_eq_ok.mp h
  cases hit with
  | none =>
    obtain rfl := Except.ok.inj h
    exact hnearest
  | some n =>
    obtain ⟨within, hwithin, h⟩ := bind_eq_ok.mp h
    rw [n.within?_of_isNumber hrange] at hwithin
    cases within with
    | false =>
      obtain rfl := Except.ok.inj h
      exact hnearest
    | true =>
      obtain rfl := Except.ok.inj h
      intro m hm
      obtain rfl := Option.some.inj hm
      exact inRange_nearer hnearest
        ⟨Shape.place_nonneg_of_hit? hhit, of_decide_eq_true (Except.ok.inj hwithin)⟩

/-- What a ray tells is a length within the range. -/
theorem inRange_of_cast? (hrange : range.IsNumber) (hnonneg : 0 ≤ range.amount) {s : Sighting ℝ}
    (h : world.cast? ray range = .ok s) : s.InRange range.amount := by
  unfold cast? at h
  obtain ⟨nearest, hnearest, h⟩ := bind_eq_ok.mp h
  have hinRange : ∀ n ∈ nearest, n.InRange range.amount :=
    of_foldlM_eq_ok (P := fun nearest : Option (Hit ℝ) => ∀ n ∈ nearest, n.InRange range.amount)
      (fun o _ _ => inRange_of_withObstacle? hrange o) hnearest nofun
  cases nearest with
  | none =>
    obtain rfl := Except.ok.inj h
    exact ⟨hrange, hnonneg, le_refl _⟩
  | some n =>
    obtain rfl := Except.ok.inj h
    exact hinRange n rfl

/-! ### Scans -/

theorem strictMono_rayAngle {n : Nat} (hpos : 0 < n) :
    StrictMono (rayAngle n : Nat → ℝ) := by
  have hpart : 0 < 2 * Real.pi / n := div_pos Real.two_pi_pos (Nat.cast_pos.mpr hpos)
  intro i j hij
  rw [rayAngle_real, rayAngle_real]
  exact mul_lt_mul_of_pos_right (Nat.cast_lt.mpr hij) hpart

variable {origin : Vantage ℝ} {n : Nat} {scan : List (Reading ℝ)}

/-- The readings of a scan, one for each ray. -/
theorem forall₂_of_around? (h : world.around? origin n range = .ok scan) :
    List.Forall₂ (fun i p => p.angle = rayAngle n i ∧
      world.cast? (Ray.along origin (heading (rayAngle n i))) range = .ok p.distance)
      (List.range n) scan := by
  refine (forall₂_of_mapM_eq_ok h).imp fun i p hp => ?_
  obtain ⟨s, hs, hp⟩ := bind_eq_ok.mp hp
  obtain rfl := Except.ok.inj hp
  exact ⟨rfl, hs⟩

theorem angles_of_around? (h : world.around? origin n range = .ok scan) :
    scan.map Reading.angle = (List.range n).map (rayAngle n) := by
  rw [← List.forall₂_eq_eq_eq, List.forall₂_map_left_iff, List.forall₂_map_right_iff]
  exact (forall₂_of_around? h).flip.imp fun _ _ hp => hp.1

theorem inRange_of_around? (hrange : range.IsNumber) (hnonneg : 0 ≤ range.amount)
    (h : world.around? origin n range = .ok scan) :
    ∀ p ∈ scan, p.distance.InRange range.amount := by
  have hreadings := (forall₂_of_around? h).flip.imp fun p i hp =>
    (⟨inRange_of_cast? hrange hnonneg hp.2, hp.1⟩ : _ ∧ p.angle = rayAngle n i)
  exact ((List.forall₂_and_left _ _).mp hreadings).1

end World

end ArmRover
