import ArmRover.Proofs.World.Boxes
import ArmRover.Proofs.World.Range

/-!
# The nearest obstacle

The hit that a ray has on a world is the nearest one within the range that it has on any solid
obstacle, and a world without such a hit is one in which nothing is hit. The order of the obstacles,
and obstacles that are not solid, have no part in it: only ties can fall out differently, among hits
at places of which neither is before the other. With more obstacles a ray is never longer. All this
is a law of scalars in order, rounded or exact. It needs no measures in order and no ray of length
1, only shapes that can be set against the ray at all.

* `Value.Limits` — ranges that can be compared with hits.
* `Hit.Least` — the least of some hits, `Hit.Least.le_of_imp` — that of more hits is no farther.
* `World.HitWithin` — hits on solid obstacles within a range, `World.least_of_foldlM` — the search
  keeps the least.
* `World.Answers` — shapes that can be set against a ray, `World.exists_nearest?_iff` — there is an
  answer just for these, `World.answers_of_numeric` — numbers always have an answer.
* `Sighting.length`, `World.nearest_in_any_order` — what a ray tells of a world.
-/

namespace ArmRover

open ArmRover.Action

/-! ### Ranges -/

/-- A range that decides about hits as the scalar `r` does. -/
def Value.Limits [Scalar α] (range : Value α) (r : α) : Prop :=
  ∀ h : Hit α, h.within? range = .ok (decide (h.place ≤ r))

theorem Value.limits_real [Scalar α] (r : α) : (Value.real r).Limits r := by
  rintro ⟨place, form⟩
  cases form <;> rfl

theorem Value.limits_of_isNumber {range : Value ℝ} (hrange : range.IsNumber) :
    range.Limits range.amount :=
  fun h => h.within?_of_isNumber hrange

variable {α : Type} [Scalar α]

/-! ### The least hit -/

namespace Hit

/-- Two hits of which neither is before the other. -/
def Ties (m n : Hit α) : Prop := m.place ≤ n.place ∧ n.place ≤ m.place

/-- One of the hits that meet a condition, before which there is no other, if any meets it. -/
def Least (P : Hit α → Prop) : Option (Hit α) → Prop
  | none => ∀ h, ¬ P h
  | some n => P n ∧ ∀ h, P h → n.place ≤ h.place

/-- Over the real numbers hits that tie are at the same place. -/
theorem Ties.place_eq {m n : Hit ℝ} (h : m.Ties n) : m.place = n.place := le_antisymm h.1 h.2

namespace Least

variable {P Q : Hit α → Prop} {nearest other : Option (Hit α)}

theorem congr (hnearest : Least P nearest) (h : ∀ m, P m ↔ Q m) : Least Q nearest := by
  obtain rfl : P = Q := funext fun m => propext (h m)
  exact hnearest

/-- The least of more hits is there if the least of fewer is, and is no farther. -/
theorem le_of_imp (hnearest : Least P nearest) (hother : Least Q other) (h : ∀ m, P m → Q m) :
    ∀ n ∈ nearest, ∃ m ∈ other, m.place ≤ n.place := by
  rintro n rfl
  cases other with
  | none => exact absurd (h n hnearest.1) (hother n)
  | some m => exact ⟨m, rfl, hother.2 n (h n hnearest.1)⟩

/-- The least of the same hits is the same, up to ties. -/
theorem rel_of_iff (hnearest : Least P nearest) (hother : Least Q other) (h : ∀ m, P m ↔ Q m) :
    Option.Rel Ties nearest other := by
  cases nearest with
  | none =>
    cases other with
    | none => exact .none
    | some m => exact absurd ((h m).mpr hother.1) (hnearest m)
  | some n =>
    cases other with
    | none => exact absurd ((h n).mp hnearest.1) (hother n)
    | some m => exact .some ⟨hnearest.2 m ((h m).mpr hother.1), hother.2 n ((h n).mp hnearest.1)⟩

/-- The nearer of the least hit and another one. -/
theorem nearer [Scalar.Ordered α] (hnearest : Least P nearest)
    (hP : ∀ m, P m → Scalar.isNaN m.place = false) {n : Hit α} (hn : Scalar.isNaN n.place = false) :
    Least (fun m => P m ∨ m = n) (some (World.nearer nearest n)) := by
  have hself := Scalar.Ordered.le_refl hn
  cases nearest with
  | none =>
    refine ⟨.inr rfl, ?_⟩
    rintro m (hm | rfl)
    · exact absurd hm (hnearest m)
    · exact hself
  | some first =>
    obtain ⟨hfirst, hleast⟩ := hnearest
    unfold World.nearer
    dsimp only
    split
    case isTrue hlt =>
      refine ⟨.inr rfl, ?_⟩
      rintro m (hm | rfl)
      · exact Scalar.Ordered.le_trans (Scalar.Ordered.le_of_lt hlt) (hleast m hm)
      · exact hself
    case isFalse hlt =>
      refine ⟨.inl hfirst, ?_⟩
      rintro m (hm | rfl)
      · exact hleast m hm
      · exact Scalar.Ordered.le_of_not_lt hn (hP first hfirst) hlt

end Least

end Hit

namespace World

/-! ### Hits on solid obstacles -/

/-- A hit of the ray on a solid obstacle of the world, not beyond `r`. -/
def HitWithin (world : World α) (ray : Ray α) (r : α) (h : Hit α) : Prop :=
  (∃ o ∈ world, o.solid = true ∧ o.shape.hit? ray = .ok (some h)) ∧ h.place ≤ r

/-- The solid obstacles of a world are among those of another. -/
def SolidIn (world other : World α) : Prop := ∀ o ∈ world, o.solid = true → o ∈ other

/-- Every solid obstacle can be set against the ray. -/
def Answers (world : World α) (ray : Ray α) : Prop :=
  ∀ o ∈ world, o.solid = true → ∃ hit, o.shape.hit? ray = .ok hit

variable {world other : World α} {ray : Ray α} {range : Value α} {r : α}

theorem HitWithin.of_solidIn (hsolid : world.SolidIn other) {h : Hit α}
    (hhit : world.HitWithin ray r h) : other.HitWithin ray r h := by
  obtain ⟨⟨o, ho, hsolid', hrun⟩, hle⟩ := hhit
  exact ⟨⟨o, hsolid o ho hsolid', hsolid', hrun⟩, hle⟩

theorem hitWithin_filter_solid (world : World α) (ray : Ray α) (r : α) (h : Hit α) :
    HitWithin (world.filter Obstacle.solid) ray r h ↔ world.HitWithin ray r h := by
  simp [HitWithin, and_assoc]

theorem hitWithin_append_single (world : World α) {o : Obstacle α} (ho : o.solid = true)
    (ray : Ray α) (r : α) (h : Hit α) :
    HitWithin (world ++ [o]) ray r h ↔
      world.HitWithin ray r h ∨ o.shape.hit? ray = .ok (some h) ∧ h.place ≤ r := by
  simp [HitWithin, or_and_right, exists_or, ho]

omit [Scalar α] in
theorem solidIn_of_perm (h : (world.filter Obstacle.solid).Perm (other.filter Obstacle.solid)) :
    world.SolidIn other := fun _ ho hsolid =>
  (List.mem_filter.mp (h.mem_iff.mp (List.mem_filter.mpr ⟨ho, hsolid⟩))).1

/-! ### The search -/

theorem least_of_withObstacle? [Scalar.Ordered α] (hrange : range.Limits r) {seen : World α}
    {o : Obstacle α} (ho : o.solid = true) {nearest next : Option (Hit α)}
    (hnearest : Hit.Least (seen.HitWithin ray r) nearest)
    (h : withObstacle? ray range nearest o = .ok next) :
    Hit.Least (HitWithin (seen ++ [o]) ray r) next := by
  have hsame (hno : ∀ n, o.shape.hit? ray = .ok (some n) → ¬ n.place ≤ r) :
      Hit.Least (HitWithin (seen ++ [o]) ray r) nearest := by
    refine hnearest.congr fun m => ?_
    rw [hitWithin_append_single seen ho]
    exact ⟨.inl, fun hm => hm.resolve_right fun hhit => hno m hhit.1 hhit.2⟩
  unfold withObstacle? at h
  obtain ⟨hit, hhit, h⟩ := bind_eq_ok.mp h
  cases hit with
  | none =>
    obtain rfl := Except.ok.inj h
    exact hsame fun n hn => nomatch hhit.symm.trans hn
  | some n =>
    obtain ⟨within, hwithin, h⟩ := bind_eq_ok.mp h
    obtain rfl := Except.ok.inj ((hrange n).symm.trans hwithin)
    by_cases hle : n.place ≤ r
    · rw [if_pos (decide_eq_true hle)] at h
      obtain rfl := Except.ok.inj h
      refine (hnearest.nearer (fun m hm => (Scalar.Ordered.not_nan_of_le hm.2).1)
        (Scalar.Ordered.not_nan_of_le hle).1).congr fun m => ?_
      rw [hitWithin_append_single seen ho, hhit]
      refine or_congr_right ⟨?_, ?_⟩
      · rintro rfl
        exact ⟨rfl, hle⟩
      · rintro ⟨heq, -⟩
        exact (Option.some.inj (Except.ok.inj heq)).symm
    · rw [if_neg (by simpa using hle)] at h
      obtain rfl := Except.ok.inj h
      refine hsame fun m hm => ?_
      obtain rfl := Option.some.inj (Except.ok.inj (hhit.symm.trans hm))
      exact hle

/-- The search keeps the least of the hits within the range that it has come by. -/
theorem least_of_foldlM [Scalar.Ordered α] (hrange : range.Limits r) {obstacles seen : World α}
    (hsolid : ∀ o ∈ obstacles, o.solid = true) {nearest last : Option (Hit α)}
    (hnearest : Hit.Least (seen.HitWithin ray r) nearest)
    (h : obstacles.foldlM (withObstacle? ray range) nearest = .ok last) :
    Hit.Least (HitWithin (seen ++ obstacles) ray r) last := by
  induction obstacles generalizing seen nearest with
  | nil =>
    obtain rfl := Except.ok.inj h
    rwa [List.append_nil]
  | cons o rest ih =>
    rw [List.foldlM_cons] at h
    obtain ⟨next, hnext, h⟩ := bind_eq_ok.mp h
    have hleast := least_of_withObstacle? hrange (hsolid o List.mem_cons_self) hnearest hnext
    rw [List.append_cons]
    exact ih (fun p hp => hsolid p (List.mem_cons_of_mem _ hp)) hleast h

theorem least_of_nearest? [Scalar.Ordered α] (hrange : range.Limits r)
    {nearest : Option (Hit α)} (h : world.nearest? ray range = .ok nearest) :
    Hit.Least (world.HitWithin ray r) nearest := by
  have hnone : Hit.Least (HitWithin ([] : World α) ray r) none := by
    rintro h ⟨⟨o, ho, -⟩, -⟩
    cases ho
  exact (least_of_foldlM hrange (fun o ho => (List.mem_filter.mp ho).2) hnone h).congr
    (hitWithin_filter_solid world ray r)

/-! ### Answers -/

theorem exists_withObstacle?_iff (hrange : range.Limits r) (o : Obstacle α)
    (nearest : Option (Hit α)) :
    (∃ next, withObstacle? ray range nearest o = .ok next) ↔
      ∃ hit, o.shape.hit? ray = .ok hit := by
  constructor
  · rintro ⟨next, h⟩
    obtain ⟨hit, hhit, -⟩ := bind_eq_ok.mp h
    exact ⟨hit, hhit⟩
  · rintro ⟨hit, hhit⟩
    unfold withObstacle?
    rw [hhit]
    cases hit with
    | none => exact ⟨nearest, rfl⟩
    | some h =>
      show ∃ next, (do
        if ← h.within? range then return some (nearer nearest h) else return nearest :
        Except (Fault α) (Option (Hit α))) = .ok next
      rw [hrange h]
      cases decide (h.place ≤ r) with
      | true => exact ⟨_, rfl⟩
      | false => exact ⟨_, rfl⟩

/-- A ray has an answer just if all solid obstacles can be set against it. -/
theorem exists_nearest?_iff (hrange : range.Limits r) :
    (∃ nearest, world.nearest? ray range = .ok nearest) ↔ world.Answers ray := by
  have hfold : ∀ (obstacles : World α) (nearest : Option (Hit α)),
      (∃ last, obstacles.foldlM (withObstacle? ray range) nearest = .ok last) ↔
        ∀ o ∈ obstacles, ∃ hit, o.shape.hit? ray = .ok hit := by
    intro obstacles
    induction obstacles with
    | nil => exact fun nearest => iff_of_true ⟨nearest, rfl⟩ nofun
    | cons o rest ih =>
      intro nearest
      rw [List.forall_mem_cons, ← exists_withObstacle?_iff hrange o nearest, List.foldlM_cons]
      constructor
      · rintro ⟨last, h⟩
        obtain ⟨next, hnext, h⟩ := bind_eq_ok.mp h
        exact ⟨⟨next, hnext⟩, (ih next).mp ⟨last, h⟩⟩
      · rintro ⟨⟨next, hnext⟩, hrest⟩
        obtain ⟨last, h⟩ := (ih next).mpr hrest
        exact ⟨last, bind_eq_ok.mpr ⟨next, hnext, h⟩⟩
  unfold nearest?
  rw [hfold]
  simp [Answers]

end World

/-! ### Numbers -/

/-- The measures of a shape are numbers. -/
def Shape.Numeric : Shape (Value ℝ) → Prop
  | box xMin xMax zMin zMax => (xMin.IsNumber ∧ xMax.IsNumber) ∧ zMin.IsNumber ∧ zMax.IsNumber
  | circle x z radius => x.IsNumber ∧ z.IsNumber ∧ radius.IsNumber

namespace Shape

variable {ray : Ray ℝ}

theorem Stretch.not_listed_of_crossing {s t : Stretch ℝ} (hs : s.near.form ≠ .listed) {m n : Hit ℝ}
    (hm : m.form ≠ .listed) (hn : n.form ≠ .listed) (h : s.crossing m n = some t) :
    t.near.form ≠ .listed := by
  have hlater : ∀ enter : Hit ℝ, enter.form ≠ .listed →
      (if s.near.place < enter.place then enter else s.near).form ≠ .listed := by
    intro enter henter
    split
    · exact henter
    · exact hs
  unfold crossing at h
  by_cases hplaces : n.place < m.place
  · rw [if_pos hplaces] at h
    obtain ⟨-, h⟩ := Option.ite_none_left_eq_some.mp h
    exact Option.some.inj h ▸ hlater n hn
  · rw [if_neg hplaces] at h
    obtain ⟨-, h⟩ := Option.ite_none_left_eq_some.mp h
    exact Option.some.inj h ▸ hlater m hm

theorem Stretch.exists_between?_of_isNumber {s : Stretch ℝ} (hs : s.near.form ≠ .listed)
    {form : Vantage.Form} (hform : form ≠ .text) (origin direction : ℝ) {lower upper : Value ℝ}
    (hlower : lower.IsNumber) (hupper : upper.IsNumber) :
    ∃ found, s.between? form origin direction lower upper = .ok found ∧
      ∀ t ∈ found, t.near.form ≠ .listed := by
  unfold between?
  split
  · rw [Vantage.Form.above?_of_isNumber hform hlower, Vantage.Form.below?_of_isNumber hform hupper]
    cases decide (origin < lower.amount) with
    | true => exact ⟨none, rfl, nofun⟩
    | false =>
      cases decide (upper.amount < origin) with
      | true => exact ⟨none, rfl, nofun⟩
      | false => exact ⟨some s, rfl, fun t ht => Option.some.inj ht ▸ hs⟩
  · rw [Vantage.Form.measure?_of_isNumber hform hlower,
      Vantage.Form.measure?_of_isNumber hform hupper]
    refine ⟨_, rfl, fun t ht => not_listed_of_crossing hs ?_ ?_ ht⟩ <;> exact nofun

theorem not_listed_of_firstOf {crossings : Option (ℝ × ℝ)} {hit : Hit ℝ}
    (h : firstOf crossings = some hit) : hit.form ≠ .listed := by
  cases crossings with
  | none => cases h
  | some crossing =>
    obtain ⟨enter, leave⟩ := crossing
    rw [firstOf_some] at h
    obtain ⟨-, h⟩ := Option.ite_none_left_eq_some.mp h
    obtain rfl := Option.some.inj h
    split <;> exact nofun

/-- Shapes whose measures are numbers can be set against any ray, which meets them at numbers. -/
theorem exists_hit?_of_numeric (hform : ray.origin.form ≠ .text) {shape : Shape (Value ℝ)}
    (h : shape.Numeric) : ∃ hit, shape.hit? ray = .ok hit ∧ ∀ n ∈ hit, n.form ≠ .listed := by
  cases shape with
  | box xMin xMax zMin zMax =>
    obtain ⟨⟨hxMin, hxMax⟩, hzMin, hzMax⟩ := h
    have hwhole : (Stretch.whole : Stretch ℝ).near.form ≠ .listed := nofun
    obtain ⟨foundX, hx, hfoundX⟩ := Stretch.exists_between?_of_isNumber hwhole hform ray.origin.x
      ray.dx hxMin hxMax
    show ∃ hit, boxHit? ray xMin xMax zMin zMax = .ok hit ∧ _
    unfold boxHit?
    dsimp only
    rw [hx]
    cases foundX with
    | none => exact ⟨none, rfl, nofun⟩
    | some s =>
      obtain ⟨foundZ, hz, hfoundZ⟩ := Stretch.exists_between?_of_isNumber (hfoundX s rfl) hform
        ray.origin.z ray.dz hzMin hzMax
      show ∃ hit, (do return (← s.between? _ _ _ _ _).map Stretch.near : Except (Fault ℝ) _) =
        .ok hit ∧ _
      rw [hz]
      refine ⟨foundZ.map Stretch.near, rfl, fun n hn => ?_⟩
      obtain ⟨t, ht, rfl⟩ := Option.map_eq_some_iff.mp hn
      exact hfoundZ t ht
  | circle x z radius =>
    obtain ⟨hx, hz, n, hn⟩ := h
    show ∃ hit, circleHit? ray x z radius = .ok hit ∧ _
    unfold circleHit?
    rw [Vantage.Form.measure?_of_isNumber hform hx, Vantage.Form.measure?_of_isNumber hform hz, hn]
    show ∃ hit, (do
      let squaredRadius ← n.square?
      if Ray.vertical ray then return none
      let crossings := circleCrossings ray x.amount z.amount squaredRadius
      if crossings.isSome && (false || false) then throw .wrongKind
      return firstOf crossings : Except (Fault ℝ) (Option (Hit ℝ))) = .ok hit ∧ _
    rw [Number.square?_eq_value]
    cases Ray.vertical ray with
    | true => exact ⟨none, rfl, nofun⟩
    | false =>
      rw [Bool.or_false]
      simp only [Bool.and_false]
      exact ⟨_, rfl, fun n hn => not_listed_of_firstOf hn⟩

end Shape

/-- A world of shapes whose measures are numbers. -/
def World.Numeric (world : World ℝ) : Prop := ∀ o ∈ world, o.solid = true → o.shape.Numeric

/-- Worlds of shapes whose measures are numbers have an answer for any ray. -/
theorem World.answers_of_numeric {world : World ℝ} {ray : Ray ℝ} (hform : ray.origin.form ≠ .text)
    (h : world.Numeric) : world.Answers ray := by
  intro o ho hsolid
  obtain ⟨hit, hrun, -⟩ := Shape.exists_hit?_of_numeric hform (h o ho hsolid)
  exact ⟨hit, hrun⟩

/-! ### Lengths -/

namespace Sighting

omit [Scalar α] in
/-- What a ray tells with this nearest hit: the range, if there is none. -/
def ofNearest (range : Value α) : Option (Hit α) → Sighting α
  | none => plain range
  | some h => hit h

omit [Scalar α] in
/-- How long a ray is that tells this, if the range is `r`. -/
def length (r : α) : Sighting α → α
  | hit h => h.place
  | plain _ => r

end Sighting

namespace World

variable {world more : World α} {ray : Ray α} {range : Value α} {r : α}

theorem cast?_of_nearest? {nearest : Option (Hit α)} (h : world.nearest? ray range = .ok nearest) :
    world.cast? ray range = .ok (Sighting.ofNearest range nearest) := by
  unfold cast?
  rw [h]
  cases nearest <;> rfl

theorem of_cast? {s : Sighting α} (h : world.cast? ray range = .ok s) :
    ∃ nearest, world.nearest? ray range = .ok nearest ∧ s = Sighting.ofNearest range nearest := by
  obtain ⟨nearest, hnearest, -⟩ := bind_eq_ok.mp h
  exact ⟨nearest, hnearest, Except.ok.inj (h.symm.trans (cast?_of_nearest? hnearest))⟩

variable [Scalar.Ordered α]

theorem length_le {nearest : Option (Hit α)} (hnearest : Hit.Least (world.HitWithin ray r) nearest)
    (hr : Scalar.isNaN r = false) : (Sighting.ofNearest range nearest).length r ≤ r := by
  cases nearest with
  | none => exact Scalar.Ordered.le_refl hr
  | some n => exact hnearest.1.2

theorem zero_le_length {nearest : Option (Hit α)}
    (hnearest : Hit.Least (world.HitWithin ray r) nearest) (hr : 0 ≤ r) :
    0 ≤ (Sighting.ofNearest range nearest).length r := by
  cases nearest with
  | none => exact hr
  | some n =>
    obtain ⟨⟨o, -, -, hrun⟩, hle⟩ := hnearest.1
    exact Shape.zero_le_place_of_hit? (Scalar.Ordered.not_nan_of_le hr).1 hrun
      (Scalar.Ordered.not_nan_of_le hle).1

/-- More obstacles make no ray longer. -/
theorem length_le_of_solidIn {nearest nearer : Option (Hit α)}
    (hnearest : Hit.Least (world.HitWithin ray r) nearest)
    (hnearer : Hit.Least (more.HitWithin ray r) nearer) (hsolid : world.SolidIn more)
    (hr : Scalar.isNaN r = false) :
    (Sighting.ofNearest range nearer).length r ≤ (Sighting.ofNearest range nearest).length r := by
  cases nearest with
  | none => exact length_le hnearer hr
  | some n =>
    obtain ⟨m, rfl, hle⟩ := hnearest.le_of_imp hnearer (fun _ => HitWithin.of_solidIn hsolid) n rfl
    exact hle

/-- What a ray tells of a world is the least of its hits on solid obstacles within the range, in
whatever order these stand and among whatever others, and gets no longer with more of them. -/
theorem nearest_in_any_order (hrange : range.Limits r) :
    ((∃ nearest, world.nearest? ray range = .ok nearest) ↔ world.Answers ray) ∧
    ∀ nearest, world.nearest? ray range = .ok nearest →
      Hit.Least (world.HitWithin ray r) nearest ∧
      (∀ other : World α, other.filter Obstacle.solid = world.filter Obstacle.solid →
        other.nearest? ray range = .ok nearest) ∧
      (∀ other : World α, (world.filter Obstacle.solid).Perm (other.filter Obstacle.solid) →
        ∃ again, other.nearest? ray range = .ok again ∧ Option.Rel Hit.Ties nearest again) ∧
      (∀ more : World α, world.SolidIn more → ∀ nearer, more.nearest? ray range = .ok nearer →
        ∀ n ∈ nearest, ∃ m ∈ nearer, m.place ≤ n.place) ∧
      (0 ≤ r → ∃ s, world.cast? ray range = .ok s ∧ s = Sighting.ofNearest range nearest ∧
        0 ≤ s.length r ∧ s.length r ≤ r ∧
        ∀ more : World α, world.SolidIn more → ∀ t, more.cast? ray range = .ok t →
          t.length r ≤ s.length r) := by
  refine ⟨exists_nearest?_iff hrange, fun nearest h => ?_⟩
  have hleast := least_of_nearest? hrange h
  refine ⟨hleast, fun other hsame => ?_, fun other hperm => ?_, fun more hsolid nearer hnearer => ?_,
    fun hr => ?_⟩
  · unfold nearest?
    rw [hsame]
    exact h
  · have hanswers : other.Answers ray := fun o ho hsolid =>
      (exists_nearest?_iff hrange).mp ⟨nearest, h⟩ o (solidIn_of_perm hperm.symm o ho hsolid) hsolid
    obtain ⟨again, hagain⟩ := (exists_nearest?_iff hrange).mpr hanswers
    refine ⟨again, hagain, hleast.rel_of_iff (least_of_nearest? hrange hagain) fun m => ?_⟩
    exact ⟨HitWithin.of_solidIn (solidIn_of_perm hperm),
      HitWithin.of_solidIn (solidIn_of_perm hperm.symm)⟩
  · exact hleast.le_of_imp (least_of_nearest? hrange hnearer) fun _ => HitWithin.of_solidIn hsolid
  · have hnan := (Scalar.Ordered.not_nan_of_le hr).2
    refine ⟨_, cast?_of_nearest? h, rfl, zero_le_length hleast hr, length_le hleast hnan, ?_⟩
    intro more hsolid t ht
    obtain ⟨nearer, hnearer, rfl⟩ := of_cast? ht
    exact length_le_of_solidIn hleast (least_of_nearest? hrange hnearer) hsolid hnan

/-- A solid box across the `z` axis. -/
noncomputable def boxAhead : Obstacle ℝ :=
  ⟨.box (.real (-1)) (.real 1) (.real (2 : ℕ)) (.real (3 : ℕ)), .text Obstacle.solidTag⟩

/-- A circle behind a box, with a mark on the ground before both. -/
noncomputable def circleBehindBox : World ℝ :=
  [⟨.circle (.real 0) (.real (5 : ℕ)) (.real 1), .text Obstacle.solidTag⟩,
    ⟨.box (.real (-1)) (.real 1) (.real 1) (.real 1), .text "ground"⟩, boxAhead]

/-- Along `z`, from the origin. -/
noncomputable def alongZ : Ray ℝ := ⟨⟨0, 0, .computed⟩, 0, 1⟩

theorem answers_circleBehindBox : circleBehindBox.Answers alongZ := by
  refine answers_of_numeric nofun ?_
  have hreal (x : ℝ) : (Value.real x).IsNumber := ⟨_, rfl⟩
  simp only [Numeric, circleBehindBox, List.forall_mem_cons]
  exact ⟨fun _ => ⟨hreal _, hreal _, hreal _⟩, fun _ => ⟨⟨hreal _, hreal _⟩, hreal _, hreal _⟩,
    fun _ => ⟨⟨hreal _, hreal _⟩, hreal _, hreal _⟩, nofun⟩

theorem hitWithin_circleBehindBox : ∃ h, circleBehindBox.HitWithin alongZ 10 h ∧ h.place ≤ 2 := by
  have hform : alongZ.origin.form ≠ .text := nofun
  obtain ⟨hit, hrun, hfirst⟩ := Shape.exists_boxHit? hform
    (Shape.Stretch.eq_zero_of_parallel (.inl rfl))
    (Shape.Stretch.eq_zero_of_parallel (.inr (by norm_num [alongZ])))
    (Shape.bounds_real (by norm_num : (-1 : ℝ) ≤ 1))
    (Shape.bounds_real (by norm_num : ((2 : ℕ) : ℝ) ≤ (3 : ℕ)))
  have hmeets : alongZ.Meets (.box (.real (-1)) (.real 1) (.real (2 : ℕ)) (.real (3 : ℕ))) 2 := by
    rw [Shape.meets_box_real]
    norm_num [alongZ]
  cases hit with
  | none => exact absurd hmeets (hfirst 2 zero_le_two)
  | some h =>
    have hle : h.place ≤ 2 := le_of_not_gt fun hlt => hfirst.2.2.2 2 zero_le_two hlt hmeets
    have hmem : boxAhead ∈ circleBehindBox := by simp [circleBehindBox]
    exact ⟨h, ⟨⟨boxAhead, hmem, rfl, hrun⟩, hle.trans (by norm_num)⟩, hle⟩

/-- The ray ends at the box, whichever of the two obstacles comes first. -/
theorem nearest_circleBehindBox :
    ∃ nearest again : Option (Hit ℝ),
      circleBehindBox.nearest? alongZ (.real 10) = .ok nearest ∧
      nearest? circleBehindBox.reverse alongZ (.real 10) = .ok again ∧
      Option.Rel Hit.Ties nearest again ∧ ∃ n ∈ nearest, 0 ≤ n.place ∧ n.place ≤ 2 := by
  obtain ⟨hanswers, hnearest⟩ :=
    @nearest_in_any_order ℝ _ circleBehindBox alongZ _ _ _ (Value.limits_real 10)
  obtain ⟨nearest, hrun⟩ := hanswers.mpr answers_circleBehindBox
  obtain ⟨hleast, -, hperm, -, hcast⟩ := hnearest nearest hrun
  obtain ⟨again, hagain, hties⟩ := hperm circleBehindBox.reverse
    ((List.reverse_perm circleBehindBox).symm.filter _)
  refine ⟨nearest, again, hrun, hagain, hties, ?_⟩
  obtain ⟨h, hhit, hle⟩ := hitWithin_circleBehindBox
  obtain ⟨s, -, rfl, hnonneg, -⟩ := hcast (by rw [Scalar.zero_real]; norm_num)
  cases nearest with
  | none => exact absurd hhit (hleast h)
  | some n => exact ⟨n, rfl, Scalar.zero_real ▸ hnonneg, (hleast.2 h hhit).trans hle⟩

end World

end ArmRover
