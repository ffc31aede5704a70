import ArmRover.Map.Fusion
import ArmRover.Proofs.Action
import ArmRover.Proofs.Map.Cells
import ArmRover.Proofs.Map.Squares
import ArmRover.Proofs.Scalar.Finite
import ArmRover.Proofs.Value.Amount

/-!
# Fusing scans in any order

Fusing a scan tells of some cells that a ray passed them and of others that a ray ended there. A
cell becomes the largest of what was known of it and what it is told, so that neither the order of
scans and rays nor a repetition makes a difference.

* `Survey` — a scan with all that fusing it needs, `Grid.fuseAll` — one survey after the other.
* `Survey.Passes`, `Survey.EndsIn` — what a survey tells of a cell.
* `Grid.Teaches` — actions that do nothing but tell cells something.
* `Grid.Grows` — no cell is known less well, `Grid.preserves_fuseAll` — whatever is fused.
* `Grid.fusion_settles` — the map that comes of a collection of surveys.
-/

namespace ArmRover

open ArmRover.Action

/-- A scan taken at a point by a sensor of some range, of which readings of at least a ratio of the
range are misses. -/
structure Survey (α : Type) where
  readings : List (Reading α)
  origin : Vantage α
  range : Value α
  ratio : Value α

variable {α : Type} [Scalar α]

/-! ### What a scan tells -/

namespace Grid

/-- The cell at a distance from the origin of a scan, along a ray at an angle. -/
def cellAlong (g : Grid α) (origin : Vantage α) (angle distance : α) : Int × Int :=
  g.locate (origin.x + Scalar.sin angle * distance) (origin.z + Scalar.cos angle * distance)

/-- The number of cell lengths that fit before a distance. -/
def stepsTo (g : Grid α) (distance : α) : Nat := (Scalar.floor (distance / g.cellSide)).toNat

/-- Whether the cell at a distance along a ray can be computed. -/
structure FiniteAlong (g : Grid α) (origin : Vantage α) (angle distance : α) : Prop where
  column : Scalar.IsFinite (g.index (origin.x + Scalar.sin angle * distance))
  row : Scalar.IsFinite (g.index (origin.z + Scalar.cos angle * distance))

end Grid

namespace Reading

/-- One of the steps before the end of the reading falls in the cell. -/
def Passes (g : Grid α) (origin : Vantage α) (p : Reading α) (x z : Int) : Prop :=
  ∃ d, p.distance.value.scalar? = .ok d ∧
    ∃ step < g.stepsTo d, g.cellAlong origin p.angle (Scalar.ofInt step * g.cellSide) = (x, z)

/-- The reading is a hit, and ends in the cell. -/
def EndsIn (g : Grid α) (origin : Vantage α) (limit : Except (Fault α) (Value α)) (p : Reading α)
    (x z : Int) : Prop :=
  (∃ l, limit = .ok l ∧ p.distance.below? l = .ok true) ∧
    ∃ d, p.distance.value.scalar? = .ok d ∧ g.cellAlong origin p.angle d = (x, z)

/-- All that is computed from the reading is finite. -/
structure Finite (g : Grid α) (origin : Vantage α) (limit : Except (Fault α) (Value α))
    (p : Reading α) (d : α) : Prop where
  distance : p.distance.value.scalar? = .ok d
  angle : Scalar.isInfinite p.angle = false
  length : Scalar.IsFinite (d / g.cellSide)
  steps : ∀ step : Nat, step < g.stepsTo d →
    g.FiniteAlong origin p.angle (Scalar.ofInt step * g.cellSide)
  last : g.FiniteAlong origin p.angle d
  hit : ∃ l b, limit = .ok l ∧ p.distance.below? l = .ok b

end Reading

namespace Survey

/-- A ray of the survey passes the cell. -/
def Passes (g : Grid α) (s : Survey α) (x z : Int) : Prop :=
  ∃ p ∈ s.readings, p.Passes g s.origin x z

/-- A ray of the survey ends in the cell. -/
def EndsIn (g : Grid α) (s : Survey α) (x z : Int) : Prop :=
  ∃ p ∈ s.readings, p.EndsIn g s.origin (s.range.product? s.ratio) x z

/-- All values of the survey, and what is computed from them, are finite numbers. -/
structure Finite (g : Grid α) (s : Survey α) : Prop where
  origin : s.origin.form ≠ .text
  readings : ∀ p ∈ s.readings, ∃ d, p.Finite g s.origin (s.range.product? s.ratio) d

omit [Scalar α]

/-- The same readings in some order, taken at the same point by the same sensor. -/
structure Reorders (s t : Survey α) : Prop where
  readings : s.readings.Perm t.readings
  origin : s.origin = t.origin
  range : s.range = t.range
  ratio : s.ratio = t.ratio

/-- The same surveys in some order, each any number of times, and each with its readings in some
order. -/
structure Repeats (surveys again : List (Survey α)) : Prop where
  forth : ∀ s ∈ surveys, ∃ t ∈ again, s.Reorders t
  back : ∀ t ∈ again, ∃ s ∈ surveys, s.Reorders t

end Survey

namespace Grid

/-- Fuse one survey after the other. -/
def fuseAll (surveys : List (Survey α)) : Action α (Grid α) Unit :=
  Action.each surveys fun s => fuse s.readings s.origin s.range s.ratio

/-! ### Telling cells something -/

open Classical in
/-- What a cell is told that rays pass, or not, and in which rays end, or not. -/
noncomputable def told (passed ended : Prop) : Cell :=
  max (if passed then .free else .unknown) (if ended then .occupied else .unknown)

theorem told_false : told False False = .unknown := by
  simp [told]

theorem told_or (p e p' e' : Prop) : max (told p e) (told p' e') = told (p ∨ p') (e ∨ e') := by
  unfold told
  by_cases hp : p <;> by_cases he : e <;> by_cases hp' : p' <;> by_cases he' : e' <;>
    simp only [hp, he, hp', he', or_self, or_true, or_false, if_true, if_false] <;> decide

/-- A map in which every cell was told something. -/
structure Learns (g h : Grid α) (passed ended : Int → Int → Prop) : Prop where
  frame : g.SameFrame h
  cell? : ∀ x z, h.cell? x z = (g.cell? x z).map fun c => max c (told (passed x z) (ended x z))

/-- An action on maps of the measures of `g` that tells the cells something and does nothing
else. -/
def Teaches (g : Grid α) (a : Action α (Grid α) Unit) (passed ended : Int → Int → Prop) : Prop :=
  ∀ h, g.SameFrame h → ∃ k, a h = .ok () k ∧ h.Learns k passed ended

section Teaches

omit [Scalar α]

variable {g : Grid α} {passed ended passed' ended' : Int → Int → Prop}

theorem Learns.cell?_of_ended {h : Grid α} (hgh : g.Learns h passed ended) {x z : Int} {c : Cell}
    (hc : g.cell? x z = some c) (hended : ended x z) : h.cell? x z = some .occupied := by
  rw [hgh.cell?, hc]
  simp [told, hended]

theorem teaches_of_iff {a : Action α (Grid α) Unit} (h : g.Teaches a passed ended)
    (hpassed : ∀ x z, passed x z ↔ passed' x z) (hended : ∀ x z, ended x z ↔ ended' x z) :
    g.Teaches a passed' ended' := by
  obtain rfl : passed = passed' := funext₂ fun x z => propext (hpassed x z)
  obtain rfl : ended = ended' := funext₂ fun x z => propext (hended x z)
  exact h

theorem teaches_pure : g.Teaches (pure ()) (fun _ _ => False) (fun _ _ => False) := by
  refine fun h _ => ⟨h, rfl, .refl h, fun x z => ?_⟩
  simp [told_false]

theorem teaches_lift {β : Type} {answer : Except (Fault α) β} {b : β}
    {f : β → Action α (Grid α) Unit} (hb : answer = .ok b) (hf : g.Teaches (f b) passed ended) :
    g.Teaches (Action.lift answer >>= f) passed ended := by
  rw [hb]
  exact hf

theorem teaches_get {f : Grid α → Action α (Grid α) Unit}
    (hf : ∀ h, g.SameFrame h → g.Teaches (f h) passed ended) :
    g.Teaches (get >>= f) passed ended :=
  fun h hgh => hf h hgh h hgh

theorem teaches_bind {a b : Action α (Grid α) Unit} (ha : g.Teaches a passed ended)
    (hb : g.Teaches b passed' ended') :
    g.Teaches (a >>= fun _ => b) (fun x z => passed x z ∨ passed' x z)
      (fun x z => ended x z ∨ ended' x z) := by
  intro h hgh
  obtain ⟨k, hk, hlearns⟩ := ha h hgh
  obtain ⟨l, hl, hlearns'⟩ := hb k (hgh.trans hlearns.frame)
  refine ⟨l, (run_bind hk).trans hl, hlearns.frame.trans hlearns'.frame, fun x z => ?_⟩
  rw [hlearns'.cell?, hlearns.cell?, Option.map_map, ← told_or]
  congr 1
  funext c
  exact max_assoc c _ _

theorem teaches_each {β : Type} {items : List β} {act : β → Action α (Grid α) Unit}
    {passes ends : β → Int → Int → Prop}
    (h : ∀ b ∈ items, g.Teaches (act b) (passes b) (ends b)) :
    g.Teaches (Action.each items act) (fun x z => ∃ b ∈ items, passes b x z)
      (fun x z => ∃ b ∈ items, ends b x z) := by
  induction items with
  | nil =>
    simp only [List.not_mem_nil, false_and, exists_false]
    exact teaches_pure
  | cons b rest ih =>
    simp only [List.mem_cons, exists_eq_or_imp]
    exact teaches_bind (h b List.mem_cons_self) (ih fun b hb => h b (List.mem_cons_of_mem _ hb))

theorem learns_passThrough (h : Grid α) (x z : Int) :
    h.Learns (h.passThrough x z) (fun x' z' => (x, z) = (x', z') ∧ True)
      (fun x' z' => (x, z) = (x', z') ∧ False) := by
  refine ⟨sameFrame_passThrough h x z, fun x' z' => ?_⟩
  rw [cell?_passThrough]
  by_cases hplace : x' = x ∧ z' = z
  · simp [told, hplace]
  · have hother : ¬ (x = x' ∧ z = z') := fun h => hplace ⟨h.1.symm, h.2.symm⟩
    simp [told, hplace, hother]

theorem learns_endIn (h : Grid α) (x z : Int) :
    h.Learns (h.endIn x z) (fun x' z' => (x, z) = (x', z') ∧ False)
      (fun x' z' => (x, z) = (x', z') ∧ True) := by
  refine ⟨sameFrame_endIn h x z, fun x' z' => ?_⟩
  rw [cell?_endIn]
  by_cases hplace : x' = x ∧ z' = z
  · simp [told, hplace]
  · have hother : ¬ (x = x' ∧ z = z') := fun h => hplace ⟨h.1.symm, h.2.symm⟩
    simp [told, hplace, hother]

variable [Scalar α]

theorem locate?_of_finiteAlong {h : Grid α} {origin : Vantage α} {angle d : α}
    (hframe : g.SameFrame h) (hfinite : g.FiniteAlong origin angle d) :
    h.locate? (origin.x + Scalar.sin angle * d) (origin.z + Scalar.cos angle * d) =
      .ok (g.cellAlong origin angle d) := by
  rw [hframe.locate?]
  unfold locate?
  rw [hfinite.column.floor?, hfinite.row.floor?]
  rfl

theorem teaches_markAt {mark : Grid α → Int → Int → Grid α} {origin : Vantage α} {angle d : α}
    {passes ends : Prop} (horigin : origin.form ≠ .text) (hfinite : g.FiniteAlong origin angle d)
    (hmark : ∀ h : Grid α, ∀ x z, h.Learns (mark h x z) (fun x' z' => (x, z) = (x', z') ∧ passes)
      (fun x' z' => (x, z) = (x', z') ∧ ends)) :
    g.Teaches (markAt mark origin (Scalar.sin angle) (Scalar.cos angle) d)
      (fun x z => g.cellAlong origin angle d = (x, z) ∧ passes)
      (fun x z => g.cellAlong origin angle d = (x, z) ∧ ends) := by
  unfold markAt
  refine teaches_lift (if_neg horigin) (teaches_get fun h hframe => ?_)
  refine teaches_lift (locate?_of_finiteAlong hframe hfinite) ?_
  exact fun h _ => ⟨_, rfl, hmark h _ _⟩

theorem teaches_fuseReading {origin : Vantage α} {limit : Except (Fault α) (Value α)}
    {p : Reading α} {d : α} (horigin : origin.form ≠ .text) (hp : p.Finite g origin limit d) :
    g.Teaches (fuseReading origin limit p) (p.Passes g origin) (p.EndsIn g origin limit) := by
  obtain ⟨l, b, hlimit, hbelow⟩ := hp.hit
  unfold fuseReading
  refine teaches_lift (Scalar.sinCos?_of_not_infinite hp.angle) (teaches_get fun h hframe => ?_)
  dsimp only
  rw [hframe.cellSide]
  refine teaches_lift hp.distance (teaches_lift hp.length.floor? ?_)
  have hstep : ∀ step ∈ List.range (g.stepsTo d), g.Teaches _ _ _ := fun step hstep =>
    teaches_markAt horigin (hp.steps step (List.mem_range.mp hstep)) learns_passThrough
  have hsteps := teaches_each hstep
  have hend : g.Teaches (if b = true then
        markAt endIn origin (Scalar.sin p.angle) (Scalar.cos p.angle) d else pure ())
      (fun _ _ => False) (fun x z => g.cellAlong origin p.angle d = (x, z) ∧ b = true) := by
    cases b with
    | false => exact teaches_of_iff teaches_pure (by simp) (by simp)
    | true => exact teaches_of_iff (teaches_markAt horigin hp.last learns_endIn) (by simp) (by simp)
  refine teaches_of_iff (teaches_bind hsteps (teaches_lift hlimit (teaches_lift hbelow hend))) ?_ ?_
  · intro x z
    simp [Reading.Passes, hp.distance]
  · intro x z
    simp [Reading.EndsIn, hp.distance, hlimit, hbelow, and_comm]

theorem teaches_fuse {s : Survey α} (h : s.Finite g) :
    g.Teaches (fuse s.readings s.origin s.range s.ratio) (s.Passes g) (s.EndsIn g) := by
  refine teaches_each fun p hp => ?_
  obtain ⟨d, hfinite⟩ := h.readings p hp
  exact teaches_fuseReading h.origin hfinite

theorem teaches_fuseAll {surveys : List (Survey α)} (h : ∀ s ∈ surveys, s.Finite g) :
    g.Teaches (fuseAll surveys) (fun x z => ∃ s ∈ surveys, s.Passes g x z)
      (fun x z => ∃ s ∈ surveys, s.EndsIn g x z) :=
  teaches_each fun s hs => teaches_fuse (h s hs)

end Teaches

/-! ### Growing -/

/-- A map of the same measures in which no cell is known less well. -/
structure Grows (g h : Grid α) : Prop where
  frame : g.SameFrame h
  cell? : ∀ x z c, g.cell? x z = some c → ∃ d, h.cell? x z = some d ∧ c ≤ d

omit [Scalar α] in
theorem Grows.refl (g : Grid α) : g.Grows g := ⟨.refl g, fun _ _ c hc => ⟨c, hc, le_rfl⟩⟩

omit [Scalar α] in
theorem Grows.learns {g h k : Grid α} {passed ended : Int → Int → Prop} (hgh : g.Grows h)
    (hhk : h.Learns k passed ended) : g.Grows k := by
  refine ⟨hgh.frame.trans hhk.frame, fun x z c hc => ?_⟩
  obtain ⟨d, hd, hcd⟩ := hgh.cell? x z c hc
  refine ⟨max d (told (passed x z) (ended x z)), ?_, hcd.trans (le_max_left _ _)⟩
  rw [hhk.cell?, hd]
  rfl

theorem preserves_markAt {g : Grid α} {mark : Grid α → Int → Int → Grid α}
    (hmark : ∀ h x z, g.Grows h → g.Grows (mark h x z)) (origin : Vantage α) (sin cos d : α) :
    Preserves g.Grows (markAt mark origin sin cos d) := by
  unfold markAt
  refine preserves_bind (preserves_lift _) fun _ => ?_
  refine preserves_bind preserves_get fun _ => ?_
  refine preserves_bind (preserves_lift _) fun _ => ?_
  exact preserves_modify fun h hh => hmark h _ _ hh

/-- Whatever is fused, and whether or not it can be, no cell is known less well after it. -/
theorem preserves_grows_fuse (g : Grid α) (s : Survey α) :
    Preserves g.Grows (fuse s.readings s.origin s.range s.ratio) := by
  refine preserves_each fun p _ => ?_
  unfold fuseReading
  refine preserves_bind (preserves_lift _) fun _ => ?_
  refine preserves_bind preserves_get fun _ => ?_
  refine preserves_bind (preserves_lift _) fun _ => ?_
  refine preserves_bind (preserves_lift _) fun _ => ?_
  refine preserves_bind (preserves_each fun step _ => ?_) fun _ => ?_
  · exact preserves_markAt (fun h x z hh => hh.learns (learns_passThrough h x z)) _ _ _ _
  refine preserves_bind (preserves_lift _) fun _ => ?_
  refine preserves_bind (preserves_lift _) fun _ => ?_
  refine preserves_ite ?_ (preserves_pure ())
  exact preserves_markAt (fun h x z hh => hh.learns (learns_endIn h x z)) _ _ _ _

theorem preserves_fuseAll (g : Grid α) (surveys : List (Survey α)) :
    Preserves g.Grows (fuseAll surveys) :=
  preserves_each fun s _ => preserves_grows_fuse g s

end Grid

/-! ### The same again -/

namespace Survey

variable {g : Grid α} {s t : Survey α}

theorem Reorders.finite (h : s.Reorders t) (hs : s.Finite g) : t.Finite g := by
  refine ⟨h.origin ▸ hs.origin, fun p hp => ?_⟩
  rw [← h.origin, ← h.range, ← h.ratio]
  exact hs.readings p (h.readings.mem_iff.mpr hp)

theorem Reorders.passes_iff (h : s.Reorders t) (x z : Int) : s.Passes g x z ↔ t.Passes g x z := by
  unfold Passes
  rw [h.origin]
  simp only [h.readings.mem_iff]

theorem Reorders.endsIn_iff (h : s.Reorders t) (x z : Int) : s.EndsIn g x z ↔ t.EndsIn g x z := by
  unfold EndsIn
  rw [h.origin, h.range, h.ratio]
  simp only [h.readings.mem_iff]

variable {surveys again : List (Survey α)}

theorem Repeats.finite (h : Repeats surveys again) (hfinite : ∀ s ∈ surveys, s.Finite g) :
    ∀ t ∈ again, t.Finite g := by
  intro t ht
  obtain ⟨s, hs, hst⟩ := h.back t ht
  exact hst.finite (hfinite s hs)

omit [Scalar α] in
/-- What holds of some survey, whatever the order of its readings, holds of some survey of the
repetition. -/
theorem Repeats.exists_iff (h : Repeats surveys again) {P : Survey α → Prop}
    (hP : ∀ s t : Survey α, s.Reorders t → (P s ↔ P t)) :
    (∃ t ∈ again, P t) ↔ ∃ s ∈ surveys, P s := by
  constructor
  · rintro ⟨t, ht, hPt⟩
    obtain ⟨s, hs, hst⟩ := h.back t ht
    exact ⟨s, hs, (hP s t hst).mpr hPt⟩
  · rintro ⟨s, hs, hPs⟩
    obtain ⟨t, ht, hst⟩ := h.forth s hs
    exact ⟨t, ht, (hP s t hst).mp hPs⟩

/-- Over the real numbers all values are finite. -/
theorem finite_of_numbers {g : Grid ℝ} {s : Survey ℝ} (horigin : s.origin.form ≠ .text)
    (hrange : s.range.IsNumber) (hratio : s.ratio.IsNumber)
    (hreadings : ∀ p ∈ s.readings, p.distance.value.IsNumber) : s.Finite g := by
  obtain ⟨limit, hlimit, hnumber, -⟩ := Value.exists_product? hrange hratio
  refine ⟨horigin, fun p hp => ⟨p.distance.value.amount, ?_⟩⟩
  have hfinite : ∀ d, g.FiniteAlong s.origin p.angle d :=
    fun d => ⟨Scalar.isFinite_real _, Scalar.isFinite_real _⟩
  exact {
    distance := Value.scalar?_of_isNumber (hreadings p hp)
    angle := rfl
    length := Scalar.isFinite_real _
    steps := fun _ _ => hfinite _
    last := hfinite _
    hit := ⟨limit, _, hlimit, Sighting.below?_of_isNumber (hreadings p hp) hnumber⟩ }

end Survey

namespace Grid

/-- A collection of surveys of which all values are finite settles the map: each cell becomes the
largest of what was known of it, free if a ray passes it, and occupied if a ray ends there. Surveys
in another order, fused several times, or with their readings in another order give the same map.
Along any run of surveys no cell comes to be known less well, and the counts add up to the number of
cells. -/
theorem fusion_settles (g : Grid α) :
    (∀ surveys again : List (Survey α), (∀ s ∈ surveys, s.Finite g) →
      Survey.Repeats surveys again →
      ∃ h, fuseAll surveys g = .ok () h ∧ fuseAll again g = .ok () h ∧ h.size = g.size ∧
        ∀ x z, h.cell? x z = (g.cell? x z).map fun c =>
          max c (told (∃ s ∈ surveys, s.Passes g x z) (∃ s ∈ surveys, s.EndsIn g x z))) ∧
    ∀ surveys : List (Survey α),
      let h := final (fuseAll surveys g)
      h.size = g.size ∧
      (∀ x z c, g.cell? x z = some c → ∃ d, h.cell? x z = some d ∧ c ≤ d) ∧
      h.count .unknown + h.count .free + h.count .occupied = g.size * g.size := by
  refine ⟨fun surveys again hfinite hrepeats => ?_, fun surveys => ?_⟩
  · obtain ⟨h, hrun, hlearns⟩ := teaches_fuseAll hfinite g (.refl g)
    obtain ⟨k, hagain, hlearns'⟩ := teaches_fuseAll (hrepeats.finite hfinite) g (.refl g)
    have hkh : k = h := by
      refine ext_cell? (hlearns.frame.symm.trans hlearns'.frame) fun x z => ?_
      rw [hlearns.cell?, hlearns'.cell?,
        hrepeats.exists_iff fun s t hst => hst.passes_iff (g := g) x z,
        hrepeats.exists_iff fun s t hst => hst.endsIn_iff (g := g) x z]
    exact ⟨h, hrun, hkh ▸ hagain, hlearns.frame.size, hlearns.cell?⟩
  · intro h
    have hgrows : g.Grows h := preserves_fuseAll g surveys g (.refl g)
    refine ⟨hgrows.frame.size, hgrows.cell?, ?_⟩
    rw [count_total, hgrows.frame.size]

/-- A hit and a miss straight ahead, fused once, and then again in another order with the scan
repeated. The cell of the hit is occupied, although the miss passes it. -/
theorem fusion_settles_hit_and_miss :
    let g : Grid ℝ := ⟨.whole 4, .whole 1, 4, .replicate _ .unknown⟩
    let hit : Reading ℝ := ⟨0, .plain (.real 1)⟩
    let miss : Reading ℝ := ⟨0, .plain (.real 5)⟩
    let s : Survey ℝ := ⟨[hit, miss], ⟨0, 0, .computed⟩, .real 5, .real (19 / 20)⟩
    let t : Survey ℝ := ⟨[miss, hit], ⟨0, 0, .computed⟩, .real 5, .real (19 / 20)⟩
    (∀ u ∈ [s], u.Finite g) ∧ Survey.Repeats [s] [t, s] ∧
      ∃ h, fuseAll [s] g = .ok () h ∧ fuseAll [t, s] g = .ok () h ∧
        h.cell? 2 3 = some .occupied := by
  intro g hit miss s t
  have hfinite : ∀ u ∈ [s], u.Finite g := by
    intro u hu
    obtain rfl := List.mem_singleton.mp hu
    refine Survey.finite_of_numbers (by decide) ⟨_, rfl⟩ ⟨_, rfl⟩ fun p hp => ?_
    simp only [s, List.mem_cons, List.not_mem_nil, or_false] at hp
    rcases hp with rfl | rfl <;> exact ⟨_, rfl⟩
  have hrepeats : Survey.Repeats [s] [t, s] := by
    have hst : s.Reorders t := ⟨.swap miss hit [], rfl, rfl, rfl⟩
    have hss : s.Reorders s := ⟨.refl _, rfl, rfl, rfl⟩
    exact ⟨by simpa using .inl hst, by simpa using ⟨hst, hss⟩⟩
  obtain ⟨h, hrun, hagain, -, hcells⟩ := (fusion_settles g).1 [s] [t, s] hfinite hrepeats
  have hside : g.cellSide = 1 := by
    show ((4 : Int) : ℝ) / ((4 : Nat) : ℝ) = 1
    norm_num
  have hended : s.EndsIn g 2 3 := by
    refine ⟨hit, List.mem_cons_self, ⟨_, rfl, ?_⟩, 1, rfl, ?_⟩
    · rw [Sighting.below?_of_isNumber ⟨_, rfl⟩ ⟨_, rfl⟩]
      show Except.ok (decide ((1 : ℝ) < 5 * (19 / 20))) = _
      norm_num
    · show g.locate (0 + Real.sin 0 * 1) (0 + Real.cos 0 * 1) = (2, 3)
      rw [locate_eq_iff (by norm_num [hside])]
      simp only [InSquare, hside, Real.sin_zero, Real.cos_zero]
      norm_num [g]
  refine ⟨hfinite, hrepeats, h, hrun, hagain, ?_⟩
  have hcell : g.cell? 2 3 = some .unknown := rfl
  rw [hcells, hcell]
  simp [told, hended]

end Grid

end ArmRover
