import ArmRover.Proofs.Map.Fusion

/-!
# Maps drawn scan by scan

A scan goes into the map that there is, and the first one into a new map. So the map is always one
new map with all the scans so far fused into it in order: a map that was made for some side and
density has the size that is asked for with them, and is not made again.

* `Grid.OfMeasures` — maps with the measures of one that can be made, `Grid.ofMeasures_of_new?` — a
  new map.
* `Grid.Draws` — the map that is drawn from surveys, `Grid.draws_fuseInto` — one more survey.
-/

namespace ArmRover.Grid

variable {α : Type} [Scalar α] {side density : Value α} {g : Grid α} {surveys : List (Survey α)}
  {s : Survey α}

open ArmRover.Action

/-- A map that can be made has some number of cells along a side. -/
theorem exists_size_of_extent? {empty : Fault α} {measures : Number α × Number α}
    (h : extent? side density empty = .ok measures) :
    ∃ size, size? side density = .ok size ∧ 0 < size := by
  obtain ⟨s, -, h⟩ := bind_eq_ok.mp h
  obtain ⟨-, h⟩ := of_unless_ok h
  obtain ⟨d, -, h⟩ := bind_eq_ok.mp h
  obtain ⟨-, h⟩ := of_unless_ok h
  obtain ⟨size, hsize, h⟩ := bind_eq_ok.mp h
  obtain ⟨hcells, -⟩ := of_unless_ok h
  exact ⟨size, hsize, by omega⟩

/-- The measures of a map that can be made are the numbers that are asked for. -/
theorem number?_of_extent? {empty : Fault α} {m n : Number α}
    (h : extent? side density empty = .ok (m, n)) :
    side.number? = .ok m ∧ m.atMost 0 = false ∧ density.number? = .ok n := by
  obtain ⟨s, hs, h⟩ := bind_eq_ok.mp h
  obtain ⟨hside, h⟩ := of_unless_ok h
  obtain ⟨d, hd, h⟩ := bind_eq_ok.mp h
  obtain ⟨-, h⟩ := of_unless_ok h
  obtain ⟨size, -, h⟩ := bind_eq_ok.mp h
  obtain ⟨-, h⟩ := of_unless_ok h
  cases h
  exact ⟨hs, Bool.eq_false_iff.mpr hside, hd⟩

/-- The fault that tells of an empty map makes no difference to a map that can be made. -/
theorem extent?_of_ok {empty : Fault α} {measures : Number α × Number α}
    (h : extent? side density empty = .ok measures) (empty' : Fault α) :
    extent? side density empty' = .ok measures := by
  obtain ⟨s, hs, h⟩ := bind_eq_ok.mp h
  obtain ⟨hside, h⟩ := of_unless_ok h
  obtain ⟨d, hd, h⟩ := bind_eq_ok.mp h
  obtain ⟨hdensity, h⟩ := of_unless_ok h
  obtain ⟨size, hsize, h⟩ := bind_eq_ok.mp h
  obtain ⟨hcells, h⟩ := of_unless_ok h
  cases h
  unfold extent?
  rw [hs, hd, hsize]
  show (do
    if s.atMost 0 then throw empty'
    if d.atMost 0 then throw empty'
    if size < 1 then throw empty'
    return (s, d) : Except (Fault α) (Number α × Number α)) = _
  rw [if_neg hside, if_neg hdensity, if_neg hcells]
  rfl

/-- Only the numbers count that are asked for. -/
theorem extent?_number {m n : Number α} (hm : side.number? = .ok m) (hn : density.number? = .ok n)
    (empty : Fault α) :
    extent? (.number m) (.number n) empty = extent? side density empty := by
  unfold extent? size? Value.product?
  rw [hm, hn]
  rfl

/-- A map that can be made is made if it has not too many cells. -/
theorem new?_of_extent? {m n : Number α} {size : Nat}
    (hextent : extent? side density (.emptyMap side density) = .ok (m, n))
    (hsize : size? side density = .ok size) :
    new? side density =
      if maxCells < size * size then .error .mapTooLarge
      else if Value.maxHeld < size * size then .error .outOfMemory
      else .ok ⟨m, n, size, .replicate _ .unknown⟩ := by
  unfold new?
  rw [hextent, hsize]
  show (do
    if maxCells < size * size then throw .mapTooLarge
    if Value.maxHeld < size * size then throw .outOfMemory
    return ⟨m, n, size, .replicate _ .unknown⟩ : Except (Fault α) (Grid α)) = _
  split
  · rfl
  · split <;> rfl

/-- A map with the measures of one that can be made, whatever is known of its cells. -/
structure OfMeasures (side density : Value α) (g : Grid α) : Prop where
  extent? : extent? side density (.emptyMap side density) = .ok (g.side, g.density)
  size? : size? side density = .ok g.size

theorem OfMeasures.sameFrame {h : Grid α} (hg : g.OfMeasures side density) (hgh : g.SameFrame h) :
    h.OfMeasures side density := by
  refine ⟨?_, ?_⟩
  · rw [hgh.side, hgh.density]
    exact hg.extent?
  · rw [hgh.size]
    exact hg.size?

theorem OfMeasures.size_pos (hg : g.OfMeasures side density) : 0 < g.size := by
  obtain ⟨size, hsize, hpos⟩ := exists_size_of_extent? hg.extent?
  obtain rfl := Except.ok.inj (hsize.symm.trans hg.size?)
  exact Int.natCast_pos.mp hpos

/-- A new map has the measures that are asked for. -/
theorem ofMeasures_of_new? (h : new? side density = .ok g) : g.OfMeasures side density := by
  obtain ⟨⟨s, d⟩, hextent, h⟩ := bind_eq_ok.mp h
  obtain ⟨size, hsize, h⟩ := bind_eq_ok.mp h
  obtain ⟨-, h⟩ := of_unless_ok h
  obtain ⟨-, h⟩ := of_unless_ok h
  obtain rfl := Except.ok.inj h
  refine ⟨hextent, ?_⟩
  obtain ⟨size', hsize', hpos⟩ := exists_size_of_extent? hextent
  obtain rfl := Except.ok.inj (hsize'.symm.trans hsize)
  rw [hsize]
  exact congrArg Except.ok (Int.toNat_of_nonneg hpos.le).symm

/-- Nothing is known of the cells of a new map. -/
theorem unknown_of_new? (h : new? side density = .ok g) {gx gz : Int} {c : Cell}
    (hcell : g.cell? gx gz = some c) : c = .unknown := by
  obtain ⟨⟨s, d⟩, -, h⟩ := bind_eq_ok.mp h
  obtain ⟨size, -, h⟩ := bind_eq_ok.mp h
  obtain ⟨-, h⟩ := of_unless_ok h
  obtain ⟨-, h⟩ := of_unless_ok h
  obtain rfl := Except.ok.inj h
  exact eq_of_cell?_replicate hcell

/-- The map that is drawn from surveys, with a side and a density: none before the first one, and
then a new map into which they are fused in order. -/
def Draws (side density : Value α) (surveys : List (Survey α)) (map : Option (Grid α)) : Prop :=
  match surveys with
  | [] => map = none
  | surveys => ∃ blank g, new? side density = .ok blank ∧ map = some g ∧
    fuseAll surveys blank = .ok () g

theorem draws_iff (hne : surveys ≠ []) {map : Option (Grid α)} :
    Draws side density surveys map ↔ ∃ blank g, new? side density = .ok blank ∧ map = some g ∧
      fuseAll surveys blank = .ok () g := by
  cases surveys with
  | nil => exact absurd rfl hne
  | cons s rest => exact Iff.rfl

theorem fuseAll_append {blank k : Grid α} (h : fuseAll surveys blank = .ok () g)
    (hfuse : fuse s.readings s.origin s.range s.ratio g = .ok () k) :
    fuseAll (surveys ++ [s]) blank = .ok () k := by
  have happend : fuseAll (surveys ++ [s]) blank = fuseAll [s] g := each_append h [s]
  rw [happend]
  show (fuse s.readings s.origin s.range s.ratio >>= fun _ => pure ()) g = _
  rw [run_bind hfuse]
  rfl

/-- Fusing leaves the size of a map. -/
theorem size_of_fuseAll {blank : Grid α} (h : fuseAll surveys blank = .ok () g) :
    g.size = blank.size :=
  ((preserves_fuseAll blank surveys).of_ok h (.refl blank)).frame.size

/-- A map of the size that is asked for stays, and where there is none a new one is made. -/
theorem draws_of_prepare {map map' : Option (Grid α)} (h : Draws side density surveys map)
    (hprepare : prepare side density map = .ok () map') :
    ∃ blank g, new? side density = .ok blank ∧ map' = some g ∧
      fuseAll surveys blank = .ok () g := by
  unfold prepare at hprepare
  obtain ⟨size, map₁, hrun, hprepare⟩ := exists_of_bind_eq_ok hprepare
  obtain ⟨hsize, rfl⟩ := of_lift_eq_ok hrun
  rw [run_get_bind] at hprepare
  cases surveys with
  | nil =>
    obtain rfl : map = none := h
    obtain ⟨blank, map₁, hrun, hprepare⟩ := exists_of_bind_eq_ok hprepare
    obtain ⟨hnew, rfl⟩ := of_lift_eq_ok hrun
    cases hprepare
    exact ⟨blank, blank, hnew, rfl, rfl⟩
  | cons s rest =>
    obtain ⟨blank, g, hnew, rfl, hfused⟩ := h
    have hsame : hasSize (some g) size = true := by
      obtain rfl := Except.ok.inj (hsize.symm.trans (ofMeasures_of_new? hnew).size?)
      show ((g.size : Int) == blank.size) = true
      rw [size_of_fuseAll hfused]
      exact beq_self_eq_true _
    rw [hsame] at hprepare
    cases hprepare
    exact ⟨blank, g, hnew, rfl, hfused⟩

/-- A scan goes into the map after those before it. -/
theorem draws_fuseInto {map map' : Option (Grid α)} (h : Draws side density surveys map)
    (hfuse : fuseInto s.readings s.origin side density s.range s.ratio map = .ok () map') :
    Draws side density (surveys ++ [s]) map' := by
  obtain ⟨_, map₁, hprepare, hfuse⟩ := exists_of_bind_eq_ok hfuse
  obtain ⟨blank, g, hnew, rfl, hfused⟩ := draws_of_prepare h hprepare
  unfold fuseIfAny at hfuse
  rw [run_get_bind] at hfuse
  dsimp only at hfuse
  unfold Action.on at hfuse
  cases hrun : fuse s.readings s.origin s.range s.ratio g with
  | error fault k =>
    rw [hrun] at hfuse
    cases hfuse
  | ok _ k =>
    rw [hrun] at hfuse
    cases hfuse
    refine (draws_iff (List.append_ne_nil_of_right_ne_nil _ (List.cons_ne_nil s []))).mpr ?_
    exact ⟨blank, k, hnew, rfl, fuseAll_append hfused hrun⟩

end ArmRover.Grid
