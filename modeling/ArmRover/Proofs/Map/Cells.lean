import ArmRover.Map.Grid
import Mathlib.Order.Lattice

/-!
# The cells of a map

What is known of a cell only grows: free is more than unknown, and occupied is more than free. The
two ways to write a cell give it the larger one of what was known and what the ray tells.

* `Cell` as a linear order.
* `Grid.SameFrame` — maps of the same measures, `Grid.ext_cell?` — they differ in some cell, if
  they differ.
* `Grid.cell?_passThrough`, `Grid.cell?_endIn` — the cells after a write.
* `Grid.count_total` — every cell is counted once.
-/

namespace ArmRover

namespace Cell

/-- How much is known of a cell. -/
def rank : Cell → Nat
  | unknown => 0
  | free => 1
  | occupied => 2

theorem rank_injective : Function.Injective rank := by
  intro c d h
  cases c <;> cases d <;> first | rfl | cases h

instance : LinearOrder Cell := LinearOrder.lift' rank rank_injective

@[simp] theorem unknown_le (c : Cell) : unknown ≤ c := Nat.zero_le c.rank

@[simp] theorem le_occupied (c : Cell) : c ≤ occupied := by
  cases c <;> decide

@[simp] theorem unknown_max (c : Cell) : max unknown c = c := max_eq_right c.unknown_le

@[simp] theorem max_unknown (c : Cell) : max c unknown = c := max_eq_left c.unknown_le

@[simp] theorem max_occupied (c : Cell) : max c occupied = occupied := max_eq_right c.le_occupied

theorem max_free_of_ne {c : Cell} (h : c ≠ occupied) : max c free = free := by
  cases c with
  | unknown => decide
  | free => decide
  | occupied => exact absurd rfl h

end Cell

namespace Grid

variable {α : Type} {g h k : Grid α}

/-! ### Maps of the same measures -/

/-- Two maps of the same side, density and number of cells. -/
structure SameFrame (g h : Grid α) : Prop where
  side : h.side = g.side
  density : h.density = g.density
  size : h.size = g.size

namespace SameFrame

theorem refl (g : Grid α) : g.SameFrame g := ⟨rfl, rfl, rfl⟩

theorem symm (hgh : g.SameFrame h) : h.SameFrame g :=
  ⟨hgh.side.symm, hgh.density.symm, hgh.size.symm⟩

theorem trans (hgh : g.SameFrame h) (hhk : h.SameFrame k) : g.SameFrame k :=
  ⟨hhk.side.trans hgh.side, hhk.density.trans hgh.density, hhk.size.trans hgh.size⟩

theorem contains (hgh : g.SameFrame h) (gx gz : Int) : h.contains gx gz = g.contains gx gz := by
  unfold Grid.contains
  rw [hgh.size]

variable [Scalar α]

theorem cellSide (hgh : g.SameFrame h) : h.cellSide = g.cellSide := by
  unfold Grid.cellSide
  rw [hgh.side, hgh.size]

theorem index (hgh : g.SameFrame h) (x : α) : h.index x = g.index x := by
  unfold Grid.index
  rw [hgh.size, hgh.cellSide]

theorem locate (hgh : g.SameFrame h) (x z : α) : h.locate x z = g.locate x z := by
  unfold Grid.locate
  rw [hgh.index, hgh.index]

theorem locate? (hgh : g.SameFrame h) (x z : α) : h.locate? x z = g.locate? x z := by
  unfold Grid.locate?
  rw [hgh.index, hgh.index]

end SameFrame

/-! ### Cells by their place -/

theorem contains_iff {gx gz : Int} :
    g.contains gx gz = true ↔ 0 ≤ gx ∧ gx < g.size ∧ 0 ≤ gz ∧ gz < g.size := by
  simp [contains, and_assoc]

/-- Two cells of the map have different places. -/
theorem offset_inj {gx gz x z : Int} (hg : g.contains gx gz = true) (hx : g.contains x z = true)
    (h : g.offset gx gz = g.offset x z) : x = gx ∧ z = gz := by
  rw [contains_iff] at hg hx
  unfold offset at h
  have hcolumn : ∀ {a b : Nat}, a < g.size → (b * g.size + a) % g.size = a := by
    intro a b ha
    rw [Nat.mul_add_mod_self_right, Nat.mod_eq_of_lt ha]
  have hcolumns : gx.toNat = x.toNat := by
    rw [← hcolumn (b := gz.toNat) (show gx.toNat < g.size by omega), h, hcolumn (by omega)]
  have hrows : gz.toNat = z.toNat := by
    rw [hcolumns] at h
    exact Nat.eq_of_mul_eq_mul_right (by omega) (Nat.add_right_cancel h)
  omega

/-- Every place belongs to a cell of the map. -/
theorem exists_offset {i : Nat} (h : i < g.size * g.size) :
    ∃ gx gz : Int, g.contains gx gz = true ∧ g.offset gx gz = i := by
  have hsize : 0 < g.size := Nat.pos_of_mul_pos_right (Nat.zero_lt_of_lt h)
  refine ⟨(i % g.size : Nat), (i / g.size : Nat), ?_, ?_⟩
  · have hcolumn := Nat.mod_lt i hsize
    have hrow := Nat.div_lt_of_lt_mul h
    exact contains_iff.mpr ⟨Int.natCast_nonneg _, Int.ofNat_lt.mpr hcolumn, Int.natCast_nonneg _,
      Int.ofNat_lt.mpr hrow⟩
  · unfold offset
    rw [Int.toNat_natCast, Int.toNat_natCast, Nat.mul_comm, Nat.div_add_mod]

theorem cell?_of_contains {gx gz : Int} (h : g.contains gx gz = true) :
    g.cell? gx gz = g.cells[g.offset gx gz]? := if_pos h

theorem cell?_of_not_contains {gx gz : Int} (h : ¬ g.contains gx gz = true) :
    g.cell? gx gz = none := if_neg h

/-- Something is known of the cells of the map, if only that they are unknown. -/
theorem cell?_ne_none_iff {gx gz : Int} : g.cell? gx gz ≠ none ↔ g.contains gx gz = true := by
  by_cases h : g.contains gx gz = true
  · rw [cell?_of_contains h, Vector.getElem?_eq_getElem (offset_lt h)]
    exact iff_of_true (Option.some_ne_none _) h
  · exact iff_of_false (fun hsome => hsome (cell?_of_not_contains h)) h

/-- All cells of a uniform map are alike. -/
theorem eq_of_cell?_replicate {side density : Number α} {size : Nat} {c d : Cell} {gx gz : Int}
    (h : (⟨side, density, size, .replicate _ c⟩ : Grid α).cell? gx gz = some d) : d = c := by
  unfold cell? at h
  split at h
  case isTrue =>
    obtain ⟨_, hd⟩ := Vector.getElem?_eq_some_iff.mp h
    rw [← hd, Vector.getElem_replicate]
  case isFalse => cases h

/-- Maps of the same measures with the same cells are equal. -/
theorem ext_cell? (hframe : g.SameFrame h) (hcells : ∀ x z, h.cell? x z = g.cell? x z) : h = g := by
  obtain ⟨side, density, size, cells⟩ := g
  obtain ⟨side', density', size', cells'⟩ := h
  obtain ⟨hside, hdensity, hsize⟩ := hframe
  dsimp only at hside hdensity hsize
  subst hside hdensity hsize
  congr 1
  apply Vector.ext
  intro i hi
  obtain ⟨gx, gz, hcontains, hoffset⟩ :=
    exists_offset (g := (⟨side', density', size', cells⟩ : Grid α)) hi
  have heq := hcells gx gz
  rw [cell?_of_contains hcontains, cell?_of_contains (by exact hcontains)] at heq
  have hplace : (⟨side', density', size', cells'⟩ : Grid α).offset gx gz = i := hoffset
  rw [hoffset, hplace, Vector.getElem?_eq_getElem hi, Vector.getElem?_eq_getElem hi] at heq
  exact Option.some.inj heq

/-! ### Writing a cell -/

theorem sameFrame_setCell (g : Grid α) (gx gz : Int) (c : Cell) :
    g.SameFrame (g.setCell gx gz c) := by
  unfold setCell
  split
  · exact ⟨rfl, rfl, rfl⟩
  · exact .refl g

theorem sameFrame_passThrough (g : Grid α) (gx gz : Int) : g.SameFrame (g.passThrough gx gz) := by
  unfold passThrough
  split
  · exact .refl g
  · exact sameFrame_setCell g gx gz .free

theorem sameFrame_endIn (g : Grid α) (gx gz : Int) : g.SameFrame (g.endIn gx gz) :=
  sameFrame_setCell g gx gz .occupied

theorem cell?_setCell (g : Grid α) (gx gz x z : Int) (c : Cell) :
    (g.setCell gx gz c).cell? x z =
      if x = gx ∧ z = gz then (g.cell? x z).map fun _ => c else g.cell? x z := by
  have hframe := sameFrame_setCell g gx gz c
  by_cases hx : g.contains x z = true
  · by_cases hg : g.contains gx gz = true
    · have hcells : (g.setCell gx gz c).cell? x z =
          (g.cells.setIfInBounds (g.offset gx gz) c)[g.offset x z]? := by
        unfold setCell
        rw [if_pos hg]
        exact if_pos hx
      rw [hcells, Vector.getElem?_setIfInBounds, if_pos (offset_lt hg), cell?_of_contains hx]
      by_cases hplace : g.offset gx gz = g.offset x z
      · rw [if_pos hplace, if_pos (offset_inj hg hx hplace),
          Vector.getElem?_eq_getElem (offset_lt hx)]
        rfl
      · rw [if_neg hplace, if_neg]
        rintro ⟨rfl, rfl⟩
        exact hplace rfl
    · rw [if_neg]
      · unfold setCell
        rw [if_neg hg]
      · rintro ⟨rfl, rfl⟩
        exact hg hx
  · rw [cell?_of_not_contains hx, cell?_of_not_contains (by rwa [hframe.contains])]
    simp

theorem cell?_passThrough (g : Grid α) (gx gz x z : Int) :
    (g.passThrough gx gz).cell? x z =
      (g.cell? x z).map fun c => if x = gx ∧ z = gz then max c .free else c := by
  unfold passThrough
  split
  case isTrue hoccupied =>
    -- an occupied cell stays as it is
    by_cases hplace : x = gx ∧ z = gz
    · rw [hplace.1, hplace.2, hoccupied]
      simp
    · simp [hplace]
  case isFalse hfree =>
    rw [cell?_setCell]
    by_cases hplace : x = gx ∧ z = gz
    · rw [hplace.1, hplace.2]
      cases hcell : g.cell? gx gz with
      | none => simp
      | some c =>
        have hc : c ≠ .occupied := fun hc => hfree (hcell.trans (congrArg some hc))
        simp [Cell.max_free_of_ne hc]
    · simp [hplace]

theorem cell?_endIn (g : Grid α) (gx gz x z : Int) :
    (g.endIn gx gz).cell? x z =
      (g.cell? x z).map fun c => if x = gx ∧ z = gz then max c .occupied else c := by
  unfold endIn
  rw [cell?_setCell]
  by_cases hplace : x = gx ∧ z = gz
  · simp [hplace]
  · simp [hplace]

/-! ### Counting -/

/-- Every cell of the map is unknown, free or occupied. -/
theorem count_total (g : Grid α) :
    g.count .unknown + g.count .free + g.count .occupied = g.size * g.size := by
  have hlist : ∀ cells : List Cell,
      cells.count .unknown + cells.count .free + cells.count .occupied = cells.length := by
    intro cells
    induction cells with
    | nil => rfl
    | cons c rest ih =>
      rw [List.length_cons, ← ih]
      cases c <;> simp <;> omega
  have hcount : ∀ c, g.count c = g.cells.toList.count c := by
    intro c
    unfold count
    rw [← Vector.count_toArray, ← Array.count_toList]
    rfl
  rw [hcount, hcount, hcount, hlist, Vector.length_toList]

end Grid

end ArmRover
