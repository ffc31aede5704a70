import ArmRover.Proofs.Map.Drawing
import ArmRover.Proofs.Map.Squares
import ArmRover.Proofs.Value.Amount

/-!
# The cells tile the map

Over the real numbers a map takes the half-open square of the ground around the origin that its
side asks for, however the number of its cells is rounded. Each position of the map lies in the
square of exactly one of its cells, and writing a cell tells of the positions of its square and of
no others.

* `Grid.extent?_of_pos` — the measures of a map that can be made, `Grid.OfMeasures.cellSide_pos` —
  its cells have a side.
* `Grid.contains_locate_iff` — the positions of a map.
* `Grid.Writes` — the positions of one square are written.
* `Grid.cells_tile` — all of it, for every map of such measures.
-/

namespace ArmRover.Grid

variable {side density : Value ℝ} {g h : Grid ℝ}

/-! ### The measures of a map -/

namespace OfMeasures

theorem side_pos (hg : g.OfMeasures side density) : 0 < g.side.value := by
  obtain ⟨-, hside, -⟩ := number?_of_extent? hg.extent?
  rwa [Number.atMost_real, decide_eq_false_iff_not, Scalar.zero_real, not_le] at hside

theorem side_value (hg : g.OfMeasures side density) : g.side.value = side.amount :=
  (Value.amount_of_number (number?_of_extent? hg.extent?).1).symm

theorem cellSide_pos (hg : g.OfMeasures side density) : 0 < g.cellSide := by
  rw [cellSide_real]
  exact div_pos hg.side_pos (Nat.cast_pos.mpr hg.size_pos)

end OfMeasures

/-- A map can be made if its side and density are positive and there is at least one cell. -/
theorem extent?_of_pos {m n : Number ℝ} {size : Int} (hm : side.number? = .ok m)
    (hn : density.number? = .ok n) (hside : 0 < m.value) (hdensity : 0 < n.value)
    (hsize : size? side density = .ok size) (hpos : 0 < size) (empty : Fault ℝ) :
    extent? side density empty = .ok (m, n) := by
  have hmost : ∀ k : Number ℝ, 0 < k.value → k.atMost (Scalar.ofInt 0) = false := by
    intro k hk
    rw [Number.atMost_real, decide_eq_false_iff_not, not_le]
    exact Int.cast_zero.trans_lt hk
  have hcells : ¬ size < 1 := by omega
  unfold extent?
  rw [hm, hn, hsize]
  show (do
    if m.atMost (Scalar.ofInt 0) then throw empty
    if n.atMost (Scalar.ofInt 0) then throw empty
    if size < 1 then throw empty
    return (m, n) : Except (Fault ℝ) (Number ℝ × Number ℝ)) = _
  rw [hmost m hside, hmost n hdensity, if_neg hcells]
  rfl

/-- Whole measures make a map of whole cells. -/
theorem new?_whole {m n : Nat} (hm : 0 < m) (hn : 0 < n)
    (hheld : m * n * (m * n) ≤ Value.maxHeld) :
    (new? (.number (.whole m)) (.number (.whole n)) : Except (Fault ℝ) (Grid ℝ)) =
      .ok ⟨.whole m, .whole n, m * n, .replicate _ .unknown⟩ := by
  have hsize : (size? (.number (.whole m)) (.number (.whole n)) : Except (Fault ℝ) Int) =
      .ok ((m * n : Nat) : Int) := rfl
  have hpos : ∀ {k : Nat}, 0 < k → 0 < (Number.whole k : Number ℝ).value := fun hk =>
    Int.cast_pos.mpr (Int.natCast_pos.mpr hk)
  have hcells : (0 : Int) < (m * n : Nat) := Int.natCast_pos.mpr (Nat.mul_pos hm hn)
  have hnumbered : ¬ maxCells < m * n * (m * n) :=
    not_lt.mpr (hheld.trans (by decide))
  rw [new?_of_extent? (extent?_of_pos rfl rfl (hpos hm) (hpos hn) hsize hcells _) hsize,
    if_neg hnumbered, if_neg (not_lt.mpr hheld)]

/-! ### The positions of a map -/

/-- The cells along a side make up the side. -/
theorem size_mul_cellSide (hside : 0 < g.cellSide) : g.size * g.cellSide = g.side.value := by
  have hsize : (g.size : ℝ) ≠ 0 := by
    intro hzero
    rw [cellSide_real, hzero, div_zero] at hside
    exact lt_irrefl 0 hside
  rw [cellSide_real]
  exact mul_div_cancel₀ _ hsize

theorem floor_index_mem_iff (hside : 0 < g.cellSide) (x : ℝ) :
    (0 ≤ ⌊g.index x⌋ ∧ ⌊g.index x⌋ < (g.size : Int)) ↔
      -(g.side.value / 2) ≤ x ∧ x < g.side.value / 2 := by
  have hhalf : g.side.value / 2 = g.size / 2 * g.cellSide := by
    rw [← size_mul_cellSide hside]
    ring
  rw [Int.floor_nonneg, Int.floor_lt, index_real, hhalf, ← neg_mul, ← le_div_iff₀ hside,
    ← div_lt_iff₀ hside, Int.cast_natCast]
  constructor
  · rintro ⟨hlower, hupper⟩
    constructor <;> linarith
  · rintro ⟨hlower, hupper⟩
    constructor <;> linarith

/-- The positions of a map, with the lower but not the upper sides. -/
@[mk_iff]
structure Covers (g : Grid ℝ) (x z : ℝ) : Prop where
  x_mem : -(g.side.value / 2) ≤ x ∧ x < g.side.value / 2
  z_mem : -(g.side.value / 2) ≤ z ∧ z < g.side.value / 2

/-- The cell that holds a position lies in the map if the position does. -/
theorem contains_locate_iff (hside : 0 < g.cellSide) (x z : ℝ) :
    g.contains (g.locate x z).1 (g.locate x z).2 = true ↔ g.Covers x z := by
  rw [covers_iff, contains_iff, ← floor_index_mem_iff hside x, ← floor_index_mem_iff hside z,
    and_assoc]
  rfl

theorem cellAt?_real (g : Grid ℝ) (x z : ℝ) :
    g.cellAt? x z = .ok (g.cell? (g.locate x z).1 (g.locate x z).2) := rfl

/-- Every cell of the plane holds the middle of its square. -/
theorem locate_middle (hside : 0 < g.cellSide) (gx gz : Int) :
    g.locate ((gx + 1 / 2 - g.size / 2) * g.cellSide) ((gz + 1 / 2 - g.size / 2) * g.cellSide) =
      (gx, gz) := by
  rw [locate_eq_iff hside]
  refine ⟨?_, ?_, ?_, ?_⟩
  · exact mul_le_mul_of_nonneg_right (by linarith) hside.le
  · exact mul_lt_mul_of_pos_right (by linarith) hside
  · exact mul_le_mul_of_nonneg_right (by linarith) hside.le
  · exact mul_lt_mul_of_pos_right (by linarith) hside

/-! ### Writing a square -/

/-- The positions of the map in the square of a cell are written, and no others. -/
structure Writes (g h : Grid ℝ) (gx gz : Int) (c : Cell) : Prop where
  inside : ∀ x z, g.Covers x z → g.InSquare gx gz x z → h.cellAt? x z = .ok (some c)
  outside : ∀ x z, ¬ (g.Covers x z ∧ g.InSquare gx gz x z) → h.cellAt? x z = g.cellAt? x z

theorem writes_setCell (hside : 0 < g.cellSide) (gx gz : Int) (c : Cell) :
    g.Writes (g.setCell gx gz c) gx gz c := by
  have hframe := sameFrame_setCell g gx gz c
  refine ⟨fun x z hcovers hsquare => ?_, fun x z hother => ?_⟩
  · have hcell := (locate_eq_iff hside gx gz x z).mpr hsquare
    have hcontains := (contains_locate_iff hside x z).mpr hcovers
    rw [hcell] at hcontains
    rw [cellAt?_real, hframe.locate, hcell, cell?_setCell, if_pos ⟨rfl, rfl⟩,
      cell?_of_contains hcontains, Vector.getElem?_eq_getElem (offset_lt hcontains)]
    rfl
  · rw [cellAt?_real, cellAt?_real, hframe.locate, cell?_setCell]
    split
    case isTrue hplace =>
      -- the square of the cell lies beside the map
      have hsquare := (locate_eq_iff hside gx gz x z).mp (Prod.ext hplace.1 hplace.2)
      have hbeside : ¬ g.Covers x z := fun hcovers => hother ⟨hcovers, hsquare⟩
      rw [cell?_of_not_contains (mt (contains_locate_iff hside x z).mp hbeside)]
      rfl
    case isFalse => rfl

theorem writes_endIn (hside : 0 < g.cellSide) (gx gz : Int) :
    g.Writes (g.endIn gx gz) gx gz .occupied :=
  writes_setCell hside gx gz .occupied

theorem writes_passThrough (hside : 0 < g.cellSide) {gx gz : Int}
    (hfree : g.cell? gx gz ≠ some .occupied) : g.Writes (g.passThrough gx gz) gx gz .free := by
  unfold passThrough
  rw [if_neg hfree]
  exact writes_setCell hside gx gz .free

/-! ### The tiling -/

/-- The cells of a map tile it, whatever is known of them. Something is known exactly at the
positions of the map; each position lies in the square of the cell that holds it and in that of no
other cell; every cell of the map holds some position; and writing a cell, in the map or not, writes
the positions of the map in its square and no others. -/
theorem cells_tile (hg : g.OfMeasures side density) :
    (∀ x z, ∃ known, g.cellAt? x z = .ok known ∧
      (known ≠ none ↔ (-(side.amount / 2) ≤ x ∧ x < side.amount / 2) ∧
        -(side.amount / 2) ≤ z ∧ z < side.amount / 2)) ∧
    (∀ x z, ∃ cell, g.locate? x z = .ok cell ∧
      ∀ gx gz, g.InSquare gx gz x z ↔ (gx, gz) = cell) ∧
    (∀ gx gz, g.contains gx gz = true → ∃ x z, g.locate? x z = .ok (gx, gz)) ∧
    (∀ gx gz, g.Writes (g.endIn gx gz) gx gz .occupied) ∧
    ∀ gx gz, g.cell? gx gz ≠ some .occupied → g.Writes (g.passThrough gx gz) gx gz .free := by
  have hside := hg.cellSide_pos
  have hcovers : ∀ x z, g.Covers x z ↔ (-(side.amount / 2) ≤ x ∧ x < side.amount / 2) ∧
      -(side.amount / 2) ≤ z ∧ z < side.amount / 2 := by
    intro x z
    rw [covers_iff, hg.side_value]
  refine ⟨fun x z => ⟨_, g.cellAt?_real x z, ?_⟩, fun x z => ⟨_, rfl, fun gx gz => ?_⟩,
    fun gx gz _ => ⟨_, _, congrArg Except.ok (locate_middle hside gx gz)⟩,
    writes_endIn hside, fun _ _ => writes_passThrough hside⟩
  · rw [← hcovers, ← contains_locate_iff hside, cell?_ne_none_iff]
  · rw [← locate_eq_iff hside, eq_comm]
    rfl

/-- A map of 3.25 m at one cell a metre, which has three cells along a side. The cell in its middle
is occupied: that is known of the origin and not of the positions on the border. -/
theorem cells_tile_three :
    let blank : Grid ℝ := ⟨.real (13 / 4), .whole 1, 3, .replicate _ .unknown⟩
    let g := blank.endIn 1 1
    new? (.real (13 / 4)) (.number (.whole 1)) = .ok blank ∧
      blank.cellAt? 0 0 = .ok (some .unknown) ∧ g.cellAt? 0 0 = .ok (some .occupied) ∧
      (∃ known, g.cellAt? (-(13 / 8)) 0 = .ok known ∧ known ≠ none) ∧
      g.cellAt? (13 / 8) 0 = .ok none := by
  intro blank g
  have hsize : (size? (.real (13 / 4)) (.number (.whole 1)) : Except (Fault ℝ) Int) =
      .ok ((3 : Nat) : Int) := by
    show Except.ok (Scalar.round ((13 / 4 : ℝ) * ((1 : Int) : ℝ))) = _
    rw [Scalar.round_real (n := 3)]
    · rfl
    · norm_num [abs_lt]
  have hnew : new? (.real (13 / 4)) (.number (.whole 1)) = .ok blank := by
    have hside : 0 < (Number.real (13 / 4) : Number ℝ).value := show (0 : ℝ) < 13 / 4 by norm_num
    have hdensity : 0 < (Number.whole 1 : Number ℝ).value := Int.cast_pos.mpr one_pos
    rw [new?_of_extent? (extent?_of_pos rfl rfl hside hdensity hsize (by decide) _) hsize]
    rfl
  have hcell : blank.cellSide = 13 / 12 := by
    rw [cellSide_real]
    show (13 / 4 : ℝ) / ((3 : Nat) : ℝ) = 13 / 12
    norm_num
  have hcovers : blank.Covers 0 0 := by
    have hzero : -((13 / 4 : ℝ) / 2) ≤ 0 ∧ (0 : ℝ) < 13 / 4 / 2 := by norm_num
    exact ⟨hzero, hzero⟩
  have hmiddle : blank.InSquare 1 1 0 0 := by
    simp only [InSquare, hcell]
    norm_num [blank]
  have hmeasures := ofMeasures_of_new? hnew
  obtain ⟨-, hlocate, -, hended, -⟩ := cells_tile hmeasures
  obtain ⟨hknown, -⟩ := cells_tile (hmeasures.sameFrame (sameFrame_endIn blank 1 1))
  have hamount : (Value.real (13 / 4 : ℝ)).amount = 13 / 4 := rfl
  refine ⟨hnew, ?_, (hended 1 1).inside 0 0 hcovers hmiddle, ?_, ?_⟩
  · obtain ⟨cell, hcell, hsquare⟩ := hlocate 0 0
    obtain rfl := (hsquare 1 1).mp hmiddle
    unfold cellAt?
    rw [hcell]
    rfl
  · obtain ⟨known, hrun, hsome⟩ := hknown (-(13 / 8)) 0
    refine ⟨known, hrun, hsome.mpr ?_⟩
    rw [hamount]
    norm_num
  · obtain ⟨known, hrun, hsome⟩ := hknown (13 / 8) 0
    rw [hrun]
    by_contra hne
    have hon := hsome.mp fun hnone => hne (congrArg Except.ok hnone)
    rw [hamount] at hon
    norm_num at hon

end ArmRover.Grid
