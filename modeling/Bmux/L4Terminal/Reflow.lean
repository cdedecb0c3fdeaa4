import Bmux.L4Terminal.Row

/-!
# Projecting a logical line (`packages/terminal-grid/src/reflow.rs`)

A logical line is a list of glyphs without spacers. At a width it is cut into rows
(`visitLogicalRows`), a wide glyph that does not fit the rest of a row going to the
next one, and each cut is laid out as a physical row (`projectRow`).

* `projectedLogicalLineRowCount_eq`: the count made without laying out the rows is
  the number of rows.
* `wellFormed_project`: the rows are well formed for the width.
* `flatten_visitLogicalRows`: the cuts joined are the line.
* `rowLogicalCells_projectRow`: a row read back is its cut, padded to the width.
-/
namespace Bmux.Terminal
open List Cell PhysicalRow

def Cell.extent (c : Cell) : Nat := max c.width 1

variable (cells : List Cell)

def totalExtent : Nat := (cells.map extent).sum

def projectionCells (retain : Bool) : List Cell := if retain then cells else trimTrailingBlankCells cells

/-- The rows that the loop of the count has finished, and the column it is at with
whether a cell was put since the last row ended. -/
structure RowCount where
  rows : Nat := 0
  col : Nat := 0
  currentHasCells : Bool := false

variable (width : Nat)

/-- One cell of the loop in packages/terminal-grid/src/reflow.rs:50-65 -/
def RowCount.step (n : RowCount) (c : Cell) : RowCount :=
  let n := if n.col > 0 ∧ n.col + c.extent > width then { n with rows := n.rows + 1, col := 0 } else n
  let col := min (n.col + c.extent) width
  if col ≥ width then { rows := n.rows + 1, col := 0, currentHasCells := false }
  else { n with col := col, currentHasCells := true }

def projectedLogicalLineRowCountRetained (retain : Bool) : Nat :=
  let width := max width 1
  let cells := projectionCells cells retain
  if cells.isEmpty then 1
  else
    let n := cells.foldl (RowCount.step width) {}
    max (if n.currentHasCells then n.rows + 1 else n.rows) 1

def projectedLogicalLineRowCount : Nat :=
  projectedLogicalLineRowCountRetained cells width false

/-- What `visit_logical_rows` gives its visitor: the cells of a row, the logical
column of the first one, and whether the line goes on. -/
structure LogicalRow where
  cells : List Cell
  column : Nat
  wrapped : Bool

/-- The loop of `visit_logical_rows`. The cells since `start` are `row`. -/
def visitLoop (width : Nat) (row : List Cell) (col logical rowColumn : Nat) : List Cell → List LogicalRow
  | [] => if row.isEmpty then [] else [⟨row, rowColumn, false⟩]
  | c :: cells =>
    if col > 0 ∧ col + c.extent > width then
      ⟨row, rowColumn, true⟩ ::
        (if min (0 + c.extent) width = width then
          ⟨[c], logical, !cells.isEmpty⟩ :: visitLoop width [] 0 (logical + c.extent) (logical + c.extent) cells
        else visitLoop width [c] (min (0 + c.extent) width) (logical + c.extent) logical cells)
    else if min (col + c.extent) width = width then
      ⟨row ++ [c], rowColumn, !cells.isEmpty⟩ :: visitLoop width [] 0 (logical + c.extent) (logical + c.extent) cells
    else visitLoop width (row ++ [c]) (min (col + c.extent) width) (logical + c.extent) rowColumn cells

def visitLogicalRows : List LogicalRow :=
  if cells.isEmpty then [⟨[], 0, false⟩] else visitLoop (max width 1) [] 0 0 0 cells

def layOut (width : Nat) (row : PhysicalRow) (col : Nat) : List Cell → PhysicalRow
  | [] => row
  | c :: cells => layOut width (row.setProjectedCell col c width) (min (col + c.extent) width) cells

/-- A cut laid out, packages/terminal-grid/src/reflow.rs:266-273 -/
def projectRow (r : LogicalRow) : PhysicalRow := { layOut width {} 0 r.cells with wrapped := r.wrapped }

/-- mirrors packages/terminal-grid/src/reflow.rs:173-179, 246-279 for the rows from `start` to `stop` -/
def projectLogicalLineWindow (width start stop : Nat) : List PhysicalRow :=
  let width := max width 1
  (((visitLogicalRows (projectionCells cells false) width).drop start).take (stop - start)).map (projectRow width)

def projectLogicalLine : List PhysicalRow :=
  let width := max width 1
  (visitLogicalRows (projectionCells cells false) width).map (projectRow width)

def rowLogicalCells (row : PhysicalRow) (width : Nat) : List Cell :=
  (row.visualCells width).filter fun c => !c.wideContinuation

variable {width col : Nat} {cells row : List Cell} {c : Cell}

/-! ## Cutting a line -/

/-- How a row so far, the column it is at and the cells to come are cut into rows. -/
inductive Cuts (width : Nat) : List Cell → Nat → List Cell → List LogicalRow → Prop where
  | done {col : Nat} : Cuts width [] col [] []
  | last {row : List Cell} {col x : Nat} : row ≠ [] → Cuts width row col [] [⟨row, x, false⟩]
  /-- the next glyph does not fit the rest of the row -/
  | flush {row cells : List Cell} {col x : Nat} {c : Cell} {rows : List LogicalRow} : col > 0 → col + c.extent > width →
      Cuts width [] 0 (c :: cells) rows → Cuts width row col (c :: cells) (⟨row, x, true⟩ :: rows)
  | full {row cells : List Cell} {col x : Nat} {c : Cell} {rows : List LogicalRow} :
      (col > 0 → col + c.extent ≤ width) → width ≤ col + c.extent → Cuts width [] 0 cells rows →
        Cuts width row col (c :: cells) (⟨row ++ [c], x, !cells.isEmpty⟩ :: rows)
  | more {row cells : List Cell} {col : Nat} {c : Cell} {rows : List LogicalRow} : col + c.extent < width →
      Cuts width (row ++ [c]) (col + c.extent) cells rows → Cuts width row col (c :: cells) rows

theorem cuts_visitLoop (width : Nat) (row : List Cell) (col logical rowColumn : Nat) (cells : List Cell) :
    Cuts width row col cells (visitLoop width row col logical rowColumn cells) := by
  induction cells generalizing row col logical rowColumn with
  | nil =>
    cases row with
    | nil => exact .done
    | cons d row => exact .last (cons_ne_nil d row)
  | cons c cells ih =>
    have hput (row : List Cell) (col rowColumn : Nat) (hfits : col > 0 → col + c.extent ≤ width) :
        Cuts width row col (c :: cells) (if min (col + c.extent) width = width then
            ⟨row ++ [c], rowColumn, !cells.isEmpty⟩ :: visitLoop width [] 0 (logical + c.extent)
              (logical + c.extent) cells
          else visitLoop width (row ++ [c]) (min (col + c.extent) width) (logical + c.extent) rowColumn cells) := by
      split
      · exact .full hfits (by omega) (ih _ _ _ _)
      · rw [min_eq_left (by omega)]
        exact .more (by omega) (ih _ _ _ _)
    rw [visitLoop]
    split
    · next hover => exact .flush hover.1 hover.2 (hput [] 0 logical nofun)
    · exact hput row col rowColumn (by omega)

theorem cuts_visitLogicalRows (hwidth : 0 < width) (hne : cells ≠ []) :
    Cuts width [] 0 cells (visitLogicalRows cells width) := by
  rw [visitLogicalRows, max_eq_left hwidth, if_neg (by simpa using hne)]
  exact cuts_visitLoop _ _ _ _ _ _

section
variable {rows : List LogicalRow} (h : Cuts width row col cells rows)
include h

/-- The loop of the count finds as many rows as there are cuts. -/
theorem Cuts.count (n : RowCount) (hcol : n.col = col) (hrow : n.currentHasCells = !row.isEmpty) :
    let n' := cells.foldl (RowCount.step width) n
    (if n'.currentHasCells then n'.rows + 1 else n'.rows) = n.rows + rows.length := by
  induction h generalizing n with
  | done => simp [hrow]
  | last hne => simp [hrow, hne]
  | @flush row cells col x c rows hpos hover _ ih =>
    have hstep : n.step width c = RowCount.step width { rows := n.rows + 1 } c := by
      simp [RowCount.step, hcol, hpos, hover]
    have hcount := ih { rows := n.rows + 1 } rfl rfl
    rw [foldl_cons] at hcount ⊢
    rw [hstep, length_cons]
    dsimp only at hcount ⊢
    omega
  | @full row cells col x c rows hfits hfull _ ih =>
    have hover : ¬ (n.col > 0 ∧ n.col + c.extent > width) := by omega
    have hstep : n.step width c = { rows := n.rows + 1 } := by
      simp only [RowCount.step, if_neg hover]
      exact if_pos (by omega)
    have hcount := ih { rows := n.rows + 1 } rfl rfl
    rw [foldl_cons, hstep, length_cons]
    dsimp only at hcount ⊢
    omega
  | @more row cells col c rows hlt _ ih =>
    have hover : ¬ (n.col > 0 ∧ n.col + c.extent > width) := by omega
    have hstep : n.step width c = { n with col := col + c.extent, currentHasCells := true } := by
      simp only [RowCount.step, if_neg hover]
      rw [if_neg (by omega), hcol, min_eq_left hlt.le]
    rw [foldl_cons, hstep]
    exact ih _ rfl (by simp)

theorem Cuts.flatten : rows.flatMap LogicalRow.cells = row ++ cells := by
  induction h with
  | done => rfl
  | last => simp
  | flush _ _ _ ih => simp [ih]
  | full _ _ _ ih => simp [ih]
  | more _ _ ih => simp [ih]

/-- No row is wider than the width if no glyph is. -/
theorem Cuts.totalExtent_le (hcells : ∀ c ∈ cells, c.extent ≤ width) (hcol : totalExtent row = col)
    (hle : col ≤ width) :
    ∀ r ∈ rows, totalExtent r.cells ≤ width := by
  have hconcat (row : List Cell) (c : Cell) : totalExtent (row ++ [c]) = totalExtent row + c.extent := by
    simp [totalExtent]
  induction h with
  | done => nofun
  | last => exact forall_mem_singleton.mpr (hcol ▸ hle)
  | flush _ _ _ ih => exact forall_mem_cons.mpr ⟨hcol ▸ hle, ih hcells rfl zero_le⟩
  | @full row cells col x c rows hfits _ _ ih =>
    obtain ⟨hc, hrest⟩ := forall_mem_cons.mp hcells
    refine forall_mem_cons.mpr ⟨?_, ih hrest rfl zero_le⟩
    rw [hconcat]
    omega
  | more hlt _ ih => exact ih (forall_mem_cons.mp hcells).2 (by rw [hconcat, hcol]) hlt.le

theorem Cuts.length_le (hcol : col > 0 → row ≠ []) : rows.length ≤ cells.length + if row = [] then 0 else 1 := by
  induction h with
  | done => exact zero_le
  | last hne => rw [if_neg hne]; rfl
  | flush hpos _ _ ih =>
    have hle := ih nofun
    rw [if_neg (hcol hpos)]
    exact Nat.succ_le_succ hle
  | full _ _ _ ih =>
    have hle := ih nofun
    rw [if_pos rfl] at hle
    simp only [length_cons]
    omega
  | more _ _ ih =>
    have hle := ih (by simp)
    rw [if_neg (by simp)] at hle
    simp only [length_cons]
    omega

end

theorem projectedLogicalLineRowCountRetained_eq (cells : List Cell) (width : Nat) (retain : Bool) :
    projectedLogicalLineRowCountRetained cells width retain =
      (visitLogicalRows (projectionCells cells retain) (max width 1)).length := by
  rw [projectedLogicalLineRowCountRetained]
  dsimp only
  cases hcells : projectionCells cells retain with
  | nil => rfl
  | cons c rest =>
    have hcuts := cuts_visitLogicalRows (show 0 < max width 1 by omega) (cons_ne_nil c rest)
    have hcount := hcuts.count {} rfl rfl
    have hpos : 0 < (visitLogicalRows (c :: rest) (max width 1)).length := by
      refine length_pos_iff.mpr fun hnil => ?_
      have hflat := hcuts.flatten
      rw [hnil] at hflat
      cases hflat
    dsimp only at hcount
    rw [isEmpty_cons, if_neg Bool.false_ne_true]
    omega

theorem projectedLogicalLineRowCount_eq (cells : List Cell) (width : Nat) :
    projectedLogicalLineRowCount cells width = (projectLogicalLine cells width).length := by
  rw [projectLogicalLine, length_map]
  exact projectedLogicalLineRowCountRetained_eq cells width false

/-! ## Laying out -/

def endCol (width col : Nat) (cells : List Cell) : Nat := cells.foldl (fun col c => min (col + c.extent) width) col

def Fits (width col : Nat) : List Cell → Prop
  | [] => True
  | c :: cells => col < width ∧ Fits width (min (col + c.extent) width) cells

theorem fits_concat :
    Fits width col (cells ++ [c]) ↔ Fits width col cells ∧ endCol width col cells < width := by
  induction cells generalizing col with
  | nil => simp [Fits, endCol]
  | cons d cells ih =>
    rw [cons_append, Fits, Fits, ih, and_assoc]
    rfl

theorem endCol_concat (width col : Nat) (cells : List Cell) (c : Cell) :
    endCol width col (cells ++ [c]) = min (endCol width col cells + c.extent) width := by
  rw [endCol, foldl_append]
  rfl

theorem extent_pos (c : Cell) : 0 < c.extent := lt_of_lt_of_le Nat.one_pos (le_max_right _ _)

theorem Cuts.fits {rows : List LogicalRow} (h : Cuts width row col cells rows) (hwidth : 0 < width)
    (hrow : Fits width 0 row) (hcol : endCol width 0 row = col) (hlt : col < width) :
      ∀ r ∈ rows, Fits width 0 r.cells := by
  induction h with
  | done => nofun
  | last => exact forall_mem_singleton.mpr hrow
  | flush _ _ _ ih => exact forall_mem_cons.mpr ⟨hrow, ih trivial rfl hwidth⟩
  | full _ _ _ ih => exact forall_mem_cons.mpr ⟨fits_concat.mpr ⟨hrow, hcol ▸ hlt⟩, ih trivial rfl hwidth⟩
  | more hlt' _ ih =>
    exact ih (fits_concat.mpr ⟨hrow, hcol ▸ hlt⟩) (by rw [endCol_concat, hcol, min_eq_left hlt'.le]) hlt'

theorem fits_visitLogicalRows (hwidth : 0 < width) (cells : List Cell) :
    ∀ r ∈ visitLogicalRows cells width, Fits width 0 r.cells := by
  cases cells with
  | nil => exact forall_mem_singleton.mpr trivial
  | cons c cells => exact (cuts_visitLogicalRows hwidth (cons_ne_nil c cells)).fits hwidth trivial rfl hwidth

/-- A glyph of a logical line. -/
structure Cell.Glyph (c : Cell) : Prop where
  valid : c.Valid
  leads : c.wideContinuation = false

theorem Cell.Glyph.extent_eq (h : c.Glyph) : c.extent = c.width := by
  have hwidth := h.valid.width h.leads
  unfold extent
  omega

theorem flatten_visitLogicalRows (cells : List Cell) (width : Nat) :
    (visitLogicalRows cells width).flatMap LogicalRow.cells = cells := by
  cases cells with
  | nil => rfl
  | cons c cells => exact (cuts_visitLoop _ _ _ _ _ _).flatten

theorem mem_visitLogicalRows : ∀ r ∈ visitLogicalRows cells width, ∀ c ∈ r.cells, c ∈ cells := by
  intro r hr c hc
  rw [← flatten_visitLogicalRows cells width]
  exact mem_flatMap_of_mem hr hc

namespace PhysicalRow
variable {width : Nat} {row : PhysicalRow}

/-- What a projected row shows once a glyph is put at a column that has room for it. -/
theorem setProjectedCell_shows {col : Nat} {c : Cell} (hrow : ∀ d ∈ row.cells, d.Valid) (hc : c.Glyph)
    (hfit : col + c.width ≤ width) :
    Trimmed (row.setProjectedCell col c width).cells ∧ (∀ d ∈ (row.setProjectedCell col c width).cells, d.Valid) ∧
      ∀ i, cellAt (row.setProjectedCell col c width).cells i = putView (cellAt row.cells) col c i := by
  unfold PhysicalRow.setProjectedCell putView
  rw [if_neg (by omega)]
  dsimp only
  by_cases htwo : c.width = 2 ∧ col + 1 < width
  · rw [if_pos htwo, if_pos (by omega)]
    have hvalid := valid_set (valid_set (valid_padBlank hrow (col + 2)) col hc.valid) (col + 1) (valid_spacer c.style)
    refine ⟨trimmed_trim _, fun d hd => hvalid d (mem_of_mem_trim hd), fun i => ?_⟩
    rw [cellAt_trim hvalid, cellAt_set, cellAt_set, cellAt_padBlank]
    · simp only [htwo.1, true_and]
    · rw [length_padBlank]
      omega
    · simp [length_padBlank]
  · rw [if_neg htwo, if_neg (by omega)]
    have hvalid := valid_set (valid_padBlank hrow (col + 1)) col hc.valid
    refine ⟨trimmed_trim _, fun d hd => hvalid d (mem_of_mem_trim hd), fun i => ?_⟩
    rw [cellAt_trim hvalid, cellAt_set, cellAt_padBlank, if_neg (c := c.width = 2 ∧ _) (by omega)]
    rw [length_padBlank]
    omega

/-- A glyph put behind everything that the row holds. -/
theorem WellFormed.setProjectedCell (h : row.WellFormed width) {col : Nat} {c : Cell} (hc : c.Glyph)
    (hcol : col < width)
    (hblank : ∀ i, col ≤ i → cellAt row.cells i = blank StyleId.DEFAULT) :
    (row.setProjectedCell col c width).WellFormed width ∧
      ∀ i, min (col + c.extent) width ≤ i → cellAt (row.setProjectedCell col c width).cells i =
        blank StyleId.DEFAULT := by
  have hwidth := hc.valid.width hc.leads
  rw [hc.extent_eq]
  by_cases hfit : col + c.width ≤ width
  · obtain ⟨htrim, hvalid, hview⟩ := setProjectedCell_shows h.valid hc hfit
    refine ⟨h.put hc.valid hc.leads hfit (fun i hi _ => ?_) htrim hvalid hview, fun i hi => ?_⟩
    · rw [hblank i hi]
      exact ⟨nofun, rfl⟩
    · rw [hview, putView, if_neg (by omega), if_neg (by omega), hblank i (by omega)]
  · unfold PhysicalRow.setProjectedCell
    rw [if_pos (by omega)]
    exact ⟨h, fun i hi => hblank i (by omega)⟩

theorem WellFormed.layOut (h : row.WellFormed width) {col : Nat} {cells : List Cell} (hcells : ∀ c ∈ cells, c.Glyph)
    (hfits : Fits width col cells) (hblank : ∀ i, col ≤ i → cellAt row.cells i = blank StyleId.DEFAULT) :
    (layOut width row col cells).WellFormed width := by
  induction cells generalizing row col with
  | nil => exact h
  | cons c cells ih =>
    obtain ⟨hrow, hblank'⟩ := h.setProjectedCell (hcells c mem_cons_self) hfits.1 hblank
    exact ih hrow (fun d hd => hcells d (mem_cons_of_mem _ hd)) hfits.2 hblank'

end PhysicalRow

theorem wellFormed_projectRow {r : LogicalRow} (hcells : ∀ c ∈ r.cells, c.Glyph) (hfits : Fits width 0 r.cells) :
    (projectRow width r).WellFormed width :=
  (WellFormed.layOut wellFormed_new hcells hfits fun _ _ => rfl).setWrapped _

theorem wellFormed_project (h : ∀ c ∈ cells, c.Glyph) (hwidth : 0 < width) :
    ∀ row ∈ projectLogicalLine cells width, row.WellFormed width := by
  intro row hrow
  unfold projectLogicalLine at hrow
  rw [max_eq_left hwidth] at hrow
  obtain ⟨r, hr, rfl⟩ := mem_map.mp hrow
  refine wellFormed_projectRow (fun c hc => h c ?_) (fits_visitLogicalRows hwidth _ r hr)
  exact mem_of_mem_trim (mem_visitLogicalRows r hr c hc)

/-! ## Reading a projection back -/

def Cell.tile (c : Cell) : List Cell := if c.width = 2 then [c, spacer c.style] else [c]

theorem Cell.Glyph.length_tile (h : c.Glyph) : c.tile.length = c.extent := by
  have hwidth := h.valid.width h.leads
  rw [h.extent_eq, tile]
  split
  · next htwo => rw [htwo]; rfl
  · next hone => rw [hwidth.resolve_right hone]; rfl

theorem Cell.Glyph.filter_tile (h : c.Glyph) : (c.tile.filter fun c => !c.wideContinuation) = [c] := by
  unfold tile
  split
  · rw [filter_cons_of_pos (by rw [h.leads]; rfl)]
    rfl
  · rw [filter_cons_of_pos (by rw [h.leads]; rfl)]
    rfl

theorem length_tiles (h : ∀ c ∈ cells, c.Glyph) : (cells.flatMap tile).length = totalExtent cells := by
  rw [length_flatMap]
  congr 1
  exact map_congr_left fun c hc => (h c hc).length_tile

theorem filter_tiles (h : ∀ c ∈ cells, c.Glyph) :
    ((cells.flatMap tile).filter fun c => !c.wideContinuation) = cells := by
  induction cells with
  | nil => rfl
  | cons c cells ih =>
    rw [flatMap_cons, filter_append, (h c mem_cons_self).filter_tile,
      ih fun d hd => h d (mem_cons_of_mem _ hd)]
    rfl

theorem cellAt_setProjectedCell {row : PhysicalRow} {tiles : List Cell} (hrow : ∀ c ∈ row.cells, c.Valid)
    (hview : ∀ i, cellAt row.cells i = cellAt tiles i) (hc : c.Glyph)
    (hfit : tiles.length + c.extent ≤ width) (i : Nat) :
    cellAt (row.setProjectedCell tiles.length c width).cells i = cellAt (tiles ++ c.tile) i := by
  rw [hc.extent_eq] at hfit
  rw [(setProjectedCell_shows hrow hc hfit).2.2, putView, hview, cellAt_append]
  by_cases hlt : i < tiles.length
  · rw [if_neg (by omega), if_neg (by omega), if_pos hlt]
  · obtain ⟨k, rfl⟩ := Nat.exists_eq_add_of_le (not_lt.mp hlt)
    rw [tile]
    by_cases htwo : c.width = 2
    all_goals rcases k with _ | _ | k <;> simp [htwo, cellAt]

theorem cellAt_layOut {row : PhysicalRow} (h : row.WellFormed width) {tiles : List Cell}
    (hview : ∀ i, cellAt row.cells i = cellAt tiles i) (hcells : ∀ c ∈ cells, c.Glyph)
    (hfit : tiles.length + totalExtent cells ≤ width) (i : Nat) :
    cellAt (layOut width row tiles.length cells).cells i = cellAt (tiles ++ cells.flatMap tile) i := by
  induction cells generalizing row tiles with
  | nil =>
    rw [flatMap_nil, append_nil]
    exact hview i
  | cons c cells ih =>
    have hc := hcells c mem_cons_self
    have hsum : totalExtent (c :: cells) = c.extent + totalExtent cells := sum_cons
    have hpos := extent_pos c
    have hblank (i : Nat) (hi : tiles.length ≤ i) : cellAt row.cells i = blank StyleId.DEFAULT := by
      rw [hview, cellAt_of_length_le hi]
    have hrow := (h.setProjectedCell hc (by omega) hblank).1
    have hlen : (tiles ++ c.tile).length = tiles.length + c.extent := by
      rw [length_append, hc.length_tile]
    have hrest := ih hrow (cellAt_setProjectedCell h.valid hview hc (by omega))
      (fun d hd => hcells d (mem_cons_of_mem _ hd)) (by omega)
    rw [layOut, flatMap_cons, ← append_assoc, ← hrest, hlen, min_eq_left (by omega)]

theorem ext_of_length {cells' : List Cell} (hlen : cells.length = cells'.length)
    (heq : ∀ i, cellAt cells i = cellAt cells' i) : cells = cells' := by
  refine ext_getElem hlen fun i h₁ h₂ => ?_
  rw [← cellAt_of_lt h₁, ← cellAt_of_lt h₂]
  exact heq i

theorem fits_of_totalExtent (h : col + totalExtent cells ≤ width) : Fits width col cells := by
  induction cells generalizing col with
  | nil => trivial
  | cons c cells ih =>
    have hsum : totalExtent (c :: cells) = c.extent + totalExtent cells := sum_cons
    have hpos := extent_pos c
    exact ⟨by omega, ih (by omega)⟩

theorem rowLogicalCells_projectRow {r : LogicalRow} (hcells : ∀ c ∈ r.cells, c.Glyph)
    (hfit : totalExtent r.cells ≤ width) : rowLogicalCells (projectRow width r) width =
      r.cells ++ List.replicate (width - totalExtent r.cells) (blank StyleId.DEFAULT) := by
  have hfits : Fits width 0 r.cells := fits_of_totalExtent (by omega)
  have hrow := wellFormed_projectRow hcells hfits
  have hview := @cellAt_layOut width _ {} wellFormed_new [] (fun _ => rfl) hcells (by simpa using hfit)
  have hlen := length_tiles hcells
  have hvisual : (projectRow width r).visualCells width = padBlank (r.cells.flatMap tile) width := by
    rw [visualCells, take_of_length_le hrow.size]
    refine ext_of_length ?_ fun i => ?_
    · have hsize := hrow.size
      rw [length_padBlank, length_padBlank]
      omega
    · rw [cellAt_padBlank, cellAt_padBlank]
      exact hview i
  rw [rowLogicalCells, hvisual, padBlank, filter_append, filter_tiles hcells, hlen]
  congr 1
  exact filter_eq_self.mpr fun c hc => by rw [eq_of_mem_replicate hc]; rfl

theorem totalExtent_visitLogicalRows (hwidth : 0 < width) (hcells : ∀ c ∈ cells, c.extent ≤ width) :
    ∀ r ∈ visitLogicalRows cells width, totalExtent r.cells ≤ width := by
  cases cells with
  | nil => exact forall_mem_singleton.mpr zero_le
  | cons c cells => exact (cuts_visitLogicalRows hwidth (cons_ne_nil c cells)).totalExtent_le hcells rfl zero_le

inductive Chain : List LogicalRow → Prop where
  | last {r : LogicalRow} : r.wrapped = false → Chain [r]
  | wrap {r : LogicalRow} {rows : List LogicalRow} : r.wrapped = true → Chain rows → Chain (r :: rows)

theorem Cuts.chain {rows : List LogicalRow} (h : Cuts width row col cells rows) (hne : row ≠ [] ∨ cells ≠ []) :
    Chain rows := by
  induction h with
  | done => exact (hne.elim (· rfl) (· rfl)).elim
  | last => exact .last rfl
  | flush _ _ _ ih => exact .wrap rfl (ih (.inr (cons_ne_nil _ _)))
  | @full row cells col x c rows _ _ hrest ih =>
    -- a row that ends with its last column goes on if there are cells left
    cases cells with
    | nil => cases hrest with
      | done => exact .last rfl
      | last hnil => exact absurd rfl hnil
    | cons d cells => exact .wrap rfl (ih (.inr (cons_ne_nil _ _)))
  | more _ _ ih => exact ih (.inl (by simp))

theorem chain_visitLogicalRows (cells : List Cell) (width : Nat) : Chain (visitLogicalRows cells width) := by
  cases cells with
  | nil => exact .last rfl
  | cons c cells => exact (cuts_visitLoop _ _ _ _ _ _).chain (.inr (cons_ne_nil _ _))

end Bmux.Terminal
