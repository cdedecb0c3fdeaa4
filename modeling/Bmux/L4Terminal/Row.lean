import Bmux.L4Terminal.Style

/-!
# Cells and rows (`packages/terminal-grid/src/model.rs`)

A row stores its cells without trailing default blanks. A wide glyph takes two
cells: a leader of width 2 and a spacer behind it.

`cellAt` reads the cells of a row as the function from columns to cells that they
stand for, blank from some column on. In this view an edit of the row is a
pointwise update, whatever it appended or trimmed on the way (`cellAt_setCell`,
`cellAt_clearRange`). A row is well formed for a width (`WellFormed`) if it is
trimmed, blank from that width on, and its wide halves are paired.
-/
namespace Bmux.Terminal
open List StyleId

/-- What the Unicode crates say about characters. -/
structure Unicode where
  /-- `UnicodeWidthChar::width` -/
  charWidth : Char → Option Nat
  /-- `UnicodeWidthStr::width` -/
  strWidth : String → Nat
  /-- `UnicodeSegmentation::graphemes(true)` -/
  graphemes : String → List String

structure Cell where
  text : String
  style : StyleId
  width : Nat
  wideContinuation : Bool
  deriving DecidableEq, Repr

namespace Cell

def new (text : String) (style : StyleId) (width : Nat) : Cell := ⟨text, style, max width 1, false⟩

variable (c : Cell) (style : StyleId)

def spacer : Cell := ⟨"", style, 0, true⟩

def blank : Cell := new " " style 1

def isDiscardableBlank : Bool :=
  decide (c.text = " ") && decide (c.style = DEFAULT) && !c.wideContinuation

def IsLeader : Prop := c.width = 2 ∧ c.wideContinuation = false

instance : Decidable c.IsLeader := inferInstanceAs (Decidable (_ ∧ _))

/-- What the grid puts into a cell: a spacer is empty, any other cell is one or two
columns wide, and a wide one is not a lone space. -/
structure Valid : Prop where
  spacer : c.wideContinuation = true → c.text = "" ∧ c.width = 0
  width : c.wideContinuation = false → c.width = 1 ∨ c.width = 2
  glyph : c.width = 2 → c.text ≠ " "

theorem valid_blank : (blank style).Valid := ⟨nofun, fun _ => .inl rfl, nofun⟩

theorem valid_spacer : (spacer style).Valid := ⟨fun _ => ⟨rfl, rfl⟩, nofun, nofun⟩

theorem isDiscardableBlank_iff {c : Cell} :
    c.isDiscardableBlank = true ↔ c.text = " " ∧ c.style = DEFAULT ∧ c.wideContinuation = false := by
  simp [isDiscardableBlank, and_assoc]

theorem Valid.eq_blank {c : Cell} (h : c.Valid) (hd : c.isDiscardableBlank = true) : c = blank DEFAULT := by
  obtain ⟨htext, hstyle, hcont⟩ := isDiscardableBlank_iff.mp hd
  have hwidth : c.width = 1 := (h.width hcont).resolve_right fun hw => h.glyph hw htext
  obtain ⟨text, style, width, cont⟩ := c
  cases htext
  cases hstyle
  cases hcont
  cases hwidth
  rfl

end Cell
open Cell

structure PhysicalRow where
  cells : List Cell := []
  wrapped : Bool := false
  deriving DecidableEq, Repr

variable (cells : List Cell)

/-- mirrors packages/terminal-grid/src/model.rs:3510-3515, and 614-618 for a row -/
def trimTrailingBlankCells : List Cell := cells.rdropWhile isDiscardableBlank

/-- Default blanks appended up to a length (`resize_with` on a shorter vector). -/
def padBlank (len : Nat) : List Cell :=
  cells ++ List.replicate (len - cells.length) (blank DEFAULT)

def fillRange (start stop : Nat) (cell : Cell) : List Cell :=
  cells.mapIdx fun i c => if start ≤ i ∧ i < stop then cell else c

namespace PhysicalRow

def eraseFilled (width : Nat) (style : StyleId) : PhysicalRow :=
  if style = DEFAULT then {} else { cells := List.replicate width (blank style) }

section
variable (row : PhysicalRow)

variable (col : Nat)

def setCell (cell : Cell) : PhysicalRow :=
  { row with cells := trimTrailingBlankCells ((padBlank row.cells (col + 1)).set col cell) }

def continuesAt : Bool := row.cells[col]?.any wideContinuation

def clearStart (start : Nat) : Nat := if row.continuesAt start then start - 1 else start

def clearStop (stop : Nat) : Nat := if row.continuesAt stop then stop + 1 else stop

/-- mirrors packages/terminal-grid/src/model.rs:560-599 -/
def clearRange (start stop : Nat) (style : StyleId) : PhysicalRow :=
  if start ≥ stop then row
  else
    let start := row.clearStart start
    let stop := row.clearStop stop
    if style = DEFAULT then
      if start ≥ row.cells.length then row
      else
        let cells := fillRange row.cells start (min stop row.cells.length) (blank DEFAULT)
        { row with cells := trimTrailingBlankCells cells }
    else
      let cells := fillRange (padBlank row.cells stop) start stop (blank style)
      { row with cells := trimTrailingBlankCells cells }

/-- The row part of `print_grapheme`, packages/terminal-grid/src/model.rs:1391-1398 -/
def putGlyph (text : String) (charWidth : Nat) (style : StyleId) (width : Nat) : PhysicalRow :=
  let row := row.clearRange col (col + charWidth) style
  let row := row.setCell col (new text style charWidth)
  if charWidth = 2 ∧ col + 1 < width then row.setCell (col + 1) (spacer style) else row

/-- A glyph with a changed text (`cell.text = text` through `cell_mut`, packages/terminal-grid/src/model.rs:542-545) -/
def setText (text : String) : PhysicalRow :=
  { row with cells := row.cells.modify col fun c => { c with text := text } }

/-- A whole glyph blanked out, packages/terminal-grid/src/model.rs:3071-3075 -/
def blankGlyph (col oldWidth : Nat) (style : StyleId) : PhysicalRow :=
  let row := row.setCell col (blank style)
  if oldWidth = 2 then row.setCell (col + 1) (blank style) else row

def truncate (len : Nat) : PhysicalRow :=
  let cells := row.cells.take len
  let cells := if cells.getLast?.any (fun c => decide c.IsLeader) then
      cells.set (cells.length - 1) (blank DEFAULT)
    else cells
  { row with cells := trimTrailingBlankCells cells }

def visualCells (width : Nat) : List Cell := padBlank (row.cells.take width) width

/-- mirrors packages/terminal-grid/src/model.rs:471-512, when its allocations succeed -/
def setProjectedCell (cell : Cell) (width : Nat) : PhysicalRow :=
  if cell.width = 2 ∧ col + 1 ≥ width then row
  else
    let stop := col + if cell.width = 2 ∧ col + 1 < width then 2 else 1
    let cells := (padBlank row.cells stop).set col cell
    let cells := if stop > col + 1 then cells.set (col + 1) (spacer cell.style) else cells
    { row with cells := trimTrailingBlankCells cells }

end

end PhysicalRow

/-- The loop of `normalized_visual_cells` from a column on, with the cell before it. -/
def normalizeLoop (previous : Option Cell) : List Cell → List Cell
  | [] => []
  | c :: cells =>
    if c.wideContinuation then
      let validPrevious := previous.any fun p => !p.wideContinuation && decide (p.width = 2)
      let c := if validPrevious then c else blank DEFAULT
      c :: normalizeLoop (some c) cells
    else if c.width = 2 then
      match cells with
      | [] => [blank DEFAULT]
      | d :: rest =>
        if d.wideContinuation then c :: spacer c.style :: normalizeLoop (some (spacer c.style)) rest
        else blank DEFAULT :: normalizeLoop (some (blank DEFAULT)) (d :: rest)
    else c :: normalizeLoop (some c) cells

variable (cells : List Cell)

def normalizedVisualCells (width : Nat) : List Cell :=
  normalizeLoop none (padBlank (cells.take width) width)

/-- The row that `replace_active_row` builds, packages/terminal-grid/src/model.rs:1800-1809 -/
def PhysicalRow.rebuild (width : Nat) (wrapped : Bool) : PhysicalRow :=
  ((normalizedVisualCells cells width).zipIdx).foldl (fun row (cell, col) =>
    row.setCell col cell) { wrapped := wrapped }

/-! ## Cells as a function of the column -/

def cellAt (col : Nat) : Cell := cells.getD col (blank DEFAULT)

/-- The last cell is worth storing. -/
def Trimmed : Prop := ∀ c, cells.getLast? = some c → c.isDiscardableBlank = false

variable {cells : List Cell} {col : Nat}

theorem cellAt_of_lt (h : col < cells.length) : cellAt cells col = cells[col] := by
  rw [cellAt, getD_eq_getElem _ _ h]

theorem cellAt_of_length_le (h : cells.length ≤ col) :
    cellAt cells col = blank DEFAULT := by
  rw [cellAt, getD_eq_default _ _ h]

theorem cellAt_append {more : List Cell} (col : Nat) :
    cellAt (cells ++ more) col = if col < cells.length then cellAt cells col else cellAt more (col - cells.length) := by
  by_cases h : col < cells.length
  · rw [if_pos h, cellAt, cellAt, getD_append _ _ _ _ h]
  · rw [if_neg h, cellAt, cellAt, getD_append_right _ _ _ _ (not_lt.mp h)]

theorem cellAt_replicate (n col : Nat) (c : Cell) :
    cellAt (List.replicate n c) col = if col < n then c else blank DEFAULT := by
  rw [cellAt, getD_eq_getElem?_getD, getElem?_replicate]
  split <;> rfl

theorem cellAt_padBlank (cells : List Cell) (len col : Nat) : cellAt (padBlank cells len) col = cellAt cells col := by
  rw [padBlank, cellAt_append, cellAt_replicate, ite_self]
  split
  · rfl
  · next h => rw [cellAt_of_length_le (not_lt.mp h)]

theorem length_padBlank (cells : List Cell) (len : Nat) : (padBlank cells len).length = max cells.length len := by
  rw [padBlank, length_append, length_replicate]
  omega

theorem cellAt_set (h : col < cells.length) (c : Cell) (i : Nat) :
    cellAt (cells.set col c) i = if i = col then c else cellAt cells i := by
  rw [cellAt, cellAt, getD_eq_getElem?_getD]
  by_cases hi : col = i
  · subst hi
    simp [h]
  · simp [hi, Ne.symm hi]

variable {c : Cell}

theorem cellAt_fillRange (cells : List Cell) (start stop : Nat) (c : Cell) (i : Nat) :
    cellAt (fillRange cells start stop c) i =
      if start ≤ i ∧ i < stop ∧ i < cells.length then c else cellAt cells i := by
  rw [cellAt, cellAt, fillRange, getD_eq_getElem?_getD, getD_eq_getElem?_getD, getElem?_mapIdx]
  by_cases hi : i < cells.length
  · simp [hi]
  · simp [hi]

section
variable (h : ∀ c ∈ cells, c.Valid)
include h

theorem valid_cellAt (col : Nat) : (cellAt cells col).Valid := by
  by_cases hcol : col < cells.length
  · rw [cellAt_of_lt hcol]
    exact h _ (getElem_mem hcol)
  · rw [cellAt_of_length_le (not_lt.mp hcol)]
    exact valid_blank _

theorem valid_padBlank (len : Nat) : ∀ c ∈ padBlank cells len, c.Valid := by
  intro c hc
  rcases mem_append.mp hc with hc | hc
  · exact h c hc
  · rw [eq_of_mem_replicate hc]
    exact valid_blank _

theorem valid_set (col : Nat) (hc : c.Valid) :
    ∀ d ∈ cells.set col c, d.Valid := by
  intro d hd
  rcases mem_or_eq_of_mem_set hd with hd | rfl
  · exact h d hd
  · exact hc

theorem valid_fillRange (start stop : Nat) (hc : c.Valid) :
    ∀ d ∈ fillRange cells start stop c, d.Valid := by
  intro d hd
  obtain ⟨i, hi, rfl⟩ := mem_mapIdx.mp hd
  split
  · exact hc
  · exact h _ (getElem_mem hi)

theorem cellAt_trim (i : Nat) :
    cellAt (trimTrailingBlankCells cells) i = cellAt cells i := by
  induction cells using List.reverseRecOn with
  | nil => rfl
  | append_singleton cells c ih =>
    rw [trimTrailingBlankCells, rdropWhile_concat]
    split
    · next hblank =>
      have hc : c = blank DEFAULT := (h c (by simp)).eq_blank hblank
      have hinit := ih fun d hd => h d (mem_append_left _ hd)
      have hpad : cells ++ [c] = padBlank cells (cells.length + 1) := by
        simp [padBlank, hc]
      rw [hpad, cellAt_padBlank]
      exact hinit
    · rfl

end

theorem trimmed_trim (cells : List Cell) : Trimmed (trimTrailingBlankCells cells) := by
  intro c hc
  obtain ⟨hne, rfl⟩ := mem_getLast?_eq_getLast hc
  exact Bool.eq_false_of_not_eq_true (rdropWhile_last_not isDiscardableBlank cells hne)

theorem mem_of_mem_trim (h : c ∈ trimTrailingBlankCells cells) : c ∈ cells :=
  (List.rdropWhile_prefix _ cells).subset h

theorem getLast?_eq_cellAt (h : 0 < cells.length) : cells.getLast? = some (cellAt cells (cells.length - 1)) := by
  rw [getLast?_eq_getElem?, getElem?_eq_getElem (by omega), cellAt_of_lt (by omega)]

/-- A trimmed list ends where its last cell that is not blank is. -/
theorem length_le_of_blank (h : Trimmed cells) {n : Nat}
    (hblank : ∀ i, n ≤ i → cellAt cells i = blank DEFAULT) : cells.length ≤ n := by
  by_contra hlt
  have hkept := h _ (getLast?_eq_cellAt (by omega))
  rw [hblank _ (by omega)] at hkept
  cases hkept

@[simp] theorem cellAt_nil (i : Nat) : cellAt [] i = blank DEFAULT := rfl
@[simp] theorem cellAt_cons_zero (c : Cell) (cells : List Cell) : cellAt (c :: cells) 0 = c := rfl
@[simp] theorem cellAt_cons_succ (c : Cell) (cells : List Cell) (i : Nat) :
    cellAt (c :: cells) (i + 1) = cellAt cells i := rfl

/-! ## Wide halves -/

/-- Every leader is followed by a spacer and every spacer preceded by a leader. -/
structure Paired (view : Nat → Cell) : Prop where
  leader : ∀ i, (view i).IsLeader → (view (i + 1)).wideContinuation = true
  spacer : ∀ i, (view i).wideContinuation = true → ∃ j, i = j + 1 ∧ (view j).IsLeader

theorem paired_blank : Paired fun _ => blank DEFAULT := ⟨nofun, nofun⟩

theorem not_continuation_of_leader (h : c.IsLeader) : c.wideContinuation ≠ true := by
  simp [h.2]

variable {view view' : Nat → Cell}

/-- Overwriting columns with cells that are no halves keeps the pairs if no pair is cut. -/
theorem Paired.overwrite (h : Paired view) {start stop : Nat}
    (hstart : (view start).wideContinuation = false) (hstop : (view stop).wideContinuation = false)
    (hinside : ∀ i, start ≤ i → i < stop → ¬ (view' i).IsLeader ∧ (view' i).wideContinuation = false)
    (houtside : ∀ i, ¬ (start ≤ i ∧ i < stop) → view' i = view i) : Paired view' := by
  constructor
  · intro i hi
    have hout : ¬ (start ≤ i ∧ i < stop) := fun hin => (hinside i hin.1 hin.2).1 hi
    rw [houtside i hout] at hi
    have hnext := h.leader i hi
    -- a spacer at the start would have its leader outside
    have hout' : ¬ (start ≤ i + 1 ∧ i + 1 < stop) := by
      rintro ⟨h₁, h₂⟩
      have heq : i + 1 = start := by omega
      rw [heq, hstart] at hnext
      cases hnext
    rw [houtside _ hout']
    exact hnext
  · intro i hi
    have hout : ¬ (start ≤ i ∧ i < stop) := by
      intro hin
      rw [(hinside i hin.1 hin.2).2] at hi
      cases hi
    rw [houtside i hout] at hi
    obtain ⟨j, rfl, hj⟩ := h.spacer i hi
    refine ⟨j, rfl, ?_⟩
    have hout' : ¬ (start ≤ j ∧ j < stop) := by
      rintro ⟨h₁, h₂⟩
      have heq : j + 1 = stop := by omega
      rw [heq, hstop] at hi
      cases hi
    rw [houtside j hout']
    exact hj

/-- A glyph has no more than two halves. -/
theorem Paired.after_spacer (h : Paired view) {i : Nat} (hi : (view i).wideContinuation = true) :
    (view (i + 1)).wideContinuation = false := by
  by_contra hnext
  obtain ⟨j, hj, hlead⟩ := h.spacer (i + 1) (Bool.eq_true_of_not_eq_false hnext)
  exact not_continuation_of_leader hlead (Nat.succ.inj hj ▸ hi)

/-- A glyph may be put where there is no half of another one. -/
theorem Paired.put (h : Paired view) (hc : c.wideContinuation = false)
    (hcol : ¬ (view col).IsLeader ∧ (view col).wideContinuation = false)
    (hnext : c.width = 2 → ¬ (view (col + 1)).IsLeader ∧ (view (col + 1)).wideContinuation = false)
    (hat : view' col = c) (hspacer : c.width = 2 → (view' (col + 1)).wideContinuation = true)
    (houtside : ∀ i, i ≠ col → (c.width = 2 → i ≠ col + 1) → view' i = view i) : Paired view' := by
  have hlead : ∀ i, (view i).IsLeader → i + 1 ≠ col ∧ (c.width = 2 → i + 1 ≠ col + 1) := by
    intro i hi
    have hcont := h.leader i hi
    refine ⟨fun heq => ?_, fun hw heq => ?_⟩
    · rw [heq, hcol.2] at hcont
      cases hcont
    · rw [heq, (hnext hw).2] at hcont
      cases hcont
  constructor
  · intro i hi
    by_cases hi₀ : i = col
    · subst hi₀
      rw [hat] at hi
      exact hspacer hi.1
    · by_cases hi₁ : c.width = 2 ∧ i = col + 1
      · obtain ⟨hw, rfl⟩ := hi₁
        exact absurd (hspacer hw) (not_continuation_of_leader hi)
      · rw [houtside i hi₀ fun hw he => hi₁ ⟨hw, he⟩] at hi
        rw [houtside _ (hlead i hi).1 (hlead i hi).2]
        exact h.leader i hi
  · intro i hi
    by_cases hi₀ : i = col
    · subst hi₀
      rw [hat, hc] at hi
      cases hi
    · by_cases hi₁ : c.width = 2 ∧ i = col + 1
      · obtain ⟨hw, rfl⟩ := hi₁
        exact ⟨col, rfl, by rw [hat]; exact ⟨hw, hc⟩⟩
      · rw [houtside i hi₀ fun hw he => hi₁ ⟨hw, he⟩] at hi
        obtain ⟨j, rfl, hj⟩ := h.spacer i hi
        refine ⟨j, rfl, ?_⟩
        rw [houtside j (fun he => hcol.1 (he ▸ hj)) fun hw he => (hnext hw).1 (he ▸ hj)]
        exact hj

/-- A list of narrow cells and of leaders with their spacers. -/
inductive Tiled : List Cell → Prop where
  | nil : Tiled []
  | narrow {c : Cell} {cells : List Cell} : ¬ c.IsLeader → c.wideContinuation = false → Tiled cells → Tiled (c :: cells)
  | wide {c d : Cell} {cells : List Cell} : c.IsLeader → d.wideContinuation = true → Tiled cells →
      Tiled (c :: d :: cells)

theorem Tiled.paired (h : Tiled cells) : Paired (cellAt cells) := by
  induction h with
  | nil => exact paired_blank
  | narrow hlead hcont _ ih =>
    constructor
    · intro i hi
      cases i with
      | zero => exact absurd hi hlead
      | succ i => exact ih.leader i hi
    · intro i hi
      cases i with
      | zero => rw [cellAt_cons_zero, hcont] at hi; cases hi
      | succ i =>
        obtain ⟨j, rfl, hj⟩ := ih.spacer i hi
        exact ⟨j + 1, rfl, hj⟩
  | @wide c d cells hlead hcont _ ih =>
    constructor
    · intro i hi
      match i with
      | 0 => exact hcont
      | 1 => exact absurd hcont (not_continuation_of_leader hi)
      | i + 2 => exact ih.leader i hi
    · intro i hi
      match i with
      | 0 => exact absurd hi (not_continuation_of_leader hlead)
      | 1 => exact ⟨0, rfl, hlead⟩
      | i + 2 =>
        obtain ⟨j, rfl, hj⟩ := ih.spacer i hi
        exact ⟨j + 2, rfl, hj⟩

/-! ## Well-formed rows -/

/-- The row fits the width, is trimmed, and its wide halves are paired. -/
structure PhysicalRow.WellFormed (width : Nat) (row : PhysicalRow) : Prop where
  size : row.cells.length ≤ width
  trimmed : Trimmed row.cells
  paired : Paired (cellAt row.cells)
  valid : ∀ c ∈ row.cells, c.Valid

namespace PhysicalRow
variable {width : Nat} {row : PhysicalRow}

theorem wellFormed_new : WellFormed width {} := ⟨zero_le, nofun, paired_blank, nofun⟩

theorem WellFormed.setWrapped (h : row.WellFormed width) (wrapped : Bool) :
    WellFormed width { row with wrapped := wrapped } := { h with }

theorem WellFormed.blank_beyond (h : row.WellFormed width) {i : Nat} (hi : width ≤ i) :
    cellAt row.cells i = blank DEFAULT := cellAt_of_length_le (le_trans h.size hi)

variable {cells : List Cell}

theorem wellFormed_trim {wrapped : Bool} (hvalid : ∀ c ∈ cells, c.Valid)
    (hblank : ∀ i, width ≤ i → cellAt cells i = blank DEFAULT) (hpaired : Paired (cellAt cells)) :
    WellFormed width ⟨trimTrailingBlankCells cells, wrapped⟩ := by
  have hview : cellAt (trimTrailingBlankCells cells) = cellAt cells := funext (cellAt_trim hvalid)
  refine ⟨?_, trimmed_trim cells, by rw [hview]; exact hpaired, fun c hc => hvalid c (mem_of_mem_trim hc)⟩
  refine length_le_of_blank (trimmed_trim cells) fun i hi => ?_
  rw [hview]
  exact hblank i hi

theorem wellFormed_eraseFilled (style : StyleId) : WellFormed width (eraseFilled width style) := by
  unfold eraseFilled
  split
  · exact wellFormed_new
  · next hstyle =>
    have hview (i : Nat) : ¬ (cellAt (List.replicate width (blank style)) i).IsLeader ∧
        (cellAt (List.replicate width (blank style)) i).wideContinuation = false := by
      rw [cellAt_replicate]
      split <;> exact ⟨nofun, rfl⟩
    refine ⟨le_of_eq length_replicate, fun c hc => ?_, ⟨fun i hi => absurd hi (hview i).1, fun i hi => ?_⟩,
      fun c hc => ?_⟩
    · have hmem := mem_of_getLast? hc
      rw [eq_of_mem_replicate hmem, ← Bool.not_eq_true, isDiscardableBlank_iff]
      exact fun h => hstyle h.2.1
    · rw [(hview i).2] at hi
      cases hi
    · rw [eq_of_mem_replicate hc]
      exact valid_blank style

/-! ### Edits in the view -/

theorem trimmed_setCell (row : PhysicalRow) (col : Nat) (c : Cell) : Trimmed (row.setCell col c).cells := trimmed_trim _

theorem continuesAt_eq (row : PhysicalRow) (col : Nat) :
    row.continuesAt col = (cellAt row.cells col).wideContinuation := by
  rw [continuesAt, cellAt, getD_eq_getElem?_getD]
  cases row.cells[col]? <;> rfl

variable {stop col : Nat}

section
variable (hrow : ∀ c ∈ row.cells, c.Valid)
include hrow

theorem cellAt_setCell {c : Cell} (hc : c.Valid) (col i : Nat) :
    cellAt (row.setCell col c).cells i = if i = col then c else cellAt row.cells i := by
  have hcol : col < (padBlank row.cells (col + 1)).length := by
    rw [length_padBlank]
    omega
  rw [setCell, cellAt_trim (valid_set (valid_padBlank hrow _) _ hc), cellAt_set hcol, cellAt_padBlank]

theorem valid_setCell {c : Cell} (hc : c.Valid) (col : Nat) :
    ∀ d ∈ (row.setCell col c).cells, d.Valid :=
  fun d hd => valid_set (valid_padBlank hrow _) _ hc d (mem_of_mem_trim hd)

/-- A clearing takes whole glyphs: it may begin a column early and end a column late. -/
theorem cellAt_clearRange {start : Nat} (h : start < stop) (style : StyleId) (i : Nat) :
    cellAt (row.clearRange start stop style).cells i =
      if row.clearStart start ≤ i ∧ i < row.clearStop stop then blank style else cellAt row.cells i := by
  have hge : ¬ start ≥ stop := not_le.mpr h
  rw [clearRange, if_neg hge]
  dsimp only
  split
  · next hstyle =>
    split
    · next hlen =>
      split
      · next hin => rw [cellAt_of_length_le (le_trans hlen hin.1), hstyle]
      · rfl
    · rw [cellAt_trim (valid_fillRange hrow _ _ (valid_blank _)), cellAt_fillRange, hstyle]
      by_cases hlen : i < row.cells.length
      · simp only [hlen, and_true, lt_min_iff]
      · rw [cellAt_of_length_le (not_lt.mp hlen)]
        simp
  · rw [cellAt_trim (valid_fillRange (valid_padBlank hrow _) _ _ (valid_blank _)), cellAt_fillRange, cellAt_padBlank,
      length_padBlank]
    congr 1
    simp only [eq_iff_iff, and_congr_right_iff, and_iff_left_iff_imp]
    intro _ hlt
    omega

theorem clearRange_cells (start stop : Nat) (style : StyleId) :
    (row.clearRange start stop style).cells = row.cells ∨ ∃ cells : List Cell, (∀ c ∈ cells, c.Valid) ∧
      (row.clearRange start stop style).cells = trimTrailingBlankCells cells := by
  unfold clearRange
  split
  · exact .inl rfl
  · dsimp only
    split
    · split
      · exact .inl rfl
      · exact .inr ⟨_, valid_fillRange hrow _ _ (valid_blank _), rfl⟩
    · exact .inr ⟨_, valid_fillRange (valid_padBlank hrow _) _ _ (valid_blank _), rfl⟩

end

def putView (view : Nat → Cell) (col : Nat) (c : Cell) (i : Nat) : Cell :=
  if c.width = 2 ∧ i = col + 1 then spacer c.style else if i = col then c else view i

section
variable (h : row.WellFormed width)
include h

/-- A row that shows one more glyph, where there was no half of another one. -/
theorem WellFormed.put {c : Cell} (hc : c.Valid) (hlead : c.wideContinuation = false)
    (hfit : col + c.width ≤ width) (hfree : ∀ i, col ≤ i → i < col + c.width →
      ¬ (cellAt row.cells i).IsLeader ∧ (cellAt row.cells i).wideContinuation = false) ⦃row' : PhysicalRow⦄
    (htrim : Trimmed row'.cells) (hvalid : ∀ d ∈ row'.cells, d.Valid)
    (hview : ∀ i, cellAt row'.cells i = putView (cellAt row.cells) col c i) :
    row'.WellFormed width := by
  have hwidth := hc.width hlead
  refine ⟨length_le_of_blank htrim fun i hi => ?_, htrim, ?_, hvalid⟩
  · rw [hview, putView, if_neg (by omega), if_neg (by omega), h.blank_beyond hi]
  · refine h.paired.put hlead (hfree col le_rfl (by omega)) (fun hw =>
      hfree (col + 1) (by omega) (by omega)) ?_ (fun hw => ?_)
      fun i hi hi' => ?_
    · simp [hview, putView]
    · rw [hview, putView, if_pos ⟨hw, rfl⟩]
      rfl
    · rw [hview, putView, if_neg fun hnext => hi' hnext.1 hnext.2, if_neg hi]

/-- A row that shows blanks from one column to another, and no glyph is cut there. -/
theorem WellFormed.blanked {start : Nat} {style : StyleId} (hstart : (cellAt row.cells start).wideContinuation = false)
    (hstop : (cellAt row.cells stop).wideContinuation = false) (hle : stop ≤ width) ⦃row' : PhysicalRow⦄
    (htrim : Trimmed row'.cells) (hvalid : ∀ d ∈ row'.cells, d.Valid)
    (hview : ∀ i, cellAt row'.cells i = if start ≤ i ∧ i < stop then blank style else cellAt row.cells i) :
    row'.WellFormed width := by
  refine ⟨length_le_of_blank htrim fun i hi => ?_, htrim, ?_, hvalid⟩
  · rw [hview, if_neg (by omega), h.blank_beyond hi]
  · refine h.paired.overwrite hstart hstop (fun i h₁ h₂ => ?_) fun i hout => ?_
    · rw [hview, if_pos ⟨h₁, h₂⟩]
      exact ⟨nofun, rfl⟩
    · rw [hview, if_neg hout]

theorem WellFormed.clearRange (hstop : stop ≤ width) (start : Nat) (style : StyleId) :
    (row.clearRange start stop style).WellFormed width := by
  by_cases hlt : start < stop
  swap
  · rw [PhysicalRow.clearRange, if_pos (not_lt.mp hlt)]
    exact h
  have hclear : row.clearStop stop ≤ width := by
    unfold clearStop
    split
    · next hcont =>
      rw [continuesAt_eq] at hcont
      by_contra hgt
      rw [h.blank_beyond (by omega)] at hcont
      cases hcont
    · exact hstop
  have hstart : (cellAt row.cells (row.clearStart start)).wideContinuation = false := by
    unfold clearStart
    split
    · next hcont =>
      rw [continuesAt_eq] at hcont
      obtain ⟨j, rfl, hj⟩ := h.paired.spacer start hcont
      exact hj.2
    · next hcont => rwa [continuesAt_eq, Bool.not_eq_true] at hcont
  have hend : (cellAt row.cells (row.clearStop stop)).wideContinuation = false := by
    unfold clearStop
    split
    · next hcont =>
      rw [continuesAt_eq] at hcont
      exact h.paired.after_spacer hcont
    · next hcont => rwa [continuesAt_eq, Bool.not_eq_true] at hcont
  have hview := cellAt_clearRange h.valid hlt style
  rcases clearRange_cells h.valid start stop style with hsame | ⟨cells, hvalid, htrim⟩
  · exact h.blanked hstart hend hclear (hsame ▸ h.trimmed) (hsame ▸ h.valid) hview
  · exact h.blanked hstart hend hclear (htrim ▸ trimmed_trim cells)
      (htrim ▸ fun d hd => hvalid d (mem_of_mem_trim hd)) hview

/-- After clearing, the columns asked for hold no half of a glyph. -/
theorem cellAt_clearRange_inside {start i : Nat} (hstart : start ≤ i) (hstop : i < stop)
    (style : StyleId) : cellAt (row.clearRange start stop style).cells i = blank style := by
  rw [cellAt_clearRange h.valid (by omega), if_pos]
  unfold clearStart clearStop
  constructor <;> split <;> omega

theorem WellFormed.putGlyph {charWidth : Nat} {text : String} {style : StyleId}
    (hwidth : charWidth = 1 ∨ charWidth = 2) (hfit : col + charWidth ≤ width) (htext : charWidth = 2 → text ≠ " ") :
    (row.putGlyph col text charWidth style width).WellFormed width := by
  have hcleared := h.clearRange hfit col style
  have hcell : (new text style charWidth).width = charWidth := by
    change max charWidth 1 = charWidth
    omega
  have hvalid : (new text style charWidth).Valid := by
    refine ⟨nofun, fun _ => ?_, ?_⟩
    · omega
    · rw [hcell]
      exact htext
  have hrow₁ := valid_setCell hcleared.valid hvalid col
  have hview₁ := cellAt_setCell hcleared.valid hvalid col
  have hput := hcleared.put hvalid rfl (by rw [hcell]; exact hfit) fun i h₁ h₂ => by
    rw [cellAt_clearRange_inside h h₁ (hcell ▸ h₂) style]
    exact ⟨nofun, rfl⟩
  unfold PhysicalRow.putGlyph
  split
  · next htwo =>
    refine hput (trimmed_setCell _ _ _) (valid_setCell hrow₁ (valid_spacer style) (col + 1)) fun i => ?_
    rw [cellAt_setCell hrow₁ (valid_spacer style), hview₁, putView, hcell]
    simp only [htwo.1, true_and]
    rfl
  · refine hput (trimmed_setCell _ _ _) hrow₁ fun i => ?_
    rw [hview₁, putView, hcell, if_neg (c := charWidth = 2 ∧ _) (by omega)]

theorem WellFormed.setText {text : String}
    (hcont : (cellAt row.cells col).wideContinuation = false) (htext : text ≠ " ") :
    (row.setText col text).WellFormed width := by
  have hlen : (row.setText col text).cells.length = row.cells.length := length_modify ..
  have hview (i : Nat) (hi : i < row.cells.length) : cellAt (row.setText col text).cells i =
      if col = i then { cellAt row.cells i with text := text } else cellAt row.cells i := by
    have hi' : i < (row.setText col text).cells.length := hlen ▸ hi
    rw [cellAt_of_lt hi', cellAt_of_lt hi]
    simp only [PhysicalRow.setText, getElem_modify]
  have hcells (i : Nat) : (cellAt (row.setText col text).cells i).width = (cellAt row.cells i).width ∧
      (cellAt (row.setText col text).cells i).wideContinuation = (cellAt row.cells i).wideContinuation := by
    by_cases hi : i < row.cells.length
    · rw [hview i hi]
      split <;> exact ⟨rfl, rfl⟩
    · rw [cellAt_of_length_le (not_lt.mp hi), cellAt_of_length_le (by omega)]
      exact ⟨rfl, rfl⟩
  refine ⟨hlen ▸ h.size, fun c hc => ?_, ⟨fun i hi => ?_, fun i hi => ?_⟩, fun c hc => ?_⟩
  · have hpos : row.cells.length ≠ 0 := by
      intro hzero
      rw [eq_nil_of_length_eq_zero (hlen.trans hzero)] at hc
      cases hc
    rw [getLast?_eq_cellAt (by omega), hlen, hview _ (by omega)] at hc
    rw [← Option.some.inj hc]
    split
    · rw [← Bool.not_eq_true, isDiscardableBlank_iff]
      exact fun hd => htext hd.1
    · exact h.trimmed _ (getLast?_eq_cellAt (by omega))
  · rw [(hcells _).2]
    exact h.paired.leader i ⟨(hcells i).1 ▸ hi.1, (hcells i).2 ▸ hi.2⟩
  · rw [(hcells _).2] at hi
    obtain ⟨j, rfl, hj⟩ := h.paired.spacer i hi
    exact ⟨j, rfl, (hcells j).1 ▸ hj.1, (hcells j).2 ▸ hj.2⟩
  · obtain ⟨i, hi, rfl⟩ := mem_iff_getElem.mp hc
    have hi' : i < row.cells.length := hlen ▸ hi
    have hold := valid_cellAt h.valid i
    rw [← cellAt_of_lt hi, hview i hi']
    split
    · next heq =>
      subst heq
      refine ⟨fun hc => ?_, hold.width, fun _ => htext⟩
      exact absurd hc (by simp [hcont])
    · exact hold

theorem WellFormed.blankGlyph {oldWidth : Nat} (style : StyleId) (hlt : col < row.cells.length)
    (hcont : (cellAt row.cells col).wideContinuation = false) (hwidth : oldWidth = (cellAt row.cells col).width) :
    (row.blankGlyph col oldWidth style).WellFormed width := by
  have hrow₁ := valid_setCell h.valid (valid_blank style) col
  have hview₁ := cellAt_setCell h.valid (valid_blank style) col
  have hsize := h.size
  unfold PhysicalRow.blankGlyph
  split
  · next htwo =>
    have hnext := h.paired.leader col ⟨hwidth ▸ htwo, hcont⟩
    have hlt' : col + 1 < width := by
      by_contra hge
      rw [h.blank_beyond (by omega)] at hnext
      cases hnext
    have hview₂ := cellAt_setCell hrow₁ (valid_blank style) (col + 1)
    have hview (i : Nat) : cellAt (((row.setCell col (blank style)).setCell (col + 1) (blank style))).cells i =
        if col ≤ i ∧ i < col + 2 then blank style else cellAt row.cells i := by
      rw [hview₂, hview₁]
      split
      · rw [if_pos (by omega)]
      · split
        · rw [if_pos (by omega)]
        · rw [if_neg (by omega)]
    exact h.blanked hcont (h.paired.after_spacer hnext) (by omega) (trimmed_setCell _ _ _)
      (valid_setCell hrow₁ (valid_blank style) (col + 1)) hview
  · next htwo =>
    have hone : ¬ (cellAt row.cells col).IsLeader := fun hlead => htwo (hwidth ▸ hlead.1)
    refine h.put (c := blank style) (valid_blank _) rfl (by change col + 1 ≤ width; omega) (fun i h₁ h₂ => ?_)
      (trimmed_setCell _ _ _) hrow₁ hview₁
    obtain rfl : i = col := le_antisymm (Nat.le_of_lt_succ h₂) h₁
    exact ⟨hone, hcont⟩

end

theorem cellAt_take (cells : List Cell) (len i : Nat) :
    cellAt (cells.take len) i = if i < len then cellAt cells i else blank DEFAULT := by
  rw [cellAt, cellAt, getD_eq_getElem?_getD, getElem?_take]
  split <;> rfl

/-- Only a glyph across the new margin is cut. -/
theorem WellFormed.last_take_iff (h : row.WellFormed width) (len : Nat) :
    (row.cells.take len).getLast?.any (fun c => decide c.IsLeader) = true ↔
      0 < len ∧ (cellAt row.cells (len - 1)).IsLeader := by
  rw [getLast?_take]
  cases len with
  | zero => simp
  | succ len =>
    rw [Nat.add_sub_cancel]
    by_cases hlen : len < row.cells.length
    · simp [getElem?_eq_getElem hlen, cellAt_of_lt hlen]
    · rw [getElem?_eq_none (not_lt.mp hlen), cellAt_of_length_le (not_lt.mp hlen)]
      have hblank : ¬ (blank DEFAULT).IsLeader := nofun
      by_cases hpos : 0 < row.cells.length
      · -- the last stored cell has no spacer behind it
        have hlast : ¬ (cellAt row.cells (row.cells.length - 1)).IsLeader := by
          intro hlead
          have hnext := h.paired.leader _ hlead
          rw [cellAt_of_length_le (by omega)] at hnext
          cases hnext
        simp [getLast?_eq_cellAt hpos, hlast, hblank]
      · simp [eq_nil_of_length_eq_zero (Nat.eq_zero_of_not_pos hpos), hblank]

theorem WellFormed.truncate (h : row.WellFormed width) (len : Nat) : (row.truncate len).WellFormed len := by
  have htake : ∀ c ∈ row.cells.take len, c.Valid := fun c hc => h.valid c (mem_of_mem_take hc)
  have hbeyond : (cellAt row.cells (max len width)).wideContinuation = false := by
    rw [h.blank_beyond (by omega)]
    rfl
  unfold PhysicalRow.truncate
  dsimp only
  split
  · next hlead =>
    obtain ⟨hpos, hlead⟩ := (h.last_take_iff len).mp hlead
    have hlen : len ≤ row.cells.length := by
      by_contra hlt
      rw [cellAt_of_length_le (by omega)] at hlead
      cases hlead.1
    have hmin : (row.cells.take len).length = len := by
      rw [length_take]
      omega
    have hview (i : Nat) : cellAt ((row.cells.take len).set ((row.cells.take len).length - 1) (blank DEFAULT)) i =
        if i < len - 1 then cellAt row.cells i else blank DEFAULT := by
      rw [cellAt_set (by omega), cellAt_take]
      by_cases hi : i < len - 1
      · rw [if_neg (by omega), if_pos (by omega), if_pos hi]
      · split
        · rfl
        · rw [if_neg (by omega)]
    refine wellFormed_trim (valid_set htake _ (valid_blank _)) (fun i hi => by rw [hview, if_neg (by omega)]) ?_
    refine h.paired.overwrite hlead.2 hbeyond (fun i h₁ _ => ?_) fun i hout => ?_
    · rw [hview, if_neg (by omega)]
      exact ⟨nofun, rfl⟩
    · rw [hview]
      split
      · rfl
      · rw [h.blank_beyond (by omega)]
  · next hlead =>
    rw [h.last_take_iff len] at hlead
    have hstart : (cellAt row.cells len).wideContinuation = false := by
      by_contra hcont
      obtain ⟨j, rfl, hj⟩ := h.paired.spacer len (Bool.eq_true_of_not_eq_false hcont)
      exact hlead ⟨Nat.succ_pos j, hj⟩
    refine wellFormed_trim htake (fun i hi => by rw [cellAt_take, if_neg (by omega)]) ?_
    refine h.paired.overwrite hstart hbeyond (fun i h₁ _ => ?_) fun i hout => ?_
    · rw [cellAt_take, if_neg (by omega)]
      exact ⟨nofun, rfl⟩
    · rw [cellAt_take]
      split
      · rfl
      · rw [h.blank_beyond (by omega)]

/-! ### Rows built anew -/

theorem valid_normalizeLoop (h : ∀ c ∈ cells, c.Valid) (previous : Option Cell) :
    ∀ c ∈ normalizeLoop previous cells, c.Valid := by
  have hblank := valid_blank DEFAULT
  fun_induction normalizeLoop previous cells with
  | case1 => nofun
  | case2 previous c cells hcont _ d ih =>
    have hd : d.Valid := by
      unfold d
      split
      · exact h c mem_cons_self
      · exact hblank
    exact forall_mem_cons.mpr ⟨hd, ih fun e he => h e (mem_cons_of_mem _ he)⟩
  | case3 => exact forall_mem_singleton.mpr hblank
  | case4 previous c hcont hwide d rest hnext ih =>
    refine forall_mem_cons.mpr ⟨h c mem_cons_self, forall_mem_cons.mpr ⟨valid_spacer _, ih ?_⟩⟩
    exact fun e he => h e (mem_cons_of_mem _ (mem_cons_of_mem _ he))
  | case5 previous c hcont hwide d rest hnext ih =>
    exact forall_mem_cons.mpr ⟨hblank, ih fun e he => h e (mem_cons_of_mem _ he)⟩
  | case6 previous c cells hcont hwide ih =>
    exact forall_mem_cons.mpr ⟨h c mem_cons_self, ih fun e he => h e (mem_cons_of_mem _ he)⟩

/-- Whatever cells it is given, the normalisation pairs them. -/
theorem tiled_normalizeLoop (cells : List Cell) (previous : Option Cell) (h : ∀ p, previous = some p → ¬ p.IsLeader) :
    Tiled (normalizeLoop previous cells) := by
  have hblank : ¬ (blank DEFAULT).IsLeader := nofun
  fun_induction normalizeLoop previous cells with
  | case1 => exact .nil
  | case2 previous c cells hcont valid d ih =>
    have hvalid : valid = false := by
      cases previous with
      | none => rfl
      | some p =>
        rw [← Bool.not_eq_true]
        intro hp
        simp only [valid, Option.any_some, Bool.and_eq_true, Bool.not_eq_true', decide_eq_true_eq] at hp
        exact h p rfl ⟨hp.2, hp.1⟩
    have hd : d = blank DEFAULT := by
      simp [d, hvalid]
    rw [hd] at ih ⊢
    exact .narrow hblank rfl (ih fun p hp => Option.some.inj hp ▸ hblank)
  | case3 => exact .narrow hblank rfl .nil
  | case4 previous c hcont hwide d rest hnext ih =>
    exact .wide ⟨hwide, Bool.eq_false_of_not_eq_true hcont⟩ rfl (ih fun p hp => Option.some.inj hp ▸ nofun)
  | case5 previous c hcont hwide d rest hnext ih =>
    exact .narrow hblank rfl (ih fun p hp => Option.some.inj hp ▸ hblank)
  | case6 previous c cells hcont hwide ih =>
    have hc : ¬ c.IsLeader := fun hl => hwide hl.1
    exact .narrow hc (Bool.eq_false_of_not_eq_true hcont) (ih fun p hp => Option.some.inj hp ▸ hc)

theorem length_normalizeLoop (cells : List Cell) (previous : Option Cell) :
    (normalizeLoop previous cells).length = cells.length := by
  fun_induction normalizeLoop previous cells <;> simp_all

theorem cellAt_foldl_setCell (h : ∀ c ∈ cells, c.Valid) (k : Nat) (hrow : ∀ c ∈ row.cells, c.Valid) (i : Nat) :
    let row' := (cells.zipIdx k).foldl (fun row (cell, col) => PhysicalRow.setCell row col cell) row
    (∀ c ∈ row'.cells, c.Valid) ∧
      cellAt row'.cells i = if k ≤ i ∧ i < k + cells.length then cellAt cells (i - k) else cellAt row.cells i := by
  induction cells generalizing k row with
  | nil =>
    refine ⟨hrow, ?_⟩
    have hout : ¬ (k ≤ i ∧ i < k + 0) := by omega
    simp
  | cons c cells ih =>
    have hc := h c mem_cons_self
    obtain ⟨hvalid, hview⟩ := ih (fun d hd => h d (mem_cons_of_mem _ hd)) (k + 1) (valid_setCell hrow hc k)
    refine ⟨hvalid, hview.trans ?_⟩
    rw [cellAt_setCell hrow hc, length_cons]
    by_cases hk : i = k
    · subst hk
      simp
    · rw [if_neg hk]
      by_cases hin : k + 1 ≤ i ∧ i < k + 1 + cells.length
      · have hsub : i - k = i - (k + 1) + 1 := by omega
        rw [if_pos hin, if_pos (by omega), hsub, cellAt_cons_succ]
      · rw [if_neg hin, if_neg (by omega)]

theorem trimmed_foldl_setCell (cells : List (Cell × Nat)) (h : Trimmed row.cells) :
    Trimmed (cells.foldl (fun row (cell, col) => PhysicalRow.setCell row col cell) row).cells := by
  induction cells generalizing row with
  | nil => exact h
  | cons c cells ih => exact ih (trimmed_setCell _ _ _)

theorem wellFormed_rebuild (h : ∀ c ∈ cells, c.Valid) (wrapped : Bool) :
    (rebuild cells width wrapped).WellFormed width := by
  have hpad : ∀ c ∈ padBlank (cells.take width) width, c.Valid :=
    valid_padBlank (fun c hc => h c (mem_of_mem_take hc)) width
  have hnorm : ∀ c ∈ normalizedVisualCells cells width, c.Valid := valid_normalizeLoop hpad none
  have hlen : (normalizedVisualCells cells width).length = width := by
    simp [normalizedVisualCells, length_normalizeLoop, length_padBlank]
  have htiled : Tiled (normalizedVisualCells cells width) := tiled_normalizeLoop _ none nofun
  have hset := @cellAt_foldl_setCell { wrapped := wrapped } _ hnorm 0 nofun
  have hview : cellAt (rebuild cells width wrapped).cells = cellAt (normalizedVisualCells cells width) := by
    funext i
    refine (hset i).2.trans ?_
    split
    · rfl
    · exact (cellAt_of_length_le (by omega)).symm
  have htrim : Trimmed (rebuild cells width wrapped).cells := trimmed_foldl_setCell _ nofun
  refine ⟨length_le_of_blank htrim fun i hi => ?_, htrim, hview ▸ htiled.paired, (hset 0).1⟩
  rw [hview, cellAt_of_length_le (by omega)]

end PhysicalRow
end Bmux.Terminal
