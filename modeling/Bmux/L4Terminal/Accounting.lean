import Bmux.L4Terminal.Snapshot
import Bmux.L4Terminal.Edits

/-!
# The counters of the history

The grid keeps two counters beside its history: the bytes it is charged for, and,
once somebody asked for it, the number of rows its lines take at the current width.
Both are changed step by step with saturating arithmetic.

* `Accounted`: both counters are the sums they stand for, with no bound on them.
* `pushRowChecked`, `evictToBudgetChecked`, `resizedHistoryChecked`: the same code with
  checked arithmetic, so that a counter that would saturate or underflow is a failure.
* `Ledger.perform`, `Ledger.resized`, `ledger_fromSnapshot`: every call of the decoder, a
  resize and a hydration keep the account of a grid that fits into memory.
* `reached_accounted`: so it holds in every reachable stream, where the checked code does
  not fail and does what the code does.

The cached number of rows is that of the lines. The rows of the pending line are counted
whenever they are asked for (`pending_row_not_cached`).
-/
namespace Bmux.Terminal
open List TerminalGrid History TerminalGridStream PhysicalRow Cell

variable (cells : List Cell)

def charge : Nat := (cells.map fun c => CELL_SIZE + c.text.utf8ByteSize).sum

@[simp] theorem charge_nil : charge [] = 0 := rfl

theorem charge_cons (c : Cell) (cells : List Cell) :
    charge (c :: cells) = CELL_SIZE + c.text.utf8ByteSize + charge cells := by
  simp [charge]

@[simp] theorem charge_append (cells cells' : List Cell) : charge (cells ++ cells') = charge cells + charge cells' := by
  simp [charge]

theorem charge_eq : charge cells = cells.length * CELL_SIZE + (cells.map fun c => c.text.utf8ByteSize).sum := by
  induction cells with
  | nil => rfl
  | cons c cells ih =>
    rw [charge_cons, ih, length_cons, map_cons, sum_cons]
    ring

theorem foldl_satAdd_text (bytes : Nat) (h : bytes ≤ 2 ^ 64 - 1) :
    cells.foldl (fun bytes c => satAdd bytes c.text.utf8ByteSize) bytes =
      min (bytes + (cells.map fun c => c.text.utf8ByteSize).sum) (2 ^ 64 - 1) := by
  induction cells generalizing bytes with
  | nil =>
    simp only [foldl_nil, map_nil, sum_nil]
    omega
  | cons c cells ih =>
    have hle : satAdd bytes c.text.utf8ByteSize ≤ 2 ^ 64 - 1 := min_le_right _ _
    rw [foldl_cons, ih _ hle, map_cons, sum_cons]
    unfold satAdd
    omega

theorem historyCellsBytes_eq {cells : List Cell} (h : charge cells < 2 ^ 64) :
    historyCellsBytes cells = charge cells := by
  unfold historyCellsBytes
  rw [foldl_satAdd_text _ _ (min_le_right _ _)]
  rw [charge_eq] at h ⊢
  omega

theorem length_le_charge : cells.length ≤ charge cells := by
  rw [charge_eq]
  unfold CELL_SIZE
  omega

theorem charge_trim_le : charge (trimTrailingBlankCells cells) ≤ charge cells := by
  have h : charge (cells.rdropWhile isDiscardableBlank ++ cells.rtakeWhile isDiscardableBlank) = charge cells := by
    rw [rdropWhile_append_rtakeWhile]
  rw [charge_append] at h
  unfold trimTrailingBlankCells
  omega

/-! ## How many rows a line takes -/

theorem projectedLogicalLineRowCount_le (width : Nat) :
    projectedLogicalLineRowCount cells width ≤ charge cells + 1 := by
  have hlen : (trimTrailingBlankCells cells).length ≤ charge cells :=
    (length_le_charge _).trans (charge_trim_le cells)
  rw [projectedLogicalLineRowCount, projectedLogicalLineRowCountRetained_eq, projectionCells, if_neg Bool.false_ne_true]
  cases hcells : trimTrailingBlankCells cells with
  | nil => exact Nat.le_add_left 1 _
  | cons c rest =>
    have hrows := (cuts_visitLogicalRows (show 0 < max width 1 by omega) (cons_ne_nil c rest)).length_le nofun
    rw [hcells] at hlen
    rw [if_pos rfl] at hrows
    omega

theorem sum_rowCount_le (lines : List LogicalLine) (width : Nat) :
    (lines.map (projectedLogicalLineRowCount · width)).sum ≤ (lines.map charge).sum + lines.length := by
  induction lines with
  | nil => simp
  | cons line lines ih =>
    have h := projectedLogicalLineRowCount_le line width
    simp only [map_cons, sum_cons, length_cons]
    omega

namespace History

/-! ## Checked counters -/

def checkedAdd (a b : Nat) : Option Nat := if a + b < 2 ^ 64 then some (a + b) else none

def checkedSub (a b : Nat) : Option Nat := if b ≤ a then some (a - b) else none

def checkedCharge (cells : List Cell) : Option Nat := if charge cells < 2 ^ 64 then some (charge cells) else none

def checkedRows (update : Nat → Option Nat) : Option Nat → Option (Option Nat)
  | none => some none
  | some count => (update count).map some

/-- `pushLine` with checked counters. -/
def pushLineChecked (width : Nat) (h : History) (line : LogicalLine) : Option History := do
  let bytes ← checkedAdd h.bytes (← checkedCharge line)
  let projectedRows ← checkedRows (checkedAdd · (projectedLogicalLineRowCount line width)) h.projectedRows
  return { h with bytes, projectedRows, lines := h.lines ++ [line] }

def pushRowChecked (width : Nat) (h : History) (row : PhysicalRow) : Option History := do
  let cells := rowLogicalCells row width
  let pending := h.pending ++ cells
  let bytes ← checkedAdd h.bytes (← checkedCharge cells)
  if row.wrapped then return { h with bytes, pending }
  let bytes ← checkedSub bytes (← checkedCharge pending)
  { h with pending := [], bytes }.pushLineChecked width (trimTrailingBlankCells pending)

def evictLoopChecked (scrollbackRows maxBytes width : Nat) (h : History) (lines : List LogicalLine) : Option History :=
  if lines.length > scrollbackRows ∨ h.bytes > maxBytes then
    match lines with
    | [] => some { h with truncated := true, lines := [], pending := [], bytes := 0 }
    | line :: rest => do
      let bytes ← checkedSub h.bytes (← checkedCharge line)
      let projectedRows ← checkedRows (checkedSub · (projectedLogicalLineRowCount line width)) h.projectedRows
      evictLoopChecked scrollbackRows maxBytes width { h with truncated := true, bytes, projectedRows } rest
  else some { h with lines }

def evictToBudgetChecked (scrollbackRows maxBytes width : Nat) (h : History) : Option History :=
  evictLoopChecked scrollbackRows maxBytes width h h.lines

variable {a b : Nat}

theorem checkedAdd_eq (h : a + b < 2 ^ 64) : checkedAdd a b = some (satAdd a b) := by
  unfold checkedAdd satAdd
  rw [if_pos h, min_eq_left (by omega)]

theorem room {cells : List Cell} (h : a + charge cells < 2 ^ 64) :
    checkedCharge cells = some (historyCellsBytes cells) ∧
    checkedAdd a (historyCellsBytes cells) = some (satAdd a (historyCellsBytes cells)) ∧
    satAdd a (historyCellsBytes cells) = a + charge cells := by
  have hcells : charge cells < 2 ^ 64 := by omega
  rw [historyCellsBytes_eq hcells, checkedAdd_eq h, satAdd, min_eq_left (by omega)]
  exact ⟨if_pos hcells, rfl, rfl⟩

theorem checkedSub_eq (h : b ≤ a) : checkedSub a b = some (a - b) := if_pos h

theorem checkedRows_eq {update : Nat → Option Nat} {f : Nat → Nat} {rows : Option Nat}
    (h : ∀ n, rows = some n → update n = some (f n)) :
    checkedRows update rows = some (rows.map f) := by
  cases rows with
  | none => rfl
  | some n => simp [checkedRows, h n rfl]

theorem satAdd_eq (h : a + b < 2 ^ 64) : satAdd a b = a + b := by
  unfold satAdd
  omega

/-! ## The account -/

def RowsCounted (width : Nat) (h : History) : Prop :=
  ∀ n, h.projectedRows = some n → n = (h.lines.map (projectedLogicalLineRowCount · width)).sum

/-- Both counters are the sums they stand for. The rows are those of the lines: the rows
of the pending line are counted whenever they are asked for. -/
structure Accounted (width : Nat) (h : History) : Prop where
  bytes : h.bytes = (h.lines.map charge).sum + charge h.pending
  rows : ∀ n, h.projectedRows = some n → n = (h.lines.map (projectedLogicalLineRowCount · width)).sum

variable {width : Nat} {h : History}

theorem accounted_empty (width : Nat) (truncated : Bool) : Accounted width { truncated } where
  bytes := rfl
  rows := by simp

theorem Accounted.rows_le (ha : h.Accounted width) {n : Nat} (hn : h.projectedRows = some n) :
    n ≤ h.bytes + h.lines.length := by
  have hsum := sum_rowCount_le h.lines width
  rw [ha.rows n hn, ha.bytes]
  omega

theorem pushLineChecked_eq {line : LogicalLine} (hbytes : h.bytes + charge line < 2 ^ 64)
    (hrows : ∀ n, h.projectedRows = some n → n + projectedLogicalLineRowCount line width < 2 ^ 64) :
    h.pushLineChecked width line = some (h.pushLine width line) := by
  obtain ⟨hcharge, hadd, -⟩ := room hbytes
  simp [pushLineChecked, pushLine, hcharge, hadd, checkedRows_eq fun n hn => checkedAdd_eq (hrows n hn)]

theorem rows_pushLine {line : LogicalLine} (hcount : h.RowsCounted width)
    (hrows : ∀ n, h.projectedRows = some n → n + projectedLogicalLineRowCount line width < 2 ^ 64) :
    (h.pushLine width line).RowsCounted width := by
  intro n hn
  obtain ⟨m, hm, rfl⟩ := Option.map_eq_some_iff.mp hn
  rw [satAdd_eq (hrows m hm)]
  simp [pushLine, hcount m hm]

theorem Accounted.pushLine (ha : h.Accounted width) (line : LogicalLine)
    (hroom : h.bytes + h.lines.length + 2 * charge line + 1 < 2 ^ 64) :
    h.pushLineChecked width line = some (h.pushLine width line) ∧ (h.pushLine width line).Accounted width := by
  have hrows : ∀ n, h.projectedRows = some n → n + projectedLogicalLineRowCount line width < 2 ^ 64 := by
    intro n hn
    have hle := ha.rows_le hn
    have hcount := projectedLogicalLineRowCount_le line width
    omega
  refine ⟨pushLineChecked_eq (by omega) hrows, ?_, rows_pushLine ha.rows hrows⟩
  have hsum := ha.bytes
  simp only [History.pushLine, (room (show h.bytes + charge line < 2 ^ 64 by omega)).2.2, map_append, sum_append,
    map_cons, map_nil, sum_cons, sum_nil]
  omega

/-- A row that scrolls out is counted without saturation. -/
theorem Accounted.pushRow (ha : h.Accounted width) (row : PhysicalRow)
    (hroom : 3 * (h.bytes + charge (rowLogicalCells row width)) + h.lines.length + 1 < 2 ^ 64) :
    h.pushRowChecked width row = some (h.pushRow width row) ∧ (h.pushRow width row).Accounted width := by
  unfold pushRowChecked History.pushRow
  dsimp only
  generalize rowLogicalCells row width = cells at hroom ⊢
  obtain ⟨hcharge, hadd, hbytes⟩ := room (show h.bytes + charge cells < 2 ^ 64 by omega)
  have hjoined : charge (h.pending ++ cells) ≤ h.bytes + charge cells := by
    simp [ha.bytes]
  rw [hcharge, Option.bind_eq_bind, Option.bind_some, hadd, Option.bind_some]
  by_cases hwrapped : row.wrapped = true
  · rw [if_pos hwrapped, if_pos hwrapped]
    refine ⟨rfl, ?_, ha.rows⟩
    dsimp only
    rw [hbytes, ha.bytes, charge_append]
    omega
  · rw [if_neg hwrapped, if_neg hwrapped]
    have hpending : charge (h.pending ++ cells) < 2 ^ 64 := by omega
    rw [(room (a := 0) (by omega)).1, historyCellsBytes_eq hpending, hbytes]
    -- without the pending cells the history is accounted again, and the line goes in as a whole
    have hrest : Accounted width { h with
      pending := [], bytes := h.bytes + charge cells - charge (h.pending ++ cells) } := by
      refine ⟨?_, ha.rows⟩
      dsimp only
      rw [ha.bytes, charge_append, charge_nil]
      omega
    have htrim := charge_trim_le (h.pending ++ cells)
    have hpush := hrest.pushLine (trimTrailingBlankCells (h.pending ++ cells)) (by
      dsimp only
      omega)
    refine ⟨?_, hpush.2⟩
    rw [Option.bind_some, checkedSub_eq hjoined]
    exact hpush.1

/-- Dropping the oldest lines ends within the byte budget, and no counter underflows. -/
theorem Accounted.evictLoop {scrollbackRows maxBytes : Nat} {lines : List LogicalLine}
    (ha : { h with lines }.Accounted width)
    (hroom : h.bytes < 2 ^ 64) :
    let h' := h.evictLoop scrollbackRows maxBytes width lines
    h.evictLoopChecked scrollbackRows maxBytes width lines = some h' ∧ h'.Accounted width ∧ h'.bytes ≤ maxBytes ∧
      h'.lines.length ≤ lines.length := by
  induction lines generalizing h with
  | nil =>
    unfold evictLoopChecked evictLoop
    split
    · refine ⟨rfl, ⟨rfl, fun n hn => ha.rows n hn⟩, zero_le, le_rfl⟩
    · have hle : h.bytes ≤ maxBytes := by omega
      exact ⟨rfl, ha, hle, le_rfl⟩
  | cons line lines ih =>
    unfold evictLoopChecked evictLoop
    dsimp only
    split
    · have hbytes : h.bytes = charge line + (lines.map charge).sum + charge h.pending := by
        have := ha.bytes
        simpa only [map_cons, sum_cons] using this
      have hline : charge line < 2 ^ 64 := by omega
      have hle : historyCellsBytes line ≤ h.bytes := by
        rw [historyCellsBytes_eq hline]
        omega
      have hrows : ∀ n, h.projectedRows = some n →
          n = projectedLogicalLineRowCount line width + (lines.map (projectedLogicalLineRowCount · width)).sum := by
        intro n hn
        have := ha.rows n hn
        simpa only [map_cons, sum_cons] using this
      obtain ⟨h', hh'⟩ : ∃ h', h' = { h with
        truncated := true
        bytes := h.bytes - historyCellsBytes line
        projectedRows := h.projectedRows.map (· - projectedLogicalLineRowCount line width) } := ⟨_, rfl⟩
      have hnext : Accounted width { h' with lines } := by
        subst hh'
        constructor
        · dsimp only
          rw [historyCellsBytes_eq hline]
          omega
        · intro n hn
          obtain ⟨m, hm, rfl⟩ := Option.map_eq_some_iff.mp hn
          have := hrows m hm
          dsimp only
          omega
      have hloop := ih hnext (by rw [hh']; dsimp only; omega)
      subst hh'
      refine ⟨?_, hloop.2.1, hloop.2.2.1, Nat.le_succ_of_le hloop.2.2.2⟩
      have hsub : ∀ n, h.projectedRows = some n → projectedLogicalLineRowCount line width ≤ n := fun n hn =>
        (hrows n hn).symm ▸ Nat.le_add_right _ _
      rw [(room (a := 0) (by omega)).1, Option.bind_eq_bind, Option.bind_some, checkedSub_eq hle,
        checkedRows_eq fun n hn => checkedSub_eq (hsub n hn)]
      exact hloop.1
    · have hle : h.bytes ≤ maxBytes := by omega
      exact ⟨rfl, ha, hle, le_rfl⟩

/-- Eviction keeps the account and brings the bytes down to the budget. -/
theorem Accounted.evictToBudget (ha : h.Accounted width) (scrollbackRows maxBytes : Nat) (hroom : h.bytes < 2 ^ 64) :
    let h' := h.evictToBudget scrollbackRows maxBytes width
    h.evictToBudgetChecked scrollbackRows maxBytes width = some h' ∧ h'.Accounted width ∧ h'.bytes ≤ maxBytes ∧
      h'.lines.length ≤ h.lines.length :=
  Accounted.evictLoop ha hroom

end History

/-! ## What rows are charged -/

theorem charge_le_of_sublist {cells cells' : List Cell} (h : cells.Sublist cells') : charge cells ≤ charge cells' := by
  induction h with
  | slnil => exact le_rfl
  | cons c _ ih =>
    rw [charge_cons]
    omega
  | cons_cons c _ ih =>
    rw [charge_cons, charge_cons]
    omega

theorem charge_replicate_blank (n : Nat) (style : StyleId) : charge (List.replicate n (blank style)) = 33 * n := by
  have hblank : (blank style).text.utf8ByteSize = 1 := rfl
  simp only [charge, map_replicate, sum_replicate, hblank, CELL_SIZE, smul_eq_mul]
  omega

theorem charge_padBlank_le (cells : List Cell) (len : Nat) : charge (padBlank cells len) ≤ charge cells + 33 * len := by
  simp [padBlank, charge_replicate_blank]

theorem charge_set_le (cells : List Cell) (col : Nat) (c : Cell) :
    charge (cells.set col c) ≤ charge cells + charge [c] := by
  induction cells generalizing col with
  | nil => exact zero_le
  | cons d cells ih =>
    cases col with
    | zero =>
      simp only [set_cons_zero, charge_cons]
      omega
    | succ col =>
      have h := ih col
      rw [set_cons_succ, charge_cons, charge_cons d]
      omega

variable (row : PhysicalRow)

/-- The blanks that fill up a row are all that its cells in a line cost more than its own. -/
theorem charge_rowLogicalCells_le (width : Nat) :
    charge (rowLogicalCells row width) ≤ charge row.cells + 33 * width := by
  have hfilter := charge_le_of_sublist (filter_sublist (l := row.visualCells width) (p := fun c => !c.wideContinuation))
  have hpad := charge_padBlank_le (row.cells.take width) width
  have htake := charge_le_of_sublist (take_sublist width row.cells)
  unfold visualCells at hfilter
  unfold rowLogicalCells visualCells
  omega

theorem charge_eraseFilled_le (width : Nat) (style : StyleId) :
    charge (eraseFilled width style).cells ≤ 33 * width := by
  unfold eraseFilled
  split
  · exact zero_le
  · exact (charge_replicate_blank width style).le

theorem charge_setCell_blank_le (col : Nat) (style : StyleId) :
    charge (row.setCell col (blank style)).cells ≤ charge row.cells + 33 * (col + 2) := by
  have htrim := charge_trim_le ((padBlank row.cells (col + 1)).set col (blank style))
  have hset := charge_set_le (padBlank row.cells (col + 1)) col (blank style)
  have hpad := charge_padBlank_le row.cells (col + 1)
  have hblank : charge [blank style] = 33 := rfl
  unfold setCell
  dsimp only
  omega

theorem charge_blankGlyph_le {col : Nat} (hcol : col < row.cells.length) (oldWidth : Nat) (style : StyleId) :
    charge (row.blankGlyph col oldWidth style).cells ≤ 67 * charge row.cells + 200 := by
  have hlen := length_le_charge row.cells
  have hfirst := charge_setCell_blank_le row col style
  have hsecond := charge_setCell_blank_le (row.setCell col (blank style)) (col + 1) style
  unfold blankGlyph
  dsimp only
  split <;> omega

namespace TerminalGrid
variable {g : TerminalGrid} {u : Unicode}

/-! ## Room for the rows that scroll out -/

/-- The lines and each row of the main screen are within a bound. -/
structure Fits (bound : Nat) (g : TerminalGrid) : Prop where
  lines : g.history.lines.length ≤ bound
  rows : ∀ row ∈ g.mainRows, charge row.cells ≤ bound

variable {bound : Nat}

theorem Fits.mono {bound' : Nat} (h : g.Fits bound) (hle : bound ≤ bound') : g.Fits bound' :=
  ⟨h.lines.trans hle, fun row hrow => (h.rows row hrow).trans hle⟩

theorem Fits.modifyRow (h : g.Fits bound) {i : Nat} {f : PhysicalRow → PhysicalRow}
    (hf : g.mode = .main → ∀ row, g.mainRows[i]? = some row → charge (f row).cells ≤ bound) :
    (g.modifyActiveRow i f).Fits bound := by
  unfold modifyActiveRow
  split
  · next hmode =>
    refine ⟨h.lines, ?_⟩
    intro row hrow
    obtain ⟨j, hj⟩ := mem_iff_getElem?.mp hrow
    rw [getElem?_modify] at hj
    split at hj
    · rename_i hij
      subst hij
      obtain ⟨old, hold, rfl⟩ := Option.map_eq_some_iff.mp hj
      exact hf hmode old hold
    · have hold : g.mainRows[j]? = some row := by simpa using hj
      exact h.rows row (mem_of_getElem? hold)
  · -- the other screen is changed, whose rows never scroll out
    exact ⟨h.lines, h.rows⟩

theorem Fits.eraseStyle (h : g.Fits bound) : g.eraseStyle.2.Fits bound := by
  unfold TerminalGrid.eraseStyle
  dsimp only
  split <;> exact ⟨h.lines, h.rows⟩

theorem Fits.viewportRow (h : g.Fits bound) (hmode : g.mode = .main) (i : Nat) :
    charge (g.viewportRow i).cells ≤ bound := by
  unfold TerminalGrid.viewportRow activeRows
  rw [hmode]
  rw [getD_eq_getElem?_getD]
  cases hrow : g.mainRows[i]? with
  | none => exact zero_le
  | some row => exact h.rows row (mem_of_getElem? hrow)

theorem Fits.setViewportRow (h : g.Fits bound) (i : Nat) {value : PhysicalRow}
    (hvalue : g.mode = .main → charge value.cells ≤ bound) : (g.setViewportRow i value).Fits bound :=
  h.modifyRow fun hmode _ _ => hvalue hmode

/-- The counters are right, within the budget, at a width of a terminal. -/
structure Ledger (g : TerminalGrid) : Prop where
  width : g.width ≤ 65535
  account : g.history.Accounted g.width
  budget : g.history.bytes ≤ HISTORY_BUDGET

structure Quiet (g g' : TerminalGrid) : Prop where
  history : g'.history = g.history
  width : g'.width = g.width

theorem Ledger.quiet {g' : TerminalGrid} (h : g.Ledger) (hq : Quiet g g') : g'.Ledger := by
  constructor
  · rw [hq.width]
    exact h.width
  · rw [hq.history, hq.width]
    exact h.account
  · rw [hq.history]
    exact h.budget

/-- Changes at which no row scrolls out keep the counters right. -/
theorem Ledger.still {g' : TerminalGrid} (h : g.Ledger) (hs : Still u g g') : g'.Ledger := by
  induction hs with
  | refl => exact h
  | tail _ hlast ih =>
    have hwidth := hlast.1.frame.1
    rcases hlast.2 with hkept | herased
    · exact ih.quiet ⟨hkept, hwidth⟩
    · exact ⟨hwidth.trans_le ih.width, herased ▸ accounted_empty _ _, herased ▸ zero_le⟩

theorem Ledger.switch {g' : TerminalGrid} (h : g.Ledger) (hs : Switch g g') : g'.Ledger := by
  cases hs with
  | protocol p =>
    unfold setProtocol
    split <;> exact { h with }
  | alternate mode enabled =>
    unfold setAlternateMode
    repeat' split
    all_goals exact { h with }
  | reset =>
    unfold TerminalGrid.reset
    split
    · rename_i fresh hnew
      unfold new at hnew
      split at hnew
      · cases hnew
      · cases hnew
        exact ⟨min_le_right _ _, accounted_empty _ _, zero_le⟩
    · exact h

theorem Ledger.modifyActiveRow (h : g.Ledger) (i : Nat) (f : PhysicalRow → PhysicalRow) :
    (g.modifyActiveRow i f).Ledger := by
  unfold TerminalGrid.modifyActiveRow
  split <;> exact { h with }

def scrolledOut (g : TerminalGrid) (row : PhysicalRow) : History :=
  (g.history.pushRow g.width row).evictToBudget g.limits.scrollbackRows HISTORY_BUDGET g.width

def scrolledOutChecked (g : TerminalGrid) (row : PhysicalRow) : Option History :=
  (g.history.pushRowChecked g.width row).bind fun h =>
    h.evictToBudgetChecked g.limits.scrollbackRows HISTORY_BUDGET g.width

theorem length_pushRow_le (width : Nat) (h : History) (row : PhysicalRow) :
    (h.pushRow width row).lines.length ≤ h.lines.length + 1 := by
  unfold pushRow
  split
  · exact Nat.le_succ _
  · simp [pushLine]

/-- A row that fits scrolls out without a counter that saturates or underflows. -/
theorem Ledger.scrolledOut (h : g.Ledger) (row : PhysicalRow) (hlines : g.history.lines.length ≤ 2 ^ 60)
    (hrow : charge row.cells ≤ 2 ^ 60) :
    g.scrolledOutChecked row = some (g.scrolledOut row) ∧ (g.scrolledOut row).Accounted g.width ∧
      (g.scrolledOut row).bytes ≤ HISTORY_BUDGET ∧ (g.scrolledOut row).lines.length ≤ g.history.lines.length + 1 := by
  have hcells := charge_rowLogicalCells_le row g.width
  have hwidth := h.width
  have hbudget := h.budget
  unfold HISTORY_BUDGET at hbudget
  have hpush := h.account.pushRow row (by omega)
  have hlen := length_pushRow_le g.width g.history row
  -- what eviction finds is the account of the pushed history, which is far from the largest counter
  have hbytes : (g.history.pushRow g.width row).bytes < 2 ^ 64 := by
    unfold pushRow
    split <;> exact (min_le_right _ _).trans_lt (by decide)
  have hevict := hpush.2.evictToBudget g.limits.scrollbackRows HISTORY_BUDGET hbytes
  refine ⟨?_, hevict.2.1, hevict.2.2.1, hevict.2.2.2.trans hlen⟩
  unfold scrolledOutChecked
  rw [hpush.1]
  exact hevict.1

/-- A row scrolls out of the screen, and the bound of what is kept grows by one. -/
theorem Ledger.scrollUpOne (u : Unicode) (h : g.Ledger) (hf : g.Fits bound) (hlow : 2 ^ 22 ≤ bound)
    (hhigh : bound ≤ 2 ^ 60) :
    g.scrollUpOne.Ledger ∧ g.scrollUpOne.Fits (bound + 1) := by
  have he : g.eraseStyle.2.Ledger := h.still (@still_eraseStyle u g).1
  have hfe := hf.eraseStyle
  unfold TerminalGrid.scrollUpOne
  dsimp only
  generalize g.eraseStyle.2 = e at he hfe
  have hfill := charge_eraseFilled_le e.width g.eraseStyle.1
  have hwidth := he.width
  split
  · -- the rows that stay, and a filled one
    have hnew : ∀ row ∈ e.mainRows.drop 1 ++ [eraseFilled e.width g.eraseStyle.1], charge row.cells ≤ bound + 1 := by
      intro row hrow
      rcases mem_append.mp hrow with hold | hlast
      · exact (hfe.rows row (mem_of_mem_drop hold)).trans (Nat.le_succ _)
      · rw [mem_singleton.mp hlast]
        omega
    cases hmain : e.mainRows with
    | nil =>
      have hbudget := he.budget
      unfold HISTORY_BUDGET at hbudget
      have hevict := he.account.evictToBudget e.limits.scrollbackRows HISTORY_BUDGET (by omega)
      rw [hmain] at hnew
      exact ⟨⟨he.width, hevict.2.1, hevict.2.2.1⟩, ⟨(hevict.2.2.2.trans hfe.lines).trans (Nat.le_succ _), hnew⟩⟩
    | cons row rest =>
      have hout := he.scrolledOut row (hfe.lines.trans hhigh)
        ((hfe.rows row (by rw [hmain]; exact mem_cons_self)).trans hhigh)
      rw [hmain] at hnew
      exact ⟨⟨he.width, hout.2.1, hout.2.2.1⟩, ⟨hout.2.2.2.trans (Nat.succ_le_succ hfe.lines), hnew⟩⟩
  · split
    · exact ⟨{ he with }, hfe.lines.trans (Nat.le_succ _), fun row hrow => (hfe.rows row hrow).trans (Nat.le_succ _)⟩
    · exact ⟨he, hfe.mono (Nat.le_succ _)⟩

theorem Fits.scrollRegionUp (h : g.Fits bound) (hwidth : g.width ≤ 65535) (hlow : 2 ^ 22 ≤ bound)
    (top bottom count : Nat) :
    (g.scrollRegionUp top bottom count).Fits bound := by
  unfold TerminalGrid.scrollRegionUp
  split
  · exact h
  · have hfe := h.eraseStyle
    have hwe : g.eraseStyle.2.width ≤ 65535 := (sameFrame_eraseStyle g).width.trans_le hwidth
    generalize g.eraseStyle.2 = e at hfe hwe
    induction min count (bottom - top + 1) generalizing e with
    | zero => exact hfe
    | succ n ih =>
      have hmoved := List.foldlRecOn (motive := fun e' : TerminalGrid => e'.Fits bound ∧
        e'.width = e.width) (List.range' top (bottom - top))
        (fun g row => g.setViewportRow row (g.viewportRow (row + 1))) ⟨hfe, rfl⟩ fun e' he' row _ =>
          ⟨he'.1.setViewportRow row fun hmode => he'.1.viewportRow hmode (row + 1),
            (sameFrame_modifyActiveRow e' _ _).width.trans he'.2⟩
      have hfill := charge_eraseFilled_le e.width g.eraseStyle.1
      have honce : (scrollRegionUpOnce top bottom g.eraseStyle.1 e).Fits bound := by
        refine hmoved.1.setViewportRow bottom fun _ => ?_
        rw [hmoved.2]
        omega
      exact ih _ honce (((sameFrame_modifyActiveRow _ _ _).width.trans hmoved.2).trans_le hwe)

section
variable (h : g.Ledger) (hf : g.Fits bound) (hlow : 2 ^ 22 ≤ bound)
include h hf hlow

theorem Ledger.linefeed (u : Unicode) (hhigh : bound ≤ 2 ^ 60) :
    g.linefeed.Ledger ∧ g.linefeed.Fits (bound + 1) := by
  have hp : Ledger { g with pendingWrap := false } := { h with }
  have hpf : Fits bound { g with pendingWrap := false } := { hf with }
  have hpf1 := hpf.mono (Nat.le_succ bound)
  unfold TerminalGrid.linefeed
  dsimp only
  generalize effectiveScrollRegion { g with pendingWrap := false } = region
  split
  · split
    · have hup := hp.scrollUpOne u hpf hlow hhigh
      exact ⟨{ hup.1 with }, { hup.2 with }⟩
    · have hup := hp.still (@still_scrollRegionUp u _ region.1 region.2 1)
      have hupf := hpf1.scrollRegionUp hp.width (by omega) region.1 region.2 1
      exact ⟨{ hup with }, { hupf with }⟩
  · split
    · exact ⟨{ hp with }, { hpf1 with }⟩
    · exact ⟨{ hp with }, { hpf1 with }⟩

theorem Ledger.wrapLine (u : Unicode) (hhigh : bound ≤ 2 ^ 60) :
    g.wrapLine.Ledger ∧ g.wrapLine.Fits (bound + 1) := by
  have hm := h.modifyActiveRow g.cursor.row fun row => { row with wrapped := true }
  have hmf : (g.modifyActiveRow g.cursor.row fun row => { row with wrapped := true }).Fits bound :=
    hf.modifyRow fun _ row hrow => hf.rows row (mem_of_getElem? hrow)
  unfold TerminalGrid.wrapLine
  generalize g.modifyActiveRow g.cursor.row (fun row => { row with wrapped := true }) = e at hm hmf
  have he : Ledger { e with cursor := { e.cursor with col := 0 } } := { hm with }
  have hef : Fits bound { e with cursor := { e.cursor with col := 0 } } := { hmf with }
  exact he.linefeed hef hlow u hhigh

/-- Up to two rows scroll out before a glyph is put down. -/
theorem Ledger.wrapBefore (u : Unicode) (hhigh : bound < 2 ^ 60) (charWidth : Nat) :
    (g.wrapBefore charWidth).Ledger := by
  have hsecond (e : TerminalGrid) (he : e.Ledger) (hef : e.Fits (bound + 1)) :
      (if e.autowrap ∧ e.cursor.col + charWidth > e.width then e.wrapLine else e).Ledger := by
    split
    · exact (he.wrapLine hef (by omega) u (by omega)).1
    · exact he
  unfold TerminalGrid.wrapBefore
  by_cases hpending : g.autowrap ∧ g.pendingWrap
  · have hp : Ledger { g with pendingWrap := false } := { h with }
    have hpf : Fits bound { g with pendingWrap := false } := { hf with }
    have hfirst := hp.wrapLine hpf hlow u hhigh.le
    rw [if_pos hpending]
    exact hsecond _ hfirst.1 hfirst.2
  · rw [if_neg hpending]
    exact hsecond g h (hf.mono (Nat.le_succ _))

theorem Ledger.printGrapheme (hhigh : bound < 2 ^ 60) {text : String} {charWidth : Nat}
    (hdraws : u.Draws text charWidth) :
    (g.printGrapheme text charWidth).Ledger := by
  have hw := h.wrapBefore hf hlow u hhigh charWidth
  unfold TerminalGrid.printGrapheme
  dsimp only
  generalize g.wrapBefore charWidth = e at hw
  have hi : Ledger { e with palette := (e.palette.intern e.currentStyle).2 } := { hw with }
  have hstyle : Has { e with palette := (e.palette.intern e.currentStyle).2 } (e.palette.intern e.currentStyle).1 :=
    .inr (intern_has _ _)
  split
  · have hclear := hi.modifyActiveRow e.cursor.row
    exact { hclear _ with }
  · exact hi.still (still_placeGlyph hstyle hdraws).bump

theorem Ledger.reprintGlyph (hhigh : bound ≤ 2 ^ 50) {col : Nat} {cell : Cell}
    (hcell : g.graphemeCell = some (col, cell)) {text : String}
    {width : Nat} (hdraws : u.Draws text width) : (g.reprintGlyph col cell text width).Ledger := by
  have hb := h.modifyActiveRow g.cursor.row fun r => r.blankGlyph col cell.width cell.style
  -- the glyph is in the row of the cursor, so that the row is not padded to a column far behind it
  have hcol : col < (g.viewportRow g.cursor.row).cells.length := by
    simp only [graphemeCell, Option.bind_eq_bind, Option.bind_eq_some_iff] at hcell
    obtain ⟨c, -, d, hd, heq⟩ := hcell
    cases heq
    exact (List.getElem?_eq_some_iff.mp hd).1
  have hbf : (g.modifyActiveRow g.cursor.row fun r =>
    r.blankGlyph col cell.width cell.style).Fits (67 * bound + 200) := by
    refine (hf.mono (by omega)).modifyRow fun hmode row hrow => ?_
    have heq : g.viewportRow g.cursor.row = row := by
      simp [viewportRow, activeRows, hmode, hrow]
    rw [heq] at hcol
    have hblank := charge_blankGlyph_le row hcol cell.width cell.style
    have hle := hf.rows row (mem_of_getElem? hrow)
    omega
  generalize he : g.modifyActiveRow g.cursor.row (fun r => r.blankGlyph col cell.width cell.style) = e at hb hbf
  have hprint := Ledger.printGrapheme (g := { e with
    cursor := { g.cursor with col }, pendingWrap := false, currentStyle := g.palette.get cell.style })
    { hb with } { hbf with } (by omega) (by omega) hdraws
  unfold TerminalGrid.reprintGlyph
  rw [he]
  exact { hprint with }

/-- A printed character scrolls at most what fits. -/
theorem Ledger.printChar (hhigh : bound ≤ 2 ^ 50) (ch : Char) :
    (g.printChar u ch).Ledger := by
  unfold TerminalGrid.printChar
  split
  · rename_i g' hext
    have hg' : g'.Ledger := by
      obtain ⟨-, col, cell, hcell, ⟨-, rfl⟩ | rfl⟩ := extendGrapheme_cases hext
      · exact h.modifyActiveRow _ _
      · exact h.reprintGlyph hf hlow hhigh hcell (.inr rfl)
    exact { hg' with }
  · dsimp only
    split
    · exact h
    · exact h.printGrapheme hf hlow (by omega) (.inl ⟨ch, rfl, rfl, by omega⟩)

end

end TerminalGrid

/-! ## Calls of the decoder -/

def rowCharge (width : Nat) (row : PhysicalRow) : Nat := CELL_SIZE + charge row.cells + 33 * width

def Action.repeats : Action → Nat
  | .csiDispatch params intermediates ignore 'b' =>
    if ignore || !intermediates.isEmpty || params.any fun group => group.length ≠ 1 then 0
    else oneBased (flattenParams params).head?
  | _ => 0

namespace TerminalGrid
variable {g : TerminalGrid} {u : Unicode}

/-- The main screen and the history lie within `2 ^ 46` bytes, less than a process can address. -/
structure InMemory (g : TerminalGrid) : Prop where
  lines : g.history.lines.length ≤ 2 ^ 46
  rows : (g.mainRows.map (rowCharge g.width)).sum ≤ 2 ^ 46

instance (g : TerminalGrid) : Decidable g.InMemory :=
  decidable_of_iff (g.history.lines.length ≤ 2 ^ 46 ∧ (g.mainRows.map (rowCharge g.width)).sum ≤ 2 ^ 46)
    ⟨fun h => ⟨h.1, h.2⟩, fun h => ⟨h.lines, h.rows⟩⟩

theorem InMemory.fits (h : g.InMemory) : g.Fits (2 ^ 46) := by
  refine ⟨h.lines, fun row hrow => ?_⟩
  have hle := single_le_sum (fun _ _ => zero_le) _ (mem_map_of_mem (f := rowCharge g.width) hrow)
  have hsum := h.rows
  unfold rowCharge at hle hsum
  omega

section
variable (h : g.Ledger)
include h

theorem Ledger.linefeed_of_inMemory (u : Unicode) (hmem : g.InMemory) : g.linefeed.Ledger :=
  (h.linefeed hmem.fits (by decide) u (by decide)).1

theorem Ledger.escDispatch (u : Unicode) (hmem : g.InMemory) (intermediates : List UInt8) (ignore : Bool)
    (byte : UInt8) :
    (g.escDispatch intermediates ignore byte).Ledger := by
  rcases @escDispatch_cases u g intermediates ignore byte with hs | hs | hs
  · exact h.still hs
  · exact (h.linefeed_of_inMemory u hmem).still hs
  · exact h.switch hs

theorem Ledger.execute (u : Unicode) (hmem : g.InMemory) (byte : UInt8) : (g.execute byte).Ledger := by
  have hfeed := h.linefeed_of_inMemory u hmem
  unfold TerminalGrid.execute
  split
  · exact hfeed
  · exact hfeed
  · exact hfeed
  all_goals exact { h with }

/-- A repeated character, if the grid is in memory before each time it is printed. -/
theorem Ledger.repeatChar (ch : Char) (n : Nat)
    (hmem : ∀ i < n, ((fun g : TerminalGrid => g.printChar u ch)^[i] g).InMemory) :
    ((fun g : TerminalGrid => g.printChar u ch)^[n] g).Ledger := by
  induction n with
  | zero => exact h
  | succ n ih =>
    have hn := ih fun i hi => hmem i (Nat.lt_succ_of_lt hi)
    rw [Function.iterate_succ_apply']
    exact hn.printChar (hmem n (Nat.lt_succ_self n)).fits (by decide) (by decide) ch

theorem Ledger.setPrivateModes (u : Unicode) (enabled : Bool) (values : List Int) :
    (values.foldl (setPrivateMode enabled) g).Ledger :=
  List.foldlRecOn (motive := Ledger) values _ h fun e he value _ =>
    (@setPrivateMode_cases u enabled e value).elim he.still he.switch

theorem Ledger.csiDispatch (values : List Int) (isPrivate : Bool) (action : Char)
    (hmem : ∀ ch, action = 'b' → g.characters.last = some ch →
      ∀ i < oneBased values.head?, ((fun g : TerminalGrid => g.printChar u ch)^[i] g).InMemory) :
    (g.csiDispatch u values isPrivate action).Ledger := by
  by_cases hb : action = 'b'
  · subst hb
    rw [csiDispatch_b]
    cases hlast : g.characters.last with
    | none => exact h
    | some ch => exact h.repeatChar ch _ (hmem ch rfl hlast)
  · by_cases hmodes : isPrivate = true ∧ (action = 'h' ∨ action = 'l')
    · obtain ⟨rfl, rfl | rfl⟩ := hmodes
      · exact h.setPrivateModes u true values
      · exact h.setPrivateModes u false values
    · refine h.still (still_csiDispatch values (fun hp => ?_) hb)
      exact ⟨fun ha => hmodes ⟨hp, .inl ha⟩, fun ha => hmodes ⟨hp, .inr ha⟩⟩

end

def visited (u : Unicode) (g : TerminalGrid) (a : Action) : List TerminalGrid :=
  g :: match g.characters.last with
    | some ch => (List.range a.repeats).map fun i => (fun g : TerminalGrid => g.printChar u ch)^[i] g
    | none => []

/-- The counters stay right at every call that begins within memory. -/
theorem Ledger.perform (h : g.Ledger) (a : Action) (hmem : ∀ e ∈ g.visited u a, e.InMemory) :
    (g.perform u a).Ledger := by
  have hg : g.InMemory := hmem g mem_cons_self
  cases a with
  | print c =>
    have hlast : Ledger { g with characters := { g.characters with last := some (g.characters.translate c) } } :=
      { h with }
    have hfits : Fits (2 ^ 46) { g with characters := { g.characters with
      last := some (g.characters.translate c) } } := { hg.fits with }
    exact hlast.printChar hfits (by decide) (by decide) _
  | execute byte => exact h.execute u hg byte
  | hook | put | unhook => exact h
  | oscDispatch params bell =>
    rcases oscDispatch_cases g params with hsame | hs
    · exact Eq.ndrec (motive := Ledger) h hsame.symm
    · exact h.switch hs
  | escDispatch intermediates ignore byte => exact h.escDispatch u hg intermediates ignore byte
  | csiDispatch params intermediates ignore action =>
    unfold TerminalGrid.perform
    dsimp only
    split
    · exact h
    · rename_i hheader
      split
      · exact { h with }
      · refine h.csiDispatch _ _ _ fun ch hb hlast i hi => hmem _ ?_
        subst hb
        -- the header is in order, so that the call does print that often
        have hrepeats : Action.repeats (.csiDispatch params intermediates ignore 'b') =
          oneBased (flattenParams params).head? := by
          refine if_neg ?_
          simpa using hheader
        unfold visited
        rw [hlast]
        refine mem_cons_of_mem _ (mem_map.mpr ⟨i, ?_, rfl⟩)
        rw [hrepeats]
        exact mem_range.mpr hi

def visitedAll (u : Unicode) (g : TerminalGrid) : List Action → List TerminalGrid
  | [] => []
  | a :: actions => g.visited u a ++ (g.perform u a).visitedAll u actions

theorem Ledger.performAll (h : g.Ledger) (actions : List Action) (hmem : ∀ e ∈ g.visitedAll u actions, e.InMemory) :
    (actions.foldl (TerminalGrid.perform u) g).Ledger := by
  induction actions generalizing g with
  | nil => exact h
  | cons a actions ih =>
    have hstep := h.perform a fun e he => hmem e (mem_append_left _ he)
    exact ih hstep fun e he => hmem e (mem_append_right _ he)

end TerminalGrid

/-! ## Resizing -/

theorem sum_historyCellsBytes {lines : List LogicalLine} (h : (lines.map charge).sum < 2 ^ 64) :
    (lines.map historyCellsBytes).sum = (lines.map charge).sum := by
  induction lines with
  | nil => rfl
  | cons line lines ih =>
    simp only [map_cons, sum_cons] at h ⊢
    rw [ih (by omega), historyCellsBytes_eq (by omega)]

theorem bytes_eq {lines : List LogicalLine} {pending : List Cell}
    (h : (lines.map charge).sum + charge pending < 2 ^ 64) :
    satAdd (lines.map historyCellsBytes).sum (historyCellsBytes pending) = (lines.map charge).sum + charge pending := by
  rw [sum_historyCellsBytes (by omega), (room h).2.2]

namespace TerminalGrid

theorem sum_charge_liveLoop_le (width : Nat) (logical : List Cell) (rows : List PhysicalRow) :
    ((liveLoop width logical rows).map charge).sum + (liveLoop width logical rows).length ≤
      charge logical + (rows.map (rowCharge width)).sum + 1 := by
  induction rows generalizing logical with
  | nil =>
    have htrim := charge_trim_le logical
    rw [liveLoop]
    split
    · simp
    · simp only [map_cons, map_nil, sum_cons, sum_nil, length_singleton]
      omega
  | cons row rows ih =>
    have hrow := charge_rowLogicalCells_le row width
    have htrim := charge_trim_le (logical ++ rowLogicalCells row width)
    rw [charge_append] at htrim
    rw [liveLoop]
    rw [map_cons, sum_cons]
    split
    · have h := ih (logical ++ rowLogicalCells row width)
      rw [charge_append] at h
      unfold rowCharge at h ⊢
      omega
    · have h := ih []
      rw [charge_nil] at h
      simp only [map_cons, sum_cons, length_cons, rowCharge, CELL_SIZE]
      omega

theorem sum_charge_liveLogicalLines_le (width : Nat) (pending : List Cell) (rows : List PhysicalRow) :
    ((liveLogicalLines width pending rows).map charge).sum + (liveLogicalLines width pending rows).length ≤
      charge pending + (rows.map (rowCharge width)).sum + 1 := by
  have h := sum_charge_liveLoop_le width pending rows
  unfold liveLogicalLines
  dsimp only
  split
  · simp
  · exact h

theorem trimResizeRows_sublist (rows : List PhysicalRow) (cursorRow : Nat) :
    (trimResizeRows rows cursorRow).Sublist rows := by
  fun_induction trimResizeRows rows cursorRow with
  | case1 rows row h hcond ih => exact ih.trans (dropLast_sublist rows)
  | case2 | case3 => exact List.Sublist.refl _

end TerminalGrid

namespace History

def placeLinesChecked (width newWidth keepStart : Nat) (rowIndex : Nat) (h : History) :
    List LogicalLine → Option History
  | [] => some h
  | line :: lines =>
    let lineEnd := rowIndex + projectedLogicalLineRowCount line newWidth
    if lineEnd ≤ keepStart then
      (h.pushLineChecked width line).bind fun h => placeLinesChecked width newWidth keepStart lineEnd h lines
    else placeLinesChecked width newWidth keepStart lineEnd h lines

end History

namespace TerminalGrid
variable {g : TerminalGrid} {u : Unicode}

theorem length_placeLines_rows (width newWidth keepStart rowIndex : Nat) (p : Placed) (lines : List LogicalLine) :
    (placeLines width newWidth keepStart rowIndex p lines).rows.length =
      p.rows.length + (rowIndex + (rowCounts lines newWidth).sum - max rowIndex keepStart) := by
  induction lines generalizing rowIndex p with
  | nil =>
    simp [placeLines, rowCounts]
  | cons line lines ih =>
    have hcount := projectedLogicalLineRowCount_eq line newWidth
    rw [placeLines]
    simp only [rowCounts, map_cons, sum_cons] at ih ⊢
    split
    · rw [ih]
      dsimp only
      omega
    · rw [ih]
      simp only [length_append, length_drop]
      omega

/-- The lines of a resize are placed without a counter that saturates. -/
theorem placeLinesChecked_eq (width newWidth keepStart rowIndex : Nat) (p : Placed) (lines : List LogicalLine)
    (hrows : p.history.RowsCounted width)
    (hroom : p.history.bytes + (p.history.lines.map charge).sum + p.history.lines.length +
      2 * ((lines.map charge).sum + lines.length) < 2 ^ 64) :
    let h := (placeLines width newWidth keepStart rowIndex p lines).history
    p.history.placeLinesChecked width newWidth keepStart rowIndex lines = some h ∧
      h.RowsCounted width ∧ (h.lines.map charge).sum + h.lines.length ≤
        (p.history.lines.map charge).sum + p.history.lines.length + ((lines.map charge).sum + lines.length) := by
  induction lines generalizing rowIndex p with
  | nil => exact ⟨rfl, hrows, Nat.le_add_right _ _⟩
  | cons line lines ih =>
    simp only [map_cons, sum_cons, length_cons] at hroom ⊢
    rw [placeLines, placeLinesChecked]
    split
    · have hnewRows : ∀ n, p.history.projectedRows = some n → n + projectedLogicalLineRowCount line width < 2 ^ 64 := by
        intro n hn
        have hsum := sum_rowCount_le p.history.lines width
        have hcount := projectedLogicalLineRowCount_le line width
        have := hrows n hn
        omega
      have hpush : p.history.pushLineChecked width line = some (p.history.pushLine width line) :=
        pushLineChecked_eq (by omega) hnewRows
      have hlines : ((p.history.pushLine width line).lines.map charge).sum +
        (p.history.pushLine width line).lines.length =
          (p.history.lines.map charge).sum + charge line + (p.history.lines.length + 1) := by simp [pushLine]
      have hbytes : (p.history.pushLine width line).bytes ≤ p.history.bytes + charge line := (room (by omega)).2.2.le
      have hnext := ih (rowIndex + projectedLogicalLineRowCount line newWidth)
        { p with history := p.history.pushLine width line } (rows_pushLine hrows hnewRows) (by
          dsimp only
          omega)
      rw [hpush]
      refine ⟨hnext.1, hnext.2.1, hnext.2.2.trans ?_⟩
      dsimp only
      omega
    · have hnext := ih (rowIndex + projectedLogicalLineRowCount line newWidth)
        { p with
          pending := p.pending ++ ((projectLogicalLine line newWidth).take (keepStart - rowIndex)).flatMap
            (rowLogicalCells · newWidth)
          rows := p.rows ++ (projectLogicalLine line newWidth).drop (keepStart - rowIndex) } hrows (by
          dsimp only
          omega)
      refine ⟨hnext.1, hnext.2.1, hnext.2.2.trans ?_⟩
      dsimp only
      omega

def placement (g : TerminalGrid) (newWidth newHeight : Nat) : Placed :=
  let lines := g.resizeLines g.mainCursor
  placeLines g.width newWidth (keepStart lines newWidth newHeight)
    0 { history := { g.history with pending := [] } } lines

/-- The rows that are placed fill the screen, and none is left over that would have to scroll out. -/
theorem length_padRows_placement (g : TerminalGrid) (newWidth newHeight : Nat) :
    (padRows (g.placement newWidth newHeight).rows newHeight).length = newHeight := by
  have hlen : (g.placement newWidth newHeight).rows.length = _ :=
    length_placeLines_rows g.width newWidth (keepStart (g.resizeLines g.mainCursor) newWidth newHeight) 0
      { history := { g.history with pending := [] } } (g.resizeLines g.mainCursor)
  unfold keepStart at hlen
  simp only [length_nil] at hlen
  unfold padRows
  rw [length_append, length_replicate]
  omega

def resizedPending (g : TerminalGrid) (newWidth newHeight : Nat) : List Cell :=
  trimTrailingBlankCells (g.placement newWidth newHeight).pending

def resizedHistoryChecked (g : TerminalGrid) (newWidth newHeight : Nat) : Option History := do
  let lines := g.resizeLines g.mainCursor
  let placed ← { g.history with pending := [] }.placeLinesChecked g.width newWidth
    (keepStart lines newWidth newHeight) 0 lines
  let pending := g.resizedPending newWidth newHeight
  let total ← if (placed.lines.map charge).sum < 2 ^ 64 then some (placed.lines.map charge).sum else none
  let bytes ← checkedAdd total (← checkedCharge pending)
  let projectedRows := if g.width ≠ newWidth then none else placed.projectedRows
  { placed with pending, bytes, projectedRows }.evictToBudgetChecked g.limits.scrollbackRows HISTORY_BUDGET newWidth

/-- What a resize builds lies within `2 ^ 46` bytes too. -/
structure ResizeFits (g : TerminalGrid) (newWidth newHeight : Nat) : Prop where
  before : g.InMemory
  pending : charge (g.resizedPending newWidth newHeight) ≤ 2 ^ 46

def resizedHistory (g : TerminalGrid) (newWidth newHeight : Nat) : History :=
  { (g.placement newWidth newHeight).history with
    pending := g.resizedPending newWidth newHeight
    bytes := satAdd ((g.placement newWidth newHeight).history.lines.map historyCellsBytes).sum
      (historyCellsBytes (g.resizedPending newWidth newHeight))
    projectedRows := if g.width ≠ newWidth then none else (g.placement newWidth newHeight).history.projectedRows }

section
variable (g : TerminalGrid) (newWidth newHeight : Nat)

theorem resizeRows_eq : g.resizeRows newWidth newHeight (g.resizeLines g.mainCursor) =
    ({ g.resizedHistory newWidth newHeight with
      projectedRows := (g.placement newWidth newHeight).history.projectedRows },
      padRows (g.placement newWidth newHeight).rows newHeight) := by
  have hlen := length_padRows_placement g newWidth newHeight
  unfold placement at hlen
  unfold resizeRows
  dsimp only
  rw [hlen, Nat.sub_self]
  rfl

theorem resized_history :
    (g.resized newWidth newHeight).history =
      (g.resizedHistory newWidth newHeight).evictToBudget g.limits.scrollbackRows HISTORY_BUDGET newWidth := by
  have hsize : (if g.width ≠ newWidth then
        { (g.resizeRows newWidth newHeight (g.resizeLines g.mainCursor)).1 with projectedRows := none }
      else (g.resizeRows newWidth newHeight (g.resizeLines g.mainCursor)).1) = g.resizedHistory newWidth newHeight := by
    rw [resizeRows_eq]
    unfold resizedHistory
    split <;> rfl
  rw [← hsize]
  unfold resized resizeMainViewport setMainCursor
  cases g.mode <;> rfl

theorem resized_mainRows :
    (g.resized newWidth newHeight).mainRows = padRows (g.placement newWidth newHeight).rows newHeight := by
  have hrows : (g.resized newWidth newHeight).mainRows =
    (g.resizeRows newWidth newHeight (g.resizeLines g.mainCursor)).2 := by
    unfold resized resizeMainViewport setMainCursor
    cases g.mode <;> rfl
  rw [hrows, resizeRows_eq]

theorem resized_width : (g.resized newWidth newHeight).width = newWidth := rfl

end

/-- Placing the lines does not saturate a counter, and leaves the row counter right. -/
theorem Ledger.placement (h : g.Ledger) (hmem : g.InMemory) (newWidth newHeight : Nat) :
    let placed := (g.placement newWidth newHeight).history
    { g.history with pending := [] }.placeLinesChecked g.width newWidth
        (keepStart (g.resizeLines g.mainCursor) newWidth newHeight) 0 (g.resizeLines g.mainCursor) = some placed ∧
      placed.RowsCounted g.width ∧ (placed.lines.map charge).sum ≤ 2 ^ 50 := by
  have hlines := hmem.lines
  have hbudget := h.budget
  unfold HISTORY_BUDGET at hbudget
  have hbytes := h.account.bytes
  have htrimmed : ((trimResizeRows g.mainRows g.mainCursor.row).map (rowCharge g.width)).sum ≤ 2 ^ 46 :=
    (((trimResizeRows_sublist g.mainRows g.mainCursor.row).map (rowCharge g.width)).sum_le_sum
      (fun _ _ => zero_le)).trans hmem.rows
  have hlive : ((g.resizeLines g.mainCursor).map charge).sum + (g.resizeLines g.mainCursor).length ≤
      charge g.history.pending + ((trimResizeRows g.mainRows g.mainCursor.row).map (rowCharge g.width)).sum + 1 :=
    sum_charge_liveLogicalLines_le g.width g.history.pending (trimResizeRows g.mainRows g.mainCursor.row)
  have hplace := placeLinesChecked_eq g.width newWidth (keepStart (g.resizeLines g.mainCursor) newWidth newHeight) 0
    { history := { g.history with pending := [] } } (g.resizeLines g.mainCursor) h.account.rows (by
      dsimp only
      omega)
  refine ⟨hplace.1, hplace.2.1, ?_⟩
  have hle : ((g.placement newWidth newHeight).history.lines.map charge).sum +
    (g.placement newWidth newHeight).history.lines.length ≤
      (g.history.lines.map charge).sum + g.history.lines.length +
        (((g.resizeLines g.mainCursor).map charge).sum + (g.resizeLines g.mainCursor).length) := hplace.2.2
  omega

/-- A resize counts anew, and evicts by the counters of the new width. -/
theorem Ledger.resized (h : g.Ledger) {newWidth newHeight : Nat} (hwidth : newWidth ≤ 65535)
    (hfits : g.ResizeFits newWidth newHeight) :
    g.resizedHistoryChecked newWidth newHeight = some (g.resized newWidth newHeight).history ∧
      (g.resized newWidth newHeight).Ledger := by
  obtain ⟨hchecked, hcount, htotal⟩ := h.placement hfits.before newWidth newHeight
  have hpending := hfits.pending
  have hlines : ((g.placement newWidth newHeight).history.lines.map charge).sum < 2 ^ 64 := by omega
  have hroom : ((g.placement newWidth newHeight).history.lines.map charge).sum +
    charge (g.resizedPending newWidth newHeight) < 2 ^ 64 := by
    omega
  have hbytes : (g.resizedHistory newWidth newHeight).bytes =
      ((g.placement newWidth newHeight).history.lines.map charge).sum +
        charge (g.resizedPending newWidth newHeight) := bytes_eq hroom
  have haccount : (g.resizedHistory newWidth newHeight).Accounted newWidth := by
    refine ⟨hbytes, fun n hn => ?_⟩
    unfold resizedHistory at hn
    by_cases hsame : g.width = newWidth
    · rw [if_neg (not_not.mpr hsame)] at hn
      rw [hsame] at hcount
      exact hcount n hn
    · rw [if_pos hsame] at hn
      cases hn
  have hevict := haccount.evictToBudget g.limits.scrollbackRows HISTORY_BUDGET (by omega)
  rw [resized_history]
  constructor
  · unfold resizedHistoryChecked
    dsimp only
    rw [hchecked]
    simp only [Option.bind_eq_bind, Option.bind_some, if_pos hlines, (room hroom).1, (room hroom).2.1]
    rw [← hevict.1]
    unfold resizedHistory
    rw [sum_historyCellsBytes hlines]
  · constructor
    · exact hwidth
    · rw [resized_history]
      exact hevict.2.1
    · rw [resized_history]
      exact hevict.2.2.1

end TerminalGrid

/-! ## Hydration -/

def GridSnapshot.historyRows (u : Unicode) (s : GridSnapshot) (mode : GridMode) : List PhysicalRow :=
  let rows := (match mode with
    | .main => s.rows
    | .alternate => s.mainRows.getD []).map (rowFromSnapshot u s.width)
  rows.take (rows.length - s.height)

/-- What is built from these rows lies within `2 ^ 46` bytes. -/
def GridSnapshot.HydrationFits (u : Unicode) (s : GridSnapshot) : Prop :=
  ∀ mode, let hydrated := hydrateLogicalHistory s.width [] (s.historyRows u mode)
    (hydrated.1.map charge).sum + charge hydrated.2 ≤ 2 ^ 46

theorem History.accounted_ofRows {width : Nat} (truncated : Bool) {rows : List PhysicalRow}
    (hfits : ((hydrateLogicalHistory width [] rows).1.map charge).sum +
      charge (hydrateLogicalHistory width [] rows).2 ≤ 2 ^ 46) :
    (ofRows width truncated rows).Accounted width ∧ (ofRows width truncated rows).bytes < 2 ^ 64 := by
  have hbytes : (ofRows width truncated rows).bytes =
      ((hydrateLogicalHistory width [] rows).1.map charge).sum + charge (hydrateLogicalHistory width [] rows).2 :=
    bytes_eq (by omega)
  refine ⟨⟨hbytes, fun n hn => ?_⟩, by omega⟩
  exact (Option.some.inj hn).symm

theorem TerminalGrid.ledger_hydrate {u : Unicode} {s : GridSnapshot} (hwidth : s.width ≤ 65535)
    (hfits : s.HydrationFits u) (mode : GridMode)
    (limits : GridLimits) : (hydrate u s mode limits).Ledger := by
  obtain ⟨haccount, hbytes⟩ := accounted_ofRows (s.historyTruncated.getD true) (hfits mode)
  have hevict := haccount.evictToBudget limits.scrollbackRows HISTORY_BUDGET hbytes
  exact ⟨hwidth, hevict.2.1, hevict.2.2.1⟩

theorem TerminalGrid.ledger_fromSnapshot {u : Unicode} {s : GridSnapshot} (hwidth : s.width ≤ 65535)
    (hfits : s.HydrationFits u)
    {limits : GridLimits} {g : TerminalGrid} (hg : fromSnapshot u s limits = .ok g) : g.Ledger := by
  unfold fromSnapshot at hg
  split at hg
  · cases hg
  · split at hg
    · cases hg
    · split at hg
      · cases hg
      · cases hg
        exact ledger_hydrate hwidth hfits _ limits

/-! ## Streams -/

namespace TerminalGridStream
variable {u : Unicode}

/-- The grids at which calls begin to print while a chunk is processed. -/
def visited (u : Unicode) (s : TerminalGridStream) (bytes : List UInt8) : List TerminalGrid :=
  s.grid.visitedAll u (s.parser.advance bytes).1

/-- The streams that chunks of bytes, resizes, readings of the row counter and hydrations from
a snapshot of their own lead to, under new limits if one likes, within the memory of a process. -/
inductive Reached (u : Unicode) : TerminalGridStream → Prop where
  | new {width height : Nat} {limits : GridLimits} {s : TerminalGridStream} (hwidth : width ≤ 65535)
      (hnew : new width height limits = .ok s) : Reached u s
  | process {s : TerminalGridStream} (h : Reached u s) (bytes : List UInt8)
      (hmem : ∀ g ∈ s.visited u bytes, g.InMemory) :
      Reached u (s.process u bytes)
  | resize {s s' : TerminalGridStream} (h : Reached u s) {width height : Nat} (hwidth : width ≤ 65535)
      (hfits : s.grid.ResizeFits width height) (hres : s.resize width height = .ok s') : Reached u s'
  | counted {s : TerminalGridStream} (h : Reached u s) : Reached u { s with grid := s.grid.cacheProjectedRows }
  | hydrated {s s' : TerminalGridStream} (h : Reached u s) {offset rows : Nat} {limits : GridLimits}
      (hfits : (s.snapshot offset rows).HydrationFits u)
      (hfrom : fromSnapshot u (s.snapshot offset rows) limits = .ok s') : Reached u s'

variable {s : TerminalGridStream}

theorem ledger_process (h : s.grid.Ledger) (bytes : List UInt8) (hmem : ∀ g ∈ s.visited u bytes, g.InMemory) :
    (s.process u bytes).grid.Ledger := by
  have hall := h.performAll _ hmem
  unfold process
  split
  · exact h
  · dsimp only
    split
    · exact { hall with }
    · exact hall

theorem ledger_resize {s' : TerminalGridStream} (h : s.grid.Ledger) {width height : Nat} (hwidth : width ≤ 65535)
    (hfits : s.grid.ResizeFits width height) (hres : s.resize width height = .ok s') : s'.grid.Ledger := by
  unfold resize TerminalGrid.resize TerminalGrid.resizeWithMainRowShift at hres
  split at hres
  · cases hres
  · split at hres
    · cases hres
      exact h
    · cases hres
      exact (h.resized hwidth hfits).2

/-- By induction on how the stream was reached. -/
theorem Reached.ledger (h : Reached u s) : s.grid.Ledger := by
  induction h with
  | new hwidth hnew =>
    unfold TerminalGridStream.new TerminalGrid.new at hnew
    split at hnew
    · cases hnew
    · cases hnew
      exact ⟨hwidth, accounted_empty _ _, zero_le⟩
  | process _ bytes hmem ih => exact ledger_process ih bytes hmem
  | resize _ hwidth hfits hres ih => exact ledger_resize ih hwidth hfits hres
  | @counted s _ ih =>
    refine ⟨ih.width, ⟨ih.account.bytes, fun n hn => ?_⟩, ih.budget⟩
    cases hcache : s.grid.history.projectedRows with
    | none =>
      unfold TerminalGrid.cacheProjectedRows projectedRowCount at hn
      rw [hcache] at hn
      exact (Option.some.inj hn).symm
    | some m =>
      unfold TerminalGrid.cacheProjectedRows projectedRowCount at hn
      rw [hcache] at hn
      exact (Option.some.inj hn).symm.trans (ih.account.rows m hcache)
  | hydrated _ hfits hfrom _ =>
    unfold fromSnapshot at hfrom
    cases hg : TerminalGrid.fromSnapshot u _ _ with
    | error e =>
      rw [hg] at hfrom
      cases hfrom
    | ok g =>
      rw [hg] at hfrom
      cases hfrom
      exact TerminalGrid.ledger_fromSnapshot (min_le_right _ _) hfits hg

/-- In every reachable stream the byte counter is the charge of the lines and the pending line, the
cached row counter, if there is one, the number of rows of the lines at the current width, and no
scrolled-out row and no resize makes a counter saturate or underflow. -/
theorem reached_accounted {s : TerminalGridStream} (h : Reached u s) :
    s.grid.history.Accounted s.grid.width ∧ s.grid.history.bytes ≤ HISTORY_BUDGET ∧
      (∀ row, s.grid.history.lines.length ≤ 2 ^ 60 → charge row.cells ≤ 2 ^ 60 →
        s.grid.scrolledOutChecked row = some (s.grid.scrolledOut row)) ∧
      ∀ width height, width ≤ 65535 → s.grid.ResizeFits width height →
        s.grid.resizedHistoryChecked width height = some (s.grid.resized width height).history := by
  have hl := h.ledger
  refine ⟨hl.account, hl.budget, ?_, ?_⟩
  · intro row hlines hrow
    exact (hl.scrolledOut row hlines hrow).1
  · intro width height hwidth hfits
    exact (hl.resized hwidth hfits).1

end TerminalGridStream

namespace Sample

def scrolled : TerminalGridStream := stream (unicode fun _ => false) 2 1 [.bytes [0x61, 0x62, 0x63]]

theorem reached_scrolled : TerminalGridStream.Reached (unicode fun _ => false) scrolled := by
  have hnew : Reached (unicode fun _ => false) (stream (unicode fun _ => false) 2 1 []) :=
    .new (show 2 ≤ 65535 by decide) (show TerminalGridStream.new 2 1 {} = _ from rfl)
  exact hnew.process [0x61, 0x62, 0x63] (by decide +kernel)

theorem scrolled_accounted : scrolled.grid.history.bytes = 66 ∧ charge scrolled.grid.history.pending = 66 ∧
    scrolled.grid.history.Accounted 2 :=
  ⟨by decide +kernel, by decide +kernel, (reached_accounted reached_scrolled).1⟩

/-- The pending line has a row, which the cached counter does not count. -/
theorem pending_row_not_cached :
    ∃ s n, Reached (unicode fun _ => false) s ∧ s.grid.history.projectedRows = some n ∧
      n ≠ (s.grid.history.lines.map (projectedLogicalLineRowCount · s.grid.width)).sum +
        projectedPendingRowCount s.grid.history.pending s.grid.width :=
  ⟨_, 0, reached_scrolled.counted, by decide +kernel, by decide +kernel⟩

end Sample
end Bmux.Terminal
