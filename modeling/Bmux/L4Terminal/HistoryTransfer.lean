import Bmux.L4Terminal.Accounting

/-!
# Handing over a line of the history

`historySlice` gives a line of the history in pieces that a caller's budgets admit, and
`HistoryLineAssembly` puts them together again on the other side.

* `exec_append`, `append_refused`: every check of an append comes before its first change, so
  a slice that is refused changes nothing, allocations that fail included.
* `exec_fetch`: as long as each budget admits one more cell, the slices complete the line, or
  one of them is refused because the bytes allowed for the line run out.
* `project_completed`: the rows of an assembled line are those of the line itself.
* `history_transfer`: the three for every line of an accounted history.
* `reflow_projection`: the four loops of the reflow cut a line into the same rows.
-/
namespace Bmux.Terminal
open List TerminalGrid Option

open History (checkedAdd checkedSub)

inductive HistorySliceEnd where
  | continued | hardBreak | opened
  deriving DecidableEq, Repr

structure HistorySlice where
  cells : List Cell
  nextCellOffset : Nat
  ending : HistorySliceEnd
  deriving DecidableEq, Repr

inductive HistorySliceError where
  | staleRevision | unavailable | invalidOffset | budgetExhausted
  deriving DecidableEq, Repr

/-! ## Slices -/

/-- The loop that looks for a column, packages/terminal-grid/src/model.rs:2326-2333: the column
it stops at and the cells from there on -/
def seekColumn (cellOffset offset : Nat) : List Cell → Except HistorySliceError (Nat × List Cell)
  | [] => .ok (offset, [])
  | c :: cells =>
    if offset < cellOffset then
      match checkedAdd offset c.width with
      | some next => seekColumn cellOffset next cells
      | none => .error .invalidOffset
    else .ok (offset, c :: cells)

/-- The loop over the cells that the budgets admit, packages/terminal-grid/src/model.rs:2340-2353:
their columns and the cells -/
def admitCells (maxColumns maxTextBytes columns bytes : Nat) : List Cell → Nat × List Cell
  | [] => (columns, [])
  | c :: cells =>
    match checkedAdd columns c.width, checkedAdd bytes c.text.utf8ByteSize with
    | some nextColumns, some nextBytes =>
      if nextColumns > maxColumns ∨ nextBytes > maxTextBytes then (columns, [])
      else
        let rest := admitCells maxColumns maxTextBytes nextColumns nextBytes cells
        (rest.1, c :: rest.2)
    | _, _ => (columns, [])

namespace TerminalGrid

/-- The line with an index and how it ends, packages/terminal-grid/src/model.rs:2319-2325 -/
def historyLine (g : TerminalGrid) (lineIndex : Nat) : Option (List Cell × HistorySliceEnd) :=
  match g.history.lines[lineIndex]? with
  | some line => some (line, .hardBreak)
  | none => if lineIndex = g.history.lines.length ∧ g.history.pending ≠ [] then some (g.history.pending, .opened)
      else none

/-- mirrors packages/terminal-grid/src/model.rs:2303-2361 -/
def historySlice (g : TerminalGrid) (revision lineIndex cellOffset maxColumns maxTextBytes : Nat) :
    Except HistorySliceError HistorySlice :=
  if revision ≠ g.revision then .error .staleRevision
  else match g.historyLine lineIndex with
    | none => .error .unavailable
    | some (cells, terminalEnd) =>
      match seekColumn cellOffset 0 cells with
      | .error e => .error e
      | .ok (offset, rest) =>
        if offset ≠ cellOffset then .error .invalidOffset
        else
          let admitted := admitCells maxColumns maxTextBytes 0 0 rest
          if admitted.2 = [] ∧ rest ≠ [] then .error .budgetExhausted
          else .ok
            { cells := admitted.2
              nextCellOffset := offset + admitted.1
              ending := if admitted.2.length = rest.length then terminalEnd else .continued }

end TerminalGrid

/-! ## The assembly -/

structure HistoryLineAssembly where
  identity : Nat
  lineIndex : Nat
  nextOffset : Nat := 0
  cells : List Cell := []
  remainingBytes : Nat
  retainTrailingCells : Bool := false
  prefixUnavailable : Bool
  ending : HistorySliceEnd := .continued
  deriving DecidableEq, Repr

/-- A method that may fail part of the way: what it has changed by then stays. -/
abbrev AssemblyM := ExceptT HistorySliceError (StateM HistoryLineAssembly)

namespace HistoryLineAssembly

def new (identity lineIndex maxBytes : Nat) (prefixUnavailable : Bool) : HistoryLineAssembly :=
  { identity, lineIndex, remainingBytes := maxBytes, prefixUnavailable }

/-- The column behind the cells of a slice, packages/terminal-grid/src/model.rs:124-132 -/
def columnAfter (offset : Nat) : List Cell → Option Nat
  | [] => some offset
  | c :: cells => if 1 ≤ c.width ∧ c.width ≤ 2 then (checkedAdd offset c.width).bind (columnAfter · cells) else none

def okOr {α : Type} (value : Option α) (e : HistorySliceError) : AssemblyM α :=
  match value with
  | some a => pure a
  | none => throw e

/-- mirrors packages/terminal-grid/src/model.rs:107-151; `allocated` says whether the two
allocations succeed -/
def append (identity lineIndex offset : Nat) (slice : HistorySlice) (allocated : Bool) : AssemblyM Unit := do
  let a ← get
  if identity ≠ a.identity then throw .staleRevision
  if lineIndex ≠ a.lineIndex ∨ offset ≠ a.nextOffset ∨ a.ending ≠ .continued then throw .invalidOffset
  let next ← okOr (columnAfter offset slice.cells) .invalidOffset
  if next ≠ slice.nextCellOffset ∨ (next = offset ∧ slice.ending = .continued) then throw .invalidOffset
  let remaining ← okOr (checkedSub a.remainingBytes (historyCellsBytes slice.cells)) .budgetExhausted
  if ¬ allocated then throw .budgetExhausted
  modify fun a => { a with cells := a.cells ++ slice.cells }
  modify fun a => { a with nextOffset := next }
  modify fun a => { a with remainingBytes := remaining }
  modify fun a => { a with ending := slice.ending }

variable (cells : List Cell) (width start stop : Nat) (retain : Bool) (a : HistoryLineAssembly)

def completed : Option (List Cell × HistorySliceEnd) :=
  if a.ending ≠ .continued then some (a.cells, a.ending) else none

/-! ## Projection of an assembled line -/

def ROW_SIZE : Nat := 32

def checkedMul (a b : Nat) : Option Nat := if a * b < 2 ^ 64 then some (a * b) else none

/-- The counters of the loop in packages/terminal-grid/src/reflow.rs:130-162 -/
structure Storage where
  row : Nat := 0
  col : Nat := 0
  extent : Nat := 0
  total : Nat := 0
  largest : Nat := 0

/-- A row ends, packages/terminal-grid/src/reflow.rs:139-143 and 156-160 -/
def Storage.endRow (s : Storage) : Option Storage :=
  (checkedAdd s.total s.extent).map fun total =>
    { row := s.row + 1, col := 0, extent := 0, total, largest := max s.largest s.extent }

/-- The loop in packages/terminal-grid/src/reflow.rs:136-162 -/
def storageLoop (width start stop : Nat) (s : Storage) : List Cell → Option Storage
  | [] => some s
  | c :: cells =>
    (if s.col > 0 ∧ s.col + c.extent > width then s.endRow else some s).bind fun s =>
      if s.row ≥ stop then some s
      else
        (if start ≤ s.row then checkedAdd s.col (if c.extent = 2 ∧ s.col + 1 < width then 2 else 1)
          else some s.extent).bind fun extent =>
          let s := { s with extent, col := min (s.col + c.extent) width }
          (if s.col ≥ width then s.endRow else some s).bind fun s => storageLoop width start stop s cells

def projectedCellStorageRetained : Option Nat :=
  let width := max width 1
  (storageLoop width start stop {} (projectionCells cells retain)).bind fun s =>
    (checkedAdd s.total s.extent).bind fun total =>
      (checkedMul total (CELL_SIZE + 1)).bind fun cells =>
        (checkedMul (max s.largest s.extent) CELL_SIZE).bind fun buffer => checkedAdd cells buffer

/-- The loop in packages/terminal-grid/src/reflow.rs:88-107 -/
def admitTextLoop (width start stop row col remaining : Nat) : List Cell → Option Nat
  | [] => some remaining
  | c :: cells =>
    let overflows := col > 0 ∧ col + c.extent > width
    let row := if overflows then row + 1 else row
    let col := if overflows then 0 else col
    if row ≥ stop then some remaining
    else
      (if start ≤ row then checkedSub remaining c.text.utf8ByteSize else some remaining).bind fun remaining =>
        if min (col + c.extent) width ≥ width then admitTextLoop width start stop (row + 1) 0 remaining cells
        else admitTextLoop width start stop row (min (col + c.extent) width) remaining cells

def admitLogicalTextRetained (width start stop remaining : Nat) (retain : Bool) : Option Nat :=
  admitTextLoop (max width 1) start stop 0 0 remaining (projectionCells cells retain)

/-- mirrors packages/terminal-grid/src/reflow.rs:189-212, 246-279 for the rows from `start` to
`stop`, when the allocations succeed -/
def projectLogicalLineWindowRetained : List PhysicalRow :=
  let width := max width 1
  (((visitLogicalRows (projectionCells cells retain) width).drop start).take (stop - start)).map (projectRow width)

/-- The rows that the visitor in packages/terminal-grid/src/reflow.rs:260-277 puts: those in the range, until one is
behind it. -/
def visitedRows (start stop : Nat) (index : Nat) : List LogicalRow → List LogicalRow
  | [] => []
  | r :: rows =>
    if index ≥ stop then []
    else if start ≤ index then r :: visitedRows start stop (index + 1) rows
    else visitedRows start stop (index + 1) rows

/-- mirrors packages/terminal-grid/src/reflow.rs:251-284, when the allocations succeed -/
def pushReflowedLogicalLine : List PhysicalRow :=
  let width := max width 1
  if start ≥ stop then []
  else (visitedRows start stop 0 (visitLogicalRows (projectionCells cells retain) width)).map (projectRow width)

/-- mirrors packages/terminal-grid/src/model.rs:158-213 -/
def project (width start stop budget : Nat) : Except HistorySliceError (List PhysicalRow) :=
  if width = 0 ∨ a.completed = none then .error .unavailable
  else
    let count := projectedLogicalLineRowCountRetained a.cells width a.retainTrailingCells
    let start := min start count
    let stop := min stop count
    let metadata := (checkedMul (stop - start) ROW_SIZE).bind fun bytes =>
      (projectedCellStorageRetained a.cells width start stop a.retainTrailingCells).bind (checkedAdd bytes)
    match metadata.bind (checkedSub budget) with
    | none => .error .budgetExhausted
    | some remaining =>
      match admitLogicalTextRetained a.cells width start stop remaining a.retainTrailingCells with
      | none => .error .budgetExhausted
      | some _ =>
        let rows := projectLogicalLineWindowRetained a.cells width start stop a.retainTrailingCells
        .ok (rows.map fun row => if a.ending = .opened then { row with wrapped := true } else row)

/-! ## Running a method -/

def exec {α : Type} (m : AssemblyM α) (a : HistoryLineAssembly) : Except HistorySliceError α × HistoryLineAssembly :=
    m.run.run a

variable {α β : Type} {a : HistoryLineAssembly}

theorem exec_bind (m : AssemblyM α) (f : α → AssemblyM β) (a : HistoryLineAssembly) :
    exec (m >>= f) a = match exec m a with
      | (.ok x, a') => exec (f x) a'
      | (.error e, a') => (.error e, a') := by
  show (ExceptT.run (m >>= f)).run a = _
  rw [ExceptT.run_bind, StateT.run_bind]
  show (match m.run.run a with | (x, a') => _) = _
  rcases hm : m.run.run a with ⟨x | x, a'⟩
  · simp [exec, hm]
    rfl
  · simp [exec, hm]
    rfl

@[simp] theorem exec_pure (x : α) (a : HistoryLineAssembly) : exec (pure x) a = (.ok x, a) := rfl

@[simp] theorem exec_throw (e : HistorySliceError) (a : HistoryLineAssembly) :
    exec (throw e : AssemblyM α) a = (.error e, a) := rfl

@[simp] theorem exec_get (a : HistoryLineAssembly) : exec get a = (.ok a, a) := rfl

@[simp] theorem exec_modify (f : HistoryLineAssembly → HistoryLineAssembly) (a : HistoryLineAssembly) :
    exec (modify f) a = (.ok (), f a) := rfl

theorem exec_okOr (value : Option α) (e : HistorySliceError) (a : HistoryLineAssembly) :
    exec (okOr value e) a = match value with
      | some x => (.ok x, a)
      | none => (.error e, a) := by
  cases value <;> rfl

/-- All checks come before the first change. -/
theorem exec_append (identity lineIndex offset : Nat) (slice : HistorySlice) (allocated : Bool)
    (a : HistoryLineAssembly) :
    exec (append identity lineIndex offset slice allocated) a =
      if identity ≠ a.identity then (.error .staleRevision, a)
      else if lineIndex ≠ a.lineIndex ∨ offset ≠ a.nextOffset ∨ a.ending ≠ .continued then (.error .invalidOffset, a)
      else match columnAfter offset slice.cells with
        | none => (.error .invalidOffset, a)
        | some next =>
          if next ≠ slice.nextCellOffset ∨ (next = offset ∧ slice.ending = .continued) then (.error .invalidOffset, a)
          else match checkedSub a.remainingBytes (historyCellsBytes slice.cells) with
            | none => (.error .budgetExhausted, a)
            | some remaining =>
              if ¬ allocated then (.error .budgetExhausted, a)
              else (.ok (), { a with
                cells := a.cells ++ slice.cells, nextOffset := next, remainingBytes := remaining,
                ending := slice.ending }) := by
  unfold append
  rw [exec_bind, exec_get]
  dsimp only
  split
  · rw [exec_bind, exec_throw]
  · split
    · rw [exec_bind, exec_throw]
    · rw [exec_bind, exec_okOr]
      cases columnAfter offset slice.cells with
      | none => rfl
      | some next =>
        dsimp only
        split
        · rw [exec_bind, exec_throw]
        · rw [exec_bind, exec_okOr]
          cases checkedSub a.remainingBytes (historyCellsBytes slice.cells) with
          | none => rfl
          | some remaining =>
            dsimp only
            split
            · rw [exec_bind, exec_throw]
            · simp only [exec_bind, exec_modify]

theorem append_refused {identity lineIndex offset : Nat} {slice : HistorySlice} {allocated : Bool}
    {a a' : HistoryLineAssembly}
    {e : HistorySliceError} (h : exec (append identity lineIndex offset slice allocated) a = (.error e, a')) :
      a' = a := by
  rw [exec_append] at h
  repeat' split at h
  all_goals cases h
  all_goals rfl

end HistoryLineAssembly

/-! ## Columns -/

def columnsOf (cells : List Cell) : Nat := (cells.map Cell.width).sum

theorem columnsOf_cons (c : Cell) (cells : List Cell) : columnsOf (c :: cells) = c.width + columnsOf cells := by
  simp [columnsOf]

theorem columnsOf_append (cells more : List Cell) : columnsOf (cells ++ more) = columnsOf cells + columnsOf more := by
  simp [columnsOf]

/-- Cells as a line of the history holds them, and few enough of them. -/
structure Retained (cells : List Cell) : Prop where
  width : ∀ c ∈ cells, 1 ≤ c.width ∧ c.width ≤ 2
  room : charge cells ≤ HISTORY_BUDGET

variable {cells done rest : List Cell}

theorem columnsOf_le (h : ∀ c ∈ cells, 1 ≤ c.width ∧ c.width ≤ 2) : columnsOf cells ≤ charge cells := by
  induction cells with
  | nil => exact zero_le
  | cons c cells ih =>
    obtain ⟨hc, hcells⟩ := forall_mem_cons.mp h
    have hrest := ih hcells
    have hsize : CELL_SIZE = 32 := rfl
    rw [columnsOf_cons, charge_cons]
    omega

theorem seekColumn_append (hwidth : ∀ c ∈ done, 1 ≤ c.width ∧ c.width ≤ 2) {offset : Nat}
    (hroom : offset + columnsOf done < 2 ^ 64) :
    seekColumn (offset + columnsOf done) offset (done ++ rest) = .ok (offset + columnsOf done, rest) := by
  induction done generalizing offset with
  | nil =>
    cases rest with
    | nil => rfl
    | cons c rest =>
      rw [nil_append, seekColumn]
      exact if_neg (lt_irrefl offset)
  | cons c done ih =>
    obtain ⟨hc, hdone⟩ := forall_mem_cons.mp hwidth
    rw [columnsOf_cons] at hroom ⊢
    rw [cons_append, seekColumn, if_pos (by omega), checkedAdd, if_pos (by omega)]
    dsimp only
    rw [← add_assoc]
    exact ih hdone (by omega)

theorem admitCells_split (maxColumns maxTextBytes : Nat) (cells : List Cell) (columns bytes : Nat) :
    ∃ rest, cells = (admitCells maxColumns maxTextBytes columns bytes cells).2 ++ rest ∧
      (admitCells maxColumns maxTextBytes columns bytes cells).1 =
        columns + columnsOf (admitCells maxColumns maxTextBytes columns bytes cells).2 := by
  induction cells generalizing columns bytes with
  | nil => exact ⟨[], rfl, rfl⟩
  | cons c cells ih =>
    rw [admitCells]
    split
    · rename_i nextColumns nextBytes hcolumns _
      split
      · exact ⟨c :: cells, rfl, rfl⟩
      · obtain ⟨rest, hcells, hcount⟩ := ih nextColumns nextBytes
        have hnext : nextColumns = columns + c.width := by
          unfold checkedAdd at hcolumns
          split at hcolumns
          · cases hcolumns
            rfl
          · cases hcolumns
        refine ⟨rest, ?_, ?_⟩
        · dsimp only
          rw [cons_append, ← hcells]
        · dsimp only
          rw [hcount, columnsOf_cons, hnext, add_assoc]
    · exact ⟨c :: cells, rfl, rfl⟩

theorem HistoryLineAssembly.columnAfter_eq (hwidth : ∀ c ∈ cells, 1 ≤ c.width ∧ c.width ≤ 2) {offset : Nat}
    (hroom : offset + columnsOf cells < 2 ^ 64) : columnAfter offset cells = some (offset + columnsOf cells) := by
  induction cells generalizing offset with
  | nil => rfl
  | cons c cells ih =>
    obtain ⟨hc, hcells⟩ := forall_mem_cons.mp hwidth
    rw [columnsOf_cons] at hroom ⊢
    rw [columnAfter, if_pos hc, checkedAdd, if_pos (by omega), bind_some, ih hcells (by omega), add_assoc]

/-! ## One slice -/

def sliceCells (budget : Nat × Nat) (rest : List Cell) : List Cell := (admitCells budget.1 budget.2 0 0 rest).2

/-- Behind the cells that are there, a slice has the next ones that the budgets admit. -/
theorem TerminalGrid.historySlice_eq {g : TerminalGrid} {lineIndex : Nat} {terminalEnd : HistorySliceEnd}
    (hline : g.historyLine lineIndex = some (done ++ rest, terminalEnd)) (hkeep : Retained (done ++ rest))
    {budget : Nat × Nat}
    (hfits : rest ≠ [] → sliceCells budget rest ≠ []) :
    g.historySlice g.revision lineIndex (columnsOf done) budget.1 budget.2 =
      .ok { cells := sliceCells budget rest
            nextCellOffset := columnsOf done + columnsOf (sliceCells budget rest)
            ending := if (sliceCells budget rest).length = rest.length then terminalEnd else .continued } := by
  have hbudget : HISTORY_BUDGET < 2 ^ 64 := by decide
  have hcolumns := (columnsOf_le hkeep.width).trans hkeep.room
  rw [columnsOf_append] at hcolumns
  have hseek : seekColumn (columnsOf done) 0 (done ++ rest) = .ok (columnsOf done, rest) := by
    have h : seekColumn (0 + columnsOf done) 0 (done ++ rest) = .ok (0 + columnsOf done, rest) :=
      seekColumn_append (fun c hc => hkeep.width c (mem_append_left _ hc)) (by omega)
    rwa [zero_add] at h
  obtain ⟨_, _, hcount⟩ := admitCells_split budget.1 budget.2 rest 0 0
  unfold historySlice
  rw [if_neg (not_not_intro rfl), hline]
  dsimp only
  rw [hseek]
  dsimp only
  rw [if_neg (not_not_intro rfl), if_neg (fun h => hfits h.2 h.1), hcount, zero_add]
  rfl

/-! ## A whole line -/

/-- The loop of a client that fetches a line, packages/cli/src/pane_runtime_client.rs:302-346: the
slices of the grid, each with budgets of its own, are appended until the line is complete -/
def HistoryLineAssembly.fetch (g : TerminalGrid) (lineIndex : Nat) : List (Nat × Nat) → AssemblyM Unit
  | [] => pure ()
  | budget :: budgets => do
    let a ← get
    if a.completed = none then
      match g.historySlice g.revision lineIndex a.nextOffset budget.1 budget.2 with
      | .error e => throw e
      | .ok slice =>
        append a.identity lineIndex a.nextOffset slice true
        fetch g lineIndex budgets

/-- Each budget admits at least one of the cells that are left when it is used. -/
def Admitting : List (Nat × Nat) → List Cell → Prop
  | [], _ => True
  | budget :: budgets, rest =>
    (rest ≠ [] → sliceCells budget rest ≠ []) ∧ Admitting budgets (rest.drop (sliceCells budget rest).length)

namespace HistoryLineAssembly
variable {g : TerminalGrid}

structure Holds (a : HistoryLineAssembly) (lineIndex : Nat) (done : List Cell) : Prop where
  lineIndex : a.lineIndex = lineIndex
  cells : a.cells = done
  nextOffset : a.nextOffset = columnsOf done
  ending : a.ending = .continued

def grown (a : HistoryLineAssembly) (taken : List Cell) (ending : HistorySliceEnd) : HistoryLineAssembly :=
  { a with
    cells := a.cells ++ taken, nextOffset := a.nextOffset + columnsOf taken, remainingBytes :=
      a.remainingBytes - charge taken, ending }

variable {a : HistoryLineAssembly} {lineIndex width columns : Nat} {done cells : List Cell}

/-- A slice from where the assembly ends is appended if its bytes are allowed, and leaves it alone otherwise. -/
theorem exec_append_slice {taken more : List Cell} {ending : HistorySliceEnd}
    (h : a.Holds lineIndex done) (hkeep : Retained (done ++ (taken ++ more)))
    (hprogress : taken ≠ [] ∨ ending ≠ .continued) :
    exec (append a.identity lineIndex a.nextOffset ⟨taken, a.nextOffset + columnsOf taken, ending⟩ true) a =
      if charge taken ≤ a.remainingBytes then (.ok (), a.grown taken ending) else (.error .budgetExhausted, a) := by
  have hbudget : HISTORY_BUDGET < 2 ^ 64 := by decide
  have hwidth : ∀ c ∈ taken, 1 ≤ c.width ∧ c.width ≤ 2 := fun c hc =>
    hkeep.width c (mem_append_right _ (mem_append_left _ hc))
  have hcolumns := (columnsOf_le hkeep.width).trans hkeep.room
  have hcharge := hkeep.room
  rw [columnsOf_append, columnsOf_append] at hcolumns
  rw [charge_append, charge_append] at hcharge
  have hafter : columnAfter a.nextOffset taken = some (a.nextOffset + columnsOf taken) :=
    columnAfter_eq hwidth (by rw [h.nextOffset]; omega)
  have hmoves : ¬ (a.nextOffset + columnsOf taken ≠ a.nextOffset + columnsOf taken ∨
      (a.nextOffset + columnsOf taken = a.nextOffset ∧ ending = .continued)) := by
    rintro (hne | ⟨hsame, hend⟩)
    · exact hne rfl
    · rcases hprogress with hne | hne
      · obtain ⟨c, cells, rfl⟩ := exists_cons_of_ne_nil hne
        have hc := (hwidth c mem_cons_self).1
        rw [columnsOf_cons] at hsame
        omega
      · exact hne hend
  rw [exec_append, if_neg (not_not_intro rfl), if_neg (by simp [h.lineIndex, h.ending])]
  dsimp only
  rw [hafter]
  dsimp only
  rw [if_neg hmoves, historyCellsBytes_eq (show charge taken < 2 ^ 64 by omega), checkedSub]
  by_cases hle : charge taken ≤ a.remainingBytes
  · rw [if_pos hle, if_pos hle]
    rfl
  · rw [if_neg hle, if_neg hle]

theorem exec_fetch_completed (h : a.completed ≠ none) (lineIndex : Nat) (budgets : List (Nat × Nat)) :
    exec (fetch g lineIndex budgets) a = (.ok (), a) := by
  cases budgets with
  | nil => rfl
  | cons budget budgets =>
    simp [fetch, exec_bind, if_neg h]

theorem grown_grown (a : HistoryLineAssembly) (taken more : List Cell) (ending : HistorySliceEnd) :
    (a.grown taken .continued).grown more ending = a.grown (taken ++ more) ending := by
  simp [grown, columnsOf_append, add_assoc, Nat.sub_sub]

theorem Holds.grown (h : a.Holds lineIndex done) (taken : List Cell) :
    (a.grown taken .continued).Holds lineIndex (done ++ taken) where
  lineIndex := h.lineIndex
  cells := by rw [HistoryLineAssembly.grown, h.cells]
  nextOffset := by rw [HistoryLineAssembly.grown, h.nextOffset, columnsOf_append]
  ending := rfl

/-- From the front of a line on, enough slices complete it, if the bytes left for it suffice,
and otherwise one of them is refused for them. -/
theorem exec_fetch {terminalEnd : HistorySliceEnd} (hterminal : terminalEnd ≠ .continued) {budgets : List (Nat × Nat)}
    {rest : List Cell} (hline : g.historyLine lineIndex = some (done ++ rest, terminalEnd))
    (hkeep : Retained (done ++ rest))
    (hfits : Admitting budgets rest) (henough : rest.length ≤ budgets.length) (hsome : budgets ≠ [])
    (h : a.Holds lineIndex done) :
    (charge rest ≤ a.remainingBytes → exec (fetch g lineIndex budgets) a = (.ok (), a.grown rest terminalEnd)) ∧
      (a.remainingBytes < charge rest → ∃ a', exec (fetch g lineIndex budgets) a = (.error .budgetExhausted, a')) := by
  induction budgets generalizing done rest a with
  | nil => exact absurd rfl hsome
  | cons budget budgets ih =>
    obtain ⟨hfirst, hlater⟩ := hfits
    obtain ⟨more, hrest, _⟩ := admitCells_split budget.1 budget.2 rest 0 0
    have hrest : rest = sliceCells budget rest ++ more := hrest
    have hopen : a.completed = none := by
      rw [completed, if_neg (not_not_intro h.ending)]
    have hslice := historySlice_eq hline hkeep hfirst
    rw [fetch, exec_bind, exec_get]
    dsimp only
    rw [if_pos hopen, h.nextOffset, hslice]
    dsimp only
    rw [← h.nextOffset, exec_bind]
    generalize sliceCells budget rest = taken at hfirst hlater hrest ⊢
    subst hrest
    have hkeep' : Retained ((done ++ taken) ++ more) := by rwa [append_assoc]
    rw [drop_left] at hlater
    by_cases hmore : more = []
    · -- the last slice
      subst hmore
      rw [append_nil, if_pos rfl, exec_append_slice h hkeep (.inr hterminal)]
      constructor
      · intro hle
        rw [if_pos hle]
        exact exec_fetch_completed (by rw [completed]; exact (if_pos hterminal).trans_ne (some_ne_none _)) lineIndex
          budgets
      · intro hlt
        simp [if_neg (not_le.mpr hlt)]
    · have htaken : taken ≠ [] := hfirst (append_ne_nil_of_right_ne_nil _ hmore)
      have hlength : ¬ taken.length = (taken ++ more).length := by
        have hpos := length_pos_iff.mpr hmore
        rw [length_append]
        omega
      have hline' : g.historyLine lineIndex = some ((done ++ taken) ++ more, terminalEnd) := by rwa [append_assoc]
      have hnext := ih hline' hkeep' hlater
        (by
          have hpos := length_pos_iff.mpr htaken
          rw [length_append, length_cons] at henough
          omega)
        (by
          rintro rfl
          have hpos := length_pos_iff.mpr htaken
          have hpos' := length_pos_iff.mpr hmore
          rw [length_append, length_singleton] at henough
          omega)
        (h.grown taken)
      have hremaining : (a.grown taken .continued).remainingBytes = a.remainingBytes - charge taken := rfl
      rw [if_neg hlength, exec_append_slice h hkeep (.inl htaken), charge_append]
      by_cases hle : charge taken ≤ a.remainingBytes
      · rw [if_pos hle]
        dsimp only
        constructor
        · intro hall
          rw [hnext.1 (by omega), grown_grown]
        · intro hlt
          exact hnext.2 (by omega)
      · rw [if_neg hle]
        dsimp only
        constructor
        · intro hall
          omega
        · exact fun _ => ⟨a, rfl⟩

/-! ## The rows of an assembled line -/

variable {s : Storage}

theorem Storage.endRow_eq (h : s.total + s.extent < 2 ^ 64) :
    s.endRow = some ⟨s.row + 1, 0, 0, s.total + s.extent, max s.largest s.extent⟩ := by
  rw [endRow, checkedAdd, if_pos h, map_some]

/-- What has been counted is no more than some columns, and the row begun no more than its own. -/
structure Storage.Within (width columns : Nat) (s : Storage) : Prop where
  col : s.col < width
  extent : s.extent ≤ s.col
  total : s.total + s.col ≤ columns
  largest : s.largest ≤ columns

theorem Storage.Within.endRow (hwidth : 0 < width) (hroom : columns < 2 ^ 64) (hextent : s.extent ≤ s.col)
    (htotal : s.total + s.col ≤ columns) (hlargest : s.largest ≤ columns) :
      ∃ s', s.endRow = some s' ∧ s'.Within width columns := by
  refine ⟨_, endRow_eq (by omega), hwidth, Nat.le_refl 0, ?_, ?_⟩
  · show s.total + s.extent + 0 ≤ columns
    omega
  · show max s.largest s.extent ≤ columns
    omega

/-- The count of the cells does not overflow: it is at most the columns of the line. -/
theorem storageLoop_within {start stop : Nat} (hwidth : 0 < width)
    (h : s.Within width columns) (hroom : columns + logicalWidth cells < 2 ^ 64) :
    ∃ s', storageLoop width start stop s cells = some s' ∧ s'.total + s'.extent ≤ columns + logicalWidth cells ∧
      s'.largest ≤ columns + logicalWidth cells ∧ s'.extent ≤ columns + logicalWidth cells := by
  induction cells generalizing s columns with
  | nil =>
    have hextent := h.extent
    have htotal := h.total
    have hlargest := h.largest
    exact ⟨s, rfl, by omega, by omega, by omega⟩
  | cons c cells ih =>
    have hc := extent_pos c
    have hcons : logicalWidth (c :: cells) = c.extent + logicalWidth cells := by simp [logicalWidth]
    rw [hcons] at hroom ⊢
    obtain ⟨t, hfirst, ht⟩ : ∃ t, (if s.col > 0 ∧ s.col + c.extent > width then s.endRow else some s) = some t ∧
      t.Within width columns := by
      split
      · exact Storage.Within.endRow hwidth (by omega) h.extent h.total h.largest
      · exact ⟨s, rfl, h⟩
    obtain ⟨hcol, hextent, htotal, hlargest⟩ := ht
    rw [storageLoop, hfirst, bind_some]
    split
    · exact ⟨t, rfl, by omega, by omega, by omega⟩
    · obtain ⟨extent, hput, hle⟩ : ∃ extent, (if start ≤ t.row then
          checkedAdd t.col (if c.extent = 2 ∧ t.col + 1 < width then 2 else 1) else some t.extent) = some extent ∧
          extent ≤ min (t.col + c.extent) width := by
        split
        · refine ⟨t.col + (if c.extent = 2 ∧ t.col + 1 < width then 2 else 1), ?_, ?_⟩
          · rw [checkedAdd, if_pos (by split <;> omega)]
          · split <;> omega
        · exact ⟨t.extent, rfl, by omega⟩
      rw [hput, bind_some]
      dsimp only
      rw [← add_assoc] at hroom ⊢
      obtain ⟨t', hlast, ht'⟩ : ∃ t', (if min (t.col + c.extent) width ≥ width then
          Storage.endRow { t with extent, col := min (t.col + c.extent) width }
          else some { t with extent, col := min (t.col + c.extent) width }) = some t' ∧
            t'.Within width (columns + c.extent) := by
        split
        · exact Storage.Within.endRow hwidth (by omega) hle (show t.total + min (t.col + c.extent) width ≤ _ by omega)
            (show t.largest ≤ _ by omega)
        · exact ⟨_, rfl, show min (t.col + c.extent) width < width by omega, hle,
            show t.total + min (t.col + c.extent) width ≤ _ by omega, show t.largest ≤ _ by omega⟩
      rw [hlast, bind_some]
      exact ih ht' hroom

variable (start stop index : Nat) (rows : List LogicalRow)

theorem visitedRows_eq : visitedRows start stop index rows =
    (rows.drop (start - index)).take (stop - max start index) := by
  induction rows generalizing index with
  | nil => simp [visitedRows]
  | cons r rows ih =>
    rw [visitedRows, ih]
    split
    · rw [show stop - max start index = 0 by omega, take_zero]
    · split
      · rw [show start - index = 0 by omega, show start - (index + 1) = 0 by omega, drop_zero, drop_zero,
          show stop - max start index = stop - max start (index + 1) + 1 by omega, take_succ_cons]
      · rw [show start - index = start - (index + 1) + 1 by omega, drop_succ_cons, show max start index =
          max start (index + 1) by omega]

def textBytes (cells : List Cell) : Nat := (cells.map fun c => c.text.utf8ByteSize).sum

def rowsText : Nat :=
  textBytes ((visitedRows start stop index rows).flatMap LogicalRow.cells)

def rowText (cells : List Cell) : Nat := if start ≤ index ∧ index < stop then textBytes cells else 0

theorem rowsText_beyond {start stop index : Nat} (h : stop ≤ index) (rows : List LogicalRow) :
    rowsText start stop index rows = 0 := by
  rw [rowsText, visitedRows_eq, show stop - max start index = 0 by omega]
  rfl

theorem rowsText_cons (r : LogicalRow) (rows : List LogicalRow) :
    rowsText start stop index (r :: rows) = rowText start stop index r.cells +
      rowsText start stop (index + 1) rows := by
  by_cases hstop : stop ≤ index
  · rw [rowsText_beyond hstop, rowsText_beyond (by omega), rowText, if_neg (by omega)]
  · unfold rowsText rowText
    rw [visitedRows, if_neg (by omega)]
    split
    · rw [if_pos (by omega), flatMap_cons, textBytes, map_append, sum_append]
      rfl
    · rw [if_neg (by omega), Nat.zero_add]

theorem checkedSub_bind (remaining a b : Nat) :
    (checkedSub remaining a).bind (checkedSub · b) = checkedSub remaining (a + b) := by
  unfold checkedSub
  by_cases hfirst : a ≤ remaining
  · rw [if_pos hfirst, bind_some, Nat.sub_sub]
    congr 1
    exact propext (by omega)
  · rw [if_neg hfirst, if_neg (by omega)]
    rfl

/-- The admission charges what the rows in the range have more than the row so far. -/
theorem admit_of_cuts {row : List Cell} {col : Nat} {rows : List LogicalRow} (h : Cuts width row col cells rows)
    (start stop index : Nat) : ∃ cost, rowsText start stop index rows = rowText start stop index row + cost ∧
      ∀ remaining, admitTextLoop width start stop index col remaining cells = checkedSub remaining cost := by
  have hnone (remaining : Nat) : some remaining = checkedSub remaining 0 := (if_pos zero_le).symm
  have hempty (index : Nat) : rowText start stop index [] = 0 := by simp [rowText, textBytes]
  have hput (row : List Cell) (c : Cell) (index : Nat) : rowText start stop index (row ++ [c]) =
      rowText start stop index row + if start ≤ index ∧ index < stop then c.text.utf8ByteSize else 0 := by
    unfold rowText
    split <;> simp [textBytes]
  -- one cell, and what the rest costs
  have hcell (c : Cell) {index cost : Nat} {next : Nat → Option Nat} (hzero : stop ≤ index → cost = 0)
      (hnext : ∀ remaining, next remaining = checkedSub remaining cost) (remaining : Nat) :
      (if index ≥ stop then some remaining
        else (if start ≤ index then checkedSub remaining c.text.utf8ByteSize else some remaining).bind next) =
      checkedSub remaining ((if start ≤ index ∧ index < stop then c.text.utf8ByteSize else 0) + cost) := by
    obtain rfl : next = (checkedSub · cost) := funext hnext
    split
    · next hstop => rw [if_neg (by omega), hzero hstop, hnone]
    · split
      · rw [if_pos (by omega), checkedSub_bind]
      · rw [if_neg (by omega), Nat.zero_add]
        rfl
  induction h generalizing index with
  | done => exact ⟨0, by rw [hempty]; rfl, hnone⟩
  | last => exact ⟨0, rowsText_cons .., hnone⟩
  | @flush row cells col x c rows hpos hover _ ih =>
    obtain ⟨cost, hcost, hadmit⟩ := ih (index + 1)
    refine ⟨cost, by rw [rowsText_cons, hcost, hempty, Nat.zero_add], fun remaining => ?_⟩
    rw [← hadmit, admitTextLoop, admitTextLoop]
    simp [hpos, hover]
  | @full row cells col x c rows hfits hfull _ ih =>
    obtain ⟨cost, hcost, hadmit⟩ := ih (index + 1)
    have hover : ¬ (col > 0 ∧ col + c.extent > width) := by omega
    have hend : min (col + c.extent) width ≥ width := by omega
    rw [hempty, Nat.zero_add] at hcost
    refine ⟨_, by rw [rowsText_cons, hput, hcost, Nat.add_assoc], fun remaining => ?_⟩
    rw [← hcell c (fun hstop => hcost ▸ rowsText_beyond (by omega) rows) hadmit]
    simp only [admitTextLoop, if_neg hover, if_pos hend]
  | @more row cells col c rows hlt _ ih =>
    obtain ⟨cost, hcost, hadmit⟩ := ih index
    have hover : ¬ (col > 0 ∧ col + c.extent > width) := by omega
    refine ⟨_, by rw [hcost, hput, Nat.add_assoc], fun remaining => ?_⟩
    rw [← hcell c (fun hstop => by rw [rowsText_beyond hstop] at hcost; omega) hadmit]
    simp only [admitTextLoop, if_neg hover, if_neg (not_le.mpr hlt), ge_iff_le, Nat.min_eq_left hlt.le]

theorem pushReflowedLogicalLine_eq (cells : List Cell) (width start stop : Nat) (retain : Bool) :
    pushReflowedLogicalLine cells width start stop retain =
      projectLogicalLineWindowRetained cells width start stop retain := by
  unfold pushReflowedLogicalLine projectLogicalLineWindowRetained
  dsimp only
  split
  · rw [Nat.sub_eq_zero_of_le (by omega), take_zero, map_nil]
  · simp [visitedRows_eq]

/-- **Reflow.** The rows counted, visited and projected are as many, and the cells joined; none is wider than the
width. A window is a slice of the full projection, and its admission charges the text of its cells. -/
theorem reflow_projection (cells : List Cell) (retain : Bool) {width last : Nat} (hwidth : 2 ≤ width)
    (hcells : ∀ c ∈ cells, c.width ≤ 2)
    (hlast : projectedLogicalLineRowCountRetained cells width retain ≤ last) :
    let rows := visitLogicalRows (projectionCells cells retain) width
    let full := pushReflowedLogicalLine cells width 0 last retain
    projectedLogicalLineRowCountRetained cells width retain = rows.length ∧ full.length = rows.length ∧
      rows.flatMap LogicalRow.cells = projectionCells cells retain ∧ (∀ r ∈ rows, totalExtent r.cells ≤ width) ∧
      ∀ start stop, pushReflowedLogicalLine cells width start stop retain = (full.drop start).take (stop - start) ∧
        ∀ remaining, admitLogicalTextRetained cells width start stop remaining retain =
          checkedSub remaining (textBytes (((rows.drop start).take (stop - start)).flatMap LogicalRow.cells)) := by
  intro rows full
  have hmax : max width 1 = width := by omega
  have hcount := projectedLogicalLineRowCountRetained_eq cells width retain
  have hwindow (start stop : Nat) : pushReflowedLogicalLine cells width start stop retain =
      ((rows.map (projectRow width)).drop start).take (stop - start) := by
    rw [pushReflowedLogicalLine_eq, projectLogicalLineWindowRetained, hmax, map_take, map_drop]
  rw [hmax] at hcount
  have hfull : full = rows.map (projectRow width) := by
    rw [show full = _ from hwindow 0 last, drop_zero, take_of_length_le (by rw [length_map, ← hcount]; exact hlast)]
  refine ⟨hcount, by rw [hfull, length_map], flatten_visitLogicalRows _ _, ?_, fun start stop =>
    ⟨by rw [hfull, hwindow], ?_⟩⟩
  · refine totalExtent_visitLogicalRows (by omega) fun c hc => ?_
    have hc : c.width ≤ 2 := hcells c (by unfold projectionCells at hc; split at hc; exacts [hc, mem_of_mem_trim hc])
    unfold Cell.extent
    omega
  · obtain ⟨cost, hcost, hadmit⟩ := admit_of_cuts (cuts_visitLoop width [] 0 0 0 (projectionCells cells retain)) start
      stop 0
    have hzero : rowText start stop 0 [] = 0 := by simp [rowText, textBytes]
    rw [hzero, Nat.zero_add] at hcost
    have htext : rowsText start stop 0 rows = cost := by
      rw [← hcost, show rows = visitLogicalRows _ _ from rfl, visitLogicalRows, hmax]
      split
      · next hnil => rw [isEmpty_iff.mp hnil, rowsText_cons, hzero, Nat.zero_add]; rfl
      · rfl
    rw [rowsText, visitedRows_eq, Nat.sub_zero, Nat.max_zero] at htext
    intro remaining
    rw [htext, admitLogicalTextRetained, hmax]
    exact hadmit remaining

theorem logicalWidth_le (hwidth : ∀ c ∈ cells, 1 ≤ c.width ∧ c.width ≤ 2) : logicalWidth cells ≤ charge cells := by
  have hsame : logicalWidth cells = columnsOf cells := by
    exact congrArg List.sum (map_congr_left fun c hc => max_eq_left (hwidth c hc).1)
  rw [hsame]
  exact columnsOf_le hwidth

/-- The cells of the selected rows cost some bytes, far fewer than a counter holds. -/
theorem projectedCellStorageRetained_some (hkeep : Retained cells) (width start stop : Nat) :
    ∃ bytes, projectedCellStorageRetained cells width start stop false = some bytes ∧ bytes ≤ 65 * HISTORY_BUDGET := by
  have hbudget : HISTORY_BUDGET = 8388608 := rfl
  have hsize : CELL_SIZE = 32 := rfl
  have hcolumns : logicalWidth (trimTrailingBlankCells cells) ≤ HISTORY_BUDGET :=
    (logicalWidth_le fun c hc => hkeep.width c (mem_of_mem_trim hc)).trans ((charge_trim_le cells).trans hkeep.room)
  have hwidth : 0 < max width 1 := by omega
  have hstart : Storage.Within (max width 1) 0 {} := ⟨hwidth, Nat.le_refl 0, Nat.le_refl 0, Nat.le_refl 0⟩
  obtain ⟨s, hs, htotal, hlargest, hextent⟩ :=
    @storageLoop_within (max width 1) 0 (trimTrailingBlankCells cells) {} start stop hwidth hstart (by omega)
  refine ⟨(s.total + s.extent) * (CELL_SIZE + 1) + max s.largest s.extent * CELL_SIZE, ?_, ?_⟩
  · unfold projectedCellStorageRetained projectionCells
    dsimp only
    rw [hsize, if_neg Bool.false_ne_true, hs, bind_some, checkedAdd, if_pos (by omega), bind_some, checkedMul,
      if_pos (by omega), bind_some, checkedMul, if_pos (by omega), bind_some, checkedAdd, if_pos (by omega)]
  · rw [hsize]
    omega

theorem take_drop_min {α : Type} (xs : List α) (start stop : Nat) :
    (xs.drop (min start xs.length)).take (min stop xs.length - min start xs.length) =
    (xs.drop start).take (stop - start) := by
  by_cases hstart : start ≤ xs.length
  · rw [min_eq_left hstart]
    by_cases hstop : stop ≤ xs.length
    · rw [min_eq_left hstop]
    · rw [min_eq_right (by omega), take_of_length_le (by rw [length_drop]),
        take_of_length_le (by rw [length_drop]; omega)]
  · have hmin : min start xs.length = xs.length := by omega
    rw [hmin, drop_length, drop_eq_nil_of_le (show xs.length ≤ start by omega), take_nil, take_nil]

/-- Whatever rows are asked for: those of the line projected directly, once the allowance
covers them. -/
theorem project_completed (hkeep : Retained a.cells) (hretain : a.retainTrailingCells = false)
    (hdone : a.ending ≠ .continued) (hwidth : width ≠ 0) (start stop : Nat) :
    ∃ needed, ∀ budget, a.project width start stop budget =
      if needed ≤ budget
      then .ok (((lineRows width (a.cells, decide (a.ending = .opened))).drop start).take (stop - start))
      else .error .budgetExhausted := by
  have hbudget : HISTORY_BUDGET = 8388608 := rfl
  have hcomplete : ¬ (width = 0 ∨ a.completed = none) := by
    rintro (h | h)
    · exact hwidth h
    · rw [completed, if_pos hdone] at h
      cases h
  have hcount := projectedLogicalLineRowCount_le a.cells width
  have hcharge := hkeep.room
  have hlength : (lineRows width (a.cells, decide (a.ending = .opened))).length =
    projectedLogicalLineRowCount a.cells width :=
    length_lineRows width _
  -- the rows asked for do not go past the last one
  have hrows (first last : Nat) (hfirst : first = min start (projectedLogicalLineRowCount a.cells width))
      (hlast : last = min stop (projectedLogicalLineRowCount a.cells width)) :
      ((projectLogicalLineWindowRetained a.cells width first last false).map fun row =>
        if a.ending = .opened then { row with wrapped := true } else row) =
        ((lineRows width (a.cells, decide (a.ending = .opened))).drop start).take (stop - start) := by
    rw [← take_drop_min, hlength, ← hfirst, ← hlast, lineRows, projectLogicalLine, projectLogicalLineWindowRetained]
    simp
  unfold project
  simp only [if_neg hcomplete, hretain]
  change ∃ needed, ∀ budget, _
  generalize hfirst : min start (projectedLogicalLineRowCountRetained a.cells width false) = first
  generalize hlast : min stop (projectedLogicalLineRowCountRetained a.cells width false) = last
  have hlast' : last ≤ projectedLogicalLineRowCount a.cells width := hlast ▸ min_le_right _ _
  obtain ⟨bytes, hbytes, hle⟩ := projectedCellStorageRetained_some hkeep width first last
  obtain ⟨cost, -, hcost⟩ := admit_of_cuts (cuts_visitLoop (max width 1) [] 0 0 0 (projectionCells a.cells false))
    first last 0
  have hmul : checkedMul (last - first) ROW_SIZE = some ((last - first) * ROW_SIZE) := by
    rw [checkedMul, if_pos (by rw [ROW_SIZE]; omega)]
  have hadd : checkedAdd ((last - first) * ROW_SIZE) bytes = some ((last - first) * ROW_SIZE + bytes) := by
    rw [checkedAdd, if_pos (by rw [ROW_SIZE]; omega)]
  refine ⟨(last - first) * ROW_SIZE + bytes + cost, fun budget => ?_⟩
  rw [hmul, bind_some, hbytes, bind_some, hadd, bind_some]
  by_cases hmeta : (last - first) * ROW_SIZE + bytes ≤ budget
  · rw [checkedSub, if_pos hmeta]
    dsimp only
    rw [admitLogicalTextRetained, hcost, checkedSub]
    by_cases htext : cost ≤ budget - ((last - first) * ROW_SIZE + bytes)
    · rw [if_pos htext, if_pos (by omega), hrows first last hfirst.symm hlast.symm]
    · rw [if_neg htext, if_neg (by omega)]
  · rw [checkedSub, if_neg hmeta, if_neg (by omega)]

end HistoryLineAssembly

namespace TerminalGrid
open HistoryLineAssembly
variable {g : TerminalGrid}

/-- A line of a history that is accounted for can be handed over. -/
theorem retained_historyLine (hwf : g.history.WellFormed) (hledger : g.Ledger) {lineIndex : Nat} {cells : List Cell}
    {terminalEnd : HistorySliceEnd}
    (hline : g.historyLine lineIndex = some (cells, terminalEnd)) : Retained cells ∧ terminalEnd ≠ .continued := by
  have hglyph {c : Cell} (hc : c.Glyph) : 1 ≤ c.width ∧ c.width ≤ 2 := by
    rcases hc.valid.width hc.leads with h | h <;> omega
  have hbytes := hledger.budget
  rw [hledger.account.bytes] at hbytes
  unfold historyLine at hline
  split at hline
  · rename_i line hget
    cases hline
    have hmem := mem_of_getElem? hget
    refine ⟨⟨fun c hc => hglyph (hwf.lines cells hmem c hc), ?_⟩, nofun⟩
    have hle := single_le_sum (fun n _ => zero_le) _ (mem_map_of_mem (f := charge) hmem)
    omega
  · split at hline
    · cases hline
      exact ⟨⟨fun c hc => hglyph (hwf.pending c hc), by omega⟩, nofun⟩
    · cases hline

/-- A line of the history fetched in slices, each under budgets that admit at least one more
cell, is put together again with its ending, if the bytes allowed for it suffice, and its rows
are those of the line itself. Otherwise a slice is refused for its bytes. A slice that is
refused, for whatever reason, leaves the assembly as it was. -/
theorem history_transfer (hwf : g.history.WellFormed) (hledger : g.Ledger) {lineIndex : Nat} {cells : List Cell}
    {terminalEnd : HistorySliceEnd}
    (hline : g.historyLine lineIndex = some (cells, terminalEnd)) {budgets : List (Nat × Nat)}
    (hfits : Admitting budgets cells)
    (henough : max 1 cells.length ≤ budgets.length) (identity maxBytes : Nat) (prefixUnavailable : Bool) :
    (historyCellsBytes cells ≤ maxBytes →
      ∃ a, exec (fetch g lineIndex budgets) (.new identity lineIndex maxBytes prefixUnavailable) = (.ok (), a) ∧
        a.completed = some (cells, terminalEnd) ∧
        ∀ width start stop, width ≠ 0 → ∃ needed, ∀ budget, a.project width start stop budget =
          if needed ≤ budget
          then .ok (((lineRows width (cells, decide (terminalEnd = .opened))).drop start).take (stop - start))
          else .error .budgetExhausted) ∧
      (maxBytes < historyCellsBytes cells →
        ∃ a, exec (fetch g lineIndex budgets) (.new identity lineIndex maxBytes prefixUnavailable) =
          (.error .budgetExhausted, a)) ∧
      ∀ (a a' : HistoryLineAssembly) (identity lineIndex offset : Nat) (slice : HistorySlice) (allocated : Bool)
        (e : HistorySliceError),
        exec (append identity lineIndex offset slice allocated) a = (.error e, a') → a' = a := by
  obtain ⟨hkeep, hterminal⟩ := retained_historyLine hwf hledger hline
  have hbudget : HISTORY_BUDGET < 2 ^ 64 := by decide
  have hbytes : historyCellsBytes cells = charge cells := historyCellsBytes_eq (lt_of_le_of_lt hkeep.room hbudget)
  have hempty : (HistoryLineAssembly.new identity lineIndex maxBytes prefixUnavailable).Holds lineIndex [] :=
    ⟨rfl, rfl, rfl, rfl⟩
  have hfetch := exec_fetch hterminal (show g.historyLine lineIndex =
    some ([] ++ cells, terminalEnd) from hline) hkeep hfits (by omega) (ne_nil_of_length_pos (by omega)) hempty
  rw [hbytes]
  refine ⟨fun hle => ⟨_, hfetch.1 hle, if_pos hterminal, fun width start stop hwidth => ?_⟩, hfetch.2,
    fun a a' identity lineIndex offset slice allocated e h => append_refused h⟩
  exact project_completed (a := grown (.new identity lineIndex maxBytes prefixUnavailable) cells terminalEnd)
    hkeep rfl hterminal hwidth start stop

end TerminalGrid

namespace Sample

/-- "ab" that scrolled out of a row of two columns, fetched one cell at a time: it is put
together with 66 bytes, and with fewer it is not. -/
theorem scrolled_line_transferred :
    (∃ a, HistoryLineAssembly.exec (HistoryLineAssembly.fetch scrolled.grid 0 [(1, 1), (1, 1)]) (.new 7 0 66 false) =
        (.ok (), a) ∧ a.completed = some (scrolled.grid.history.pending, .opened)) ∧
      ∃ a, HistoryLineAssembly.exec (HistoryLineAssembly.fetch scrolled.grid 0 [(1, 1), (1, 1)]) (.new 7 0 65 false) =
        (.error .budgetExhausted, a) := by
  have hwf : scrolled.grid.WellFormed :=
    TerminalGridStream.wellFormed_runFrom (by decide) (wellFormed_new (show new 2 1 {} = .ok _ from rfl)) _
  have hline : scrolled.grid.historyLine 0 = some (scrolled.grid.history.pending, .opened) := by decide +kernel
  have hbytes : historyCellsBytes scrolled.grid.history.pending = 66 := by decide +kernel
  have hfits : Admitting [(1, 1), (1, 1)] scrolled.grid.history.pending :=
    ⟨fun _ => by decide +kernel, fun _ => by decide +kernel, trivial⟩
  have htransfer (maxBytes : Nat) := history_transfer hwf.history reached_scrolled.ledger hline hfits
    (by decide +kernel) 7 maxBytes false
  obtain ⟨a, hfetch, hcompleted, _⟩ := (htransfer 66).1 (le_of_eq hbytes)
  exact ⟨⟨a, hfetch, hcompleted⟩, (htransfer 65).2.1 (by rw [hbytes]; decide)⟩

def withSpacer : List Cell := [.new "\u754c" .DEFAULT 2, .spacer .DEFAULT]

/-- The two go to rows of their own, and the glyph is charged by its bytes. -/
theorem spacer_reflowed : (visitLogicalRows (projectionCells withSpacer true) 2).map LogicalRow.cells =
    withSpacer.map ([·]) ∧
    HistoryLineAssembly.admitLogicalTextRetained withSpacer 2 0 1 3 true = some 0 := by decide +kernel

/-- The window of its second row is the end of the two rows. -/
theorem window_reflowed : HistoryLineAssembly.pushReflowedLogicalLine withSpacer 2 1 2 true =
    ((HistoryLineAssembly.pushReflowedLogicalLine withSpacer 2 0 2 true).drop 1).take 1 := by
  have hcount : projectedLogicalLineRowCountRetained withSpacer 2 true ≤ 2 := by decide +kernel
  exact ((HistoryLineAssembly.reflow_projection withSpacer true le_rfl (by decide +kernel) hcount).2.2.2.2 1 2).1

end Sample
end Bmux.Terminal
