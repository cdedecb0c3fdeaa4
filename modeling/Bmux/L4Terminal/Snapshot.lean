import Bmux.L4Terminal.Stream

/-!
# Snapshots (`packages/terminal-grid/src/snapshot.rs`, `packages/terminal-grid/src/model.rs`)

A snapshot carries rows as runs of text in one style, and a grid is hydrated from
one by cutting the text into graphemes again.

The source builds a snapshot under an allocation budget; `snapshot` is the call
with an unlimited one. `allMainRows` has the history, the pending line and the screen in
one column.
-/
namespace Bmux.Terminal

structure CellRunSnapshot where
  startCol : Nat
  text : String
  style : StyleId
  deriving DecidableEq, Repr

structure RowSnapshot where
  wrapped : Bool
  runs : List CellRunSnapshot
  deriving DecidableEq, Repr

structure CursorSnapshot where
  row : Nat
  col : Nat
  visible : Bool
  deriving DecidableEq, Repr

structure ScrollRegionSnapshot where
  top : Nat
  bottom : Nat
  deriving DecidableEq, Repr

/-- mirrors packages/terminal-grid/src/snapshot.rs:91-139 -/
structure GridSnapshot where
  terminalState : TerminalStateSnapshot
  retainedAltRows : Option (List RowSnapshot)
  historyTruncated : Option Bool
  revision : Nat
  contentRevision : Nat
  width : Nat
  height : Nat
  mode : String
  scrollbackRows : Nat
  totalScrolledRows : Option Nat
  cursor : CursorSnapshot
  savedCursor : CursorSnapshot
  savedPendingWrap : Bool
  characters : CharacterState
  savedCharacters : CharacterState
  currentStyle : Style
  autowrap : Bool
  pendingWrap : Bool
  scrollRegion : Option ScrollRegionSnapshot
  protocol : ProtocolState
  pendingBytes : List UInt8
  styles : List Style
  rows : List RowSnapshot
  mainRows : Option (List RowSnapshot)
  deriving DecidableEq

def toU16 (n : Nat) : Nat := min n 65535

def toU32 (n : Nat) : Nat := min n (2 ^ 32 - 1)

/-! ## Rows as runs -/

def flushRun (start : Nat) (style : Option StyleId) (text : String) : List CellRunSnapshot :=
  if text = "" then [] else [{ startCol := toU16 start, text, style := style.getD StyleId.DEFAULT }]

/-- The loop of `row_snapshot`: the column, and the run that is being collected. -/
def runLoop (index start : Nat) (style : Option StyleId) (text : String) : List Cell → List CellRunSnapshot
  | [] => flushRun start style text
  | c :: cells =>
    if c.wideContinuation then runLoop (index + 1) start style text cells
    else if c.isDiscardableBlank ∧ text = "" then runLoop (index + 1) start style text cells
    else if style = some c.style then runLoop (index + 1) start style (text ++ c.text) cells
    else flushRun start style text ++ runLoop (index + 1) index (some c.style) c.text cells

def rowSnapshot (row : PhysicalRow) : RowSnapshot where
  wrapped := row.wrapped
  runs := runLoop 0 0 none "" (trimTrailingBlankCells row.cells)

variable (u : Unicode) (width : Nat)

/-- One grapheme of a run put at a column, which is given back behind it. -/
def putGrapheme (style : StyleId) (p : PhysicalRow × Nat) (grapheme : String) : PhysicalRow × Nat :=
  let charWidth := min (u.strWidth grapheme) 2
  if charWidth = 0 ∨ p.2 ≥ width then p
  else
    let row := p.1.setCell p.2 (Cell.new grapheme style charWidth)
    let row := if charWidth = 2 ∧ p.2 + 1 < width then row.setCell (p.2 + 1) (Cell.spacer style) else row
    (row, p.2 + charWidth)

/-- mirrors packages/terminal-grid/src/model.rs:3439-3460 for one run -/
def putRun (row : PhysicalRow) (run : CellRunSnapshot) : PhysicalRow :=
  ((u.graphemes run.text).foldl (putGrapheme u width run.style) (row, min run.startCol (width - 1))).1

def rowFromSnapshot (s : RowSnapshot) : PhysicalRow :=
  s.runs.foldl (putRun u width) { wrapped := s.wrapped }

namespace TerminalGrid

/-! ## Rows that are shown -/

/-- The loop over the live rows, last row first: the rows still to skip and the selection. -/
def selectLive (rows skip : Nat) (selected : List PhysicalRow) : List PhysicalRow → Nat × List PhysicalRow
  | [] => (skip, selected)
  | row :: rest =>
    if skip > 0 then selectLive rows (skip - 1) selected rest
    else if selected.length = rows then (skip, selected)
    else selectLive rows skip (selected ++ [row]) rest

def lineRows (width : Nat) (line : LogicalLine × Bool) : List PhysicalRow :=
  (projectLogicalLine line.1 width).map fun row => if line.2 then { row with wrapped := true } else row

def selectLines (width rows skip : Nat) (selected : List PhysicalRow) : List (LogicalLine × Bool) → List PhysicalRow
  | [] => selected
  | line :: rest =>
    if selected.length = rows then selected
    else
      let count := projectedLogicalLineRowCount line.1 width
      if skip ≥ count then selectLines width rows (skip - count) selected rest
      else
        let stop := count - skip
        let start := stop - (rows - selected.length)
        let window := (projectLogicalLineWindow line.1 width start stop).map fun row =>
          if line.2 then { row with wrapped := true } else row
        selectLines width rows 0 (selected ++ window.reverse) rest

variable (g : TerminalGrid)

def linesAbove : List (LogicalLine × Bool) :=
  (if g.history.pending.isEmpty then [] else [(g.history.pending, true)]) ++ g.history.lines.reverse.map fun line =>
    (line, false)

/-- mirrors packages/terminal-grid/src/model.rs:2471-2554, with an unlimited budget -/
def displayRows (offset rows : Nat) (main : Bool) : List PhysicalRow :=
  if main = false ∧ g.mode = .alternate then
    let stop := g.altRows.length - offset
    (g.altRows.take stop).drop (stop - rows)
  else
    let live := selectLive rows offset [] g.mainRows.reverse
    (selectLines g.width rows live.1 live.2 g.linesAbove).reverse

def scrollbackRowsHint : Nat :=
  match g.mode with
  | .main =>
    satAdd (satAdd (g.history.projectedRowCount g.width) (projectedPendingRowCount g.history.pending g.width))
      (g.mainRows.length - g.height)
  | .alternate => 0

def mainRowCount : Nat :=
  satAdd (satAdd (g.history.projectedRowCount g.width) (projectedPendingRowCount g.history.pending g.width))
    g.mainRows.length

def maxScrollbackOffset : Nat :=
  (match g.mode with
    | .main => g.mainRowCount
    | .alternate => g.altRows.length) - g.height

def cursorSnapshot (c : Cursor) : CursorSnapshot := ⟨toU16 c.row, toU16 c.col, c.visible⟩

/-- mirrors packages/terminal-grid/src/snapshot.rs:207-310, with an unlimited budget -/
def snapshot (scrollbackOffset rows : Nat) : GridSnapshot :=
  let requestedRows := if rows = 2 ^ 64 - 1 then g.height else max rows g.height
  let scrollbackRows := toU32 g.scrollbackRowsHint
  { terminalState := g.terminalState
    retainedAltRows := if g.mode = .main then some (g.altRows.map rowSnapshot) else none
    historyTruncated := some (g.history.truncated || decide (g.maxScrollbackOffset > scrollbackRows))
    revision := g.revision
    contentRevision := g.contentRevision
    width := toU16 g.width
    height := toU16 g.height
    mode := if g.mode = .main then "main" else "alternate"
    scrollbackRows := scrollbackRows
    totalScrolledRows := some g.totalScrolledRows
    cursor := cursorSnapshot g.cursor
    savedCursor := cursorSnapshot g.savedCursor
    savedPendingWrap := g.savedPendingWrap
    characters := g.characters
    savedCharacters := g.savedCharacters
    currentStyle := g.currentStyle
    autowrap := g.autowrap
    pendingWrap := g.pendingWrap
    scrollRegion := g.scrollRegion.map fun region => ⟨toU16 region.1, toU16 region.2⟩
    protocol := g.protocol
    pendingBytes := []
    styles := g.palette.styles
    rows := (g.displayRows scrollbackOffset requestedRows false).map rowSnapshot
    mainRows := if g.mode = .alternate then some ((g.displayRows 0 requestedRows true).map rowSnapshot) else none }

end TerminalGrid

/-! ## Hydration -/

def TerminalStateSnapshot.validate (s : TerminalStateSnapshot) (width : Nat) : Except String Unit :=
  if s.version ≠ 1 then .error "unsupported terminal state version"
  else match s.tabStops with
    | some stops =>
      if stops.any (· ≥ width) || (stops.zip (stops.drop 1)).any fun pair => decide (pair.1 ≥ pair.2) then
        .error "invalid terminal tab stops"
      else .ok ()
    | none => .ok ()

/-- The columns behind a run, if its glyphs fit. -/
def runEnd (u : Unicode) (width stop : Nat) : List String → Except String Nat
  | [] => .ok stop
  | grapheme :: rest =>
    let columns := min (u.strWidth grapheme) 2
    if columns = 0 ∨ columns > width - stop then .error "invalid retained alternate glyph"
    else runEnd u width (stop + columns) rest

def validateRuns (u : Unicode) (width styles stop : Nat) : List CellRunSnapshot → Except String Unit
  | [] => .ok ()
  | run :: runs =>
    if run.startCol < stop ∨ run.startCol ≥ width ∨ run.text = "" ∨ run.style ≥ styles then
      .error "invalid retained alternate run"
    else (runEnd u width run.startCol (u.graphemes run.text)).bind fun stop => validateRuns u width styles stop runs

def validateRetainedAlternate (u : Unicode) (rows : Option (List RowSnapshot)) (mode : String)
    (width height styles : Nat) :
    Except String Unit :=
  match rows with
  | none => .ok ()
  | some rows =>
    if mode ≠ "main" ∨ rows.length ≠ height then .error "invalid retained alternate screen"
    else rows.forM fun row => validateRuns u width styles 0 row.runs

def GridSnapshot.validateTerminalState (u : Unicode) (s : GridSnapshot) : Except String Unit := do
  s.terminalState.validate s.width
  if s.scrollRegion.any fun region => decide (region.top ≥ region.bottom ∨ region.bottom ≥ s.height) then
    throw "invalid scrolling region"
  validateRetainedAlternate u s.retainedAltRows s.mode s.width s.height s.styles.length

/-- mirrors packages/terminal-grid/src/model.rs:3465-3479; the lines and what is left over -/
def hydrateLogicalHistory (width : Nat) (pending : List Cell) : List PhysicalRow → List LogicalLine × List Cell
  | [] => ([], pending)
  | row :: rows =>
    let joined := pending ++ rowLogicalCells row width
    if row.wrapped then hydrateLogicalHistory width joined rows
    else
      let rest := hydrateLogicalHistory width [] rows
      (trimTrailingBlankCells joined :: rest.1, rest.2)

/-- The history of the rows above a screen, packages/terminal-grid/src/model.rs:822-831, 842-858 -/
def History.ofRows (width : Nat) (truncated : Bool) (rows : List PhysicalRow) : History :=
  let hydrated := hydrateLogicalHistory width [] rows
  { lines := hydrated.1
    pending := hydrated.2
    bytes := satAdd (hydrated.1.map historyCellsBytes).sum (historyCellsBytes hydrated.2)
    projectedRows := some (hydrated.1.map (projectedLogicalLineRowCount · width)).sum
    truncated }

namespace TerminalGrid

def overlayRows (height : Nat) (rows : List PhysicalRow) : List PhysicalRow := padRows (rows.take height) height

/-- The grid that a valid snapshot describes, packages/terminal-grid/src/model.rs:813-908 -/
def hydrate (u : Unicode) (s : GridSnapshot) (mode : GridMode) (limits : GridLimits) : TerminalGrid :=
  let decode := rowFromSnapshot u s.width
  let rows := (match mode with
    | .main => s.rows
    | .alternate => s.mainRows.getD []).map decode
  let viewportStart := rows.length - s.height
  let live := rows.drop viewportStart
  let altRows := match mode with
    | .main => List.replicate s.height {}
    | .alternate => overlayRows s.height (s.rows.map decode)
  let g : TerminalGrid :=
    { width := s.width
      height := s.height
      limits
      history := History.ofRows s.width (s.historyTruncated.getD true) (rows.take viewportStart)
      mainRows := List.replicate (s.height - live.length) {} ++ live
      altRows := (s.retainedAltRows.map (·.map decode)).getD altRows
      mode
      cursor := ⟨s.cursor.row, s.cursor.col, s.cursor.visible⟩
      savedCursor := ⟨s.savedCursor.row, s.savedCursor.col, s.savedCursor.visible⟩
      savedPendingWrap := s.savedPendingWrap
      characters := s.characters
      savedCharacters := s.savedCharacters
      terminalState := s.terminalState
      currentStyle := s.currentStyle
      palette := StylePalette.fromStyles s.styles
      revision := s.revision
      contentRevision := s.contentRevision
      totalScrolledRows := s.totalScrolledRows.getD s.scrollbackRows
      autowrap := s.autowrap
      pendingWrap := s.pendingWrap
      scrollRegion := s.scrollRegion.map fun region => (region.top, region.bottom)
      protocol := s.protocol }
  g.clampCursor.evictExcessHistory

def fromSnapshot (u : Unicode) (s : GridSnapshot) (limits : GridLimits) : Except TerminalGridError TerminalGrid :=
  if s.width = 0 ∨ s.height = 0 then .error .zeroDimensions
  else if s.mode ≠ "main" ∧ s.mode ≠ "alternate" then .error (.invalidSnapshot "unknown screen mode")
  else match s.validateTerminalState u with
    | .error reason => .error (.invalidSnapshot reason)
    | .ok () => .ok (hydrate u s (if s.mode = "main" then .main else .alternate) limits)

end TerminalGrid

namespace TerminalGridStream

def snapshot (s : TerminalGridStream) (scrollbackOffset rows : Nat) : GridSnapshot :=
  { s.grid.snapshot scrollbackOffset rows with pendingBytes := s.pendingBytes }

def fromSnapshot (u : Unicode) (s : GridSnapshot) (limits : GridLimits) : Except TerminalGridError TerminalGridStream :=
  (TerminalGrid.fromSnapshot u s limits).map fun grid =>
    { parser := (Parser.advance {} s.pendingBytes).2, grid, pendingBytes := s.pendingBytes }

end TerminalGridStream

/-! ## The window that is shown -/

namespace TerminalGrid

def allMainRows (g : TerminalGrid) : List PhysicalRow :=
  g.history.lines.flatMap (fun line => lineRows g.width (line, false)) ++
    (if g.history.pending.isEmpty then [] else lineRows g.width (g.history.pending, true)) ++ g.mainRows

theorem length_lineRows (width : Nat) (line : LogicalLine × Bool) :
    (lineRows width line).length = projectedLogicalLineRowCount line.1 width := by
  rw [lineRows, List.length_map, projectedLogicalLineRowCount_eq]

end TerminalGrid
end Bmux.Terminal
