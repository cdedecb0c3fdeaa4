import Bmux.L4Terminal.Reflow
import Bmux.L4Terminal.PointerShape

/-!
# The terminal grid (`packages/terminal-grid/src/model.rs`)

`TerminalGrid` holds the two screens, the scrollback of the main one and the
terminal's modes. Scrolled-out rows are joined into logical lines again; a line
whose end is still on the screen waits in `History.pending`.

Rows are addressed by index, as in the source; an index outside the screen, which
panics there, changes nothing here.
-/
namespace Bmux.Terminal
open PhysicalRow

def satAdd (a b : Nat) : Nat := min (a + b) (2 ^ 64 - 1)

def satAddSigned (a : Nat) (b : Int) : Nat := min (a + b).toNat (2 ^ 64 - 1)

structure GridLimits where
  scrollbackRows : Nat := 10000
  deriving DecidableEq, Repr

inductive GridMode where
  | main
  | alternate
  deriving DecidableEq, Repr

structure Cursor where
  row : Nat := 0
  col : Nat := 0
  visible : Bool := false
  deriving DecidableEq, Repr

structure CharacterState where
  graphics : Vector Bool 2 := .replicate 2 false
  active : Nat := 0
  last : Option Char := none
  deriving DecidableEq, Repr

def CharacterState.translate (s : CharacterState) (ch : Char) : Char :=
  if s.graphics[s.active]? = some true then
    match ch with
    | '_' => ' ' | '\x60' => '◆' | 'a' => '▒' | 'b' => '␉' | 'c' => '␌' | 'd' => '␍' | 'e' => '␊' | 'f' => '°'
    | 'g' => '±' | 'h' => '␤' | 'i' => '␋' | 'j' => '┘' | 'k' => '┐' | 'l' => '┌' | 'm' => '└' | 'n' => '┼'
    | 'o' => '⎺' | 'p' => '⎻' | 'q' => '─' | 'r' => '⎼' | 's' => '⎽' | 't' => '├' | 'u' => '┤' | 'v' => '┴'
    | 'w' => '┬' | 'x' => '│' | 'y' => '≤' | 'z' => '≥' | '{' => 'π' | '|' => '≠' | '}' => '£' | '~' => '·'
    | _ => ch
  else ch

/-- mirrors packages/terminal-grid/src/model.rs:334-358 -/
structure ProtocolState where
  pointerShapes : PointerShapeState := {}
  mouseX10 : Bool := false
  mousePressRelease : Bool := false
  mouseButtonMotion : Bool := false
  mouseAnyMotion : Bool := false
  mouseUtf8 : Bool := false
  mouseSgr : Bool := false
  mouseUrxvt : Bool := false
  applicationCursor : Bool := false
  applicationKeypad : Bool := false
  bracketedPaste : Bool := false
  deriving DecidableEq

inductive MouseProtocolMode where
  | none | press | pressRelease | buttonMotion | anyMotion

inductive MouseProtocolEncoding where
  | default | utf8 | sgr

/-- mirrors packages/terminal-grid/src/snapshot.rs:34-47, 76-88; `none` for the tab stops is
every eighth column -/
structure TerminalStateSnapshot where
  version : Nat := 1
  originMode : Bool := false
  insertMode : Bool := false
  savedStyle : Style := {}
  savedOriginMode : Bool := false
  savedAutowrap : Bool := true
  tabStops : Option (List Nat) := none
  deriving DecidableEq, Repr

/-- mirrors packages/terminal-grid/src/model.rs:678-681, without the memo of its row count -/
abbrev LogicalLine := List Cell

/-- The fields of `TerminalGrid` about scrolled-out rows: `main_history`,
`pending_history_cells`, `history_bytes`, `main_history_projected_rows` (unset until it is
read) and `history_truncated`. -/
structure History where
  lines : List LogicalLine := []
  pending : List Cell := []
  bytes : Nat := 0
  projectedRows : Option Nat := some 0
  truncated : Bool := false
  deriving DecidableEq

/-- mirrors packages/terminal-grid/src/model.rs:642-675, without the revision counters that
nothing in the grid reads (erasures, resets, viewport scrolling) -/
structure TerminalGrid where
  width : Nat
  height : Nat
  limits : GridLimits
  history : History := {}
  mainRows : List PhysicalRow
  altRows : List PhysicalRow
  mode : GridMode := .main
  cursor : Cursor := { visible := true }
  savedCursor : Cursor := {}
  savedPendingWrap : Bool := false
  characters : CharacterState := {}
  savedCharacters : CharacterState := {}
  currentStyle : Style := {}
  terminalState : TerminalStateSnapshot := {}
  palette : StylePalette := {}
  revision : Nat := 0
  contentRevision : Nat := 0
  totalScrolledRows : Nat := 0
  autowrap : Bool := true
  pendingWrap : Bool := false
  scrollRegion : Option (Nat × Nat) := none
  protocol : ProtocolState := {}
  deriving DecidableEq

inductive TerminalGridError where
  | zeroDimensions
  | invalidSnapshot (reason : String)
  deriving DecidableEq, Repr

def CELL_SIZE : Nat := 32

variable (cells : List Cell)

def historyCellsBytes : Nat :=
  cells.foldl (fun bytes c => satAdd bytes c.text.utf8ByteSize) (min (cells.length * CELL_SIZE) (2 ^ 64 - 1))

def clampCursorToDimensions (cursor : Cursor) (width height : Nat) : Cursor :=
  { cursor with row := min cursor.row (height - 1), col := min cursor.col (width - 1) }

def logicalWidth : Nat := (cells.map Cell.extent).sum

def rowIsBlank (row : PhysicalRow) : Bool := row.cells.all Cell.isDiscardableBlank

def projectedPendingRowCount (width : Nat) : Nat :=
  if cells.isEmpty then 0 else projectedLogicalLineRowCount cells width

namespace History

variable (width : Nat) (h : History)

/-- mirrors packages/terminal-grid/src/model.rs:2441-2449 -/
def pushLine (line : LogicalLine) : History :=
  { h with
    bytes := satAdd h.bytes (historyCellsBytes line)
    projectedRows := h.projectedRows.map fun count => satAdd count (projectedLogicalLineRowCount line width)
    lines := h.lines ++ [line] }

/-- mirrors packages/terminal-grid/src/model.rs:2425-2439 -/
def pushRow (row : PhysicalRow) : History :=
  let cells := rowLogicalCells row width
  let pending := h.pending ++ cells
  let bytes := satAdd h.bytes (historyCellsBytes cells)
  if row.wrapped then { h with bytes, pending }
  else { h with pending := [], bytes := bytes - historyCellsBytes pending }.pushLine width
    (trimTrailingBlankCells pending)

def projectedRowCount : Nat :=
  h.projectedRows.getD (h.lines.map (projectedLogicalLineRowCount · width)).sum

def lineCount : Nat := h.lines.length + if h.pending.isEmpty then 0 else 1

/-- The loop of `evict_history_to_budget`; the lines it has not dropped yet are the last argument. -/
def evictLoop (scrollbackRows maxBytes width : Nat) (h : History) (lines : List LogicalLine) : History :=
  if lines.length > scrollbackRows ∨ h.bytes > maxBytes then
    match lines with
    | [] => { h with truncated := true, lines := [], pending := [], bytes := 0 }
    | line :: rest =>
      evictLoop scrollbackRows maxBytes width
        { h with
          truncated := true
          bytes := h.bytes - historyCellsBytes line
          projectedRows := h.projectedRows.map (· - projectedLogicalLineRowCount line width) }
        rest
  else { h with lines }

def evictToBudget (scrollbackRows maxBytes width : Nat) (h : History) : History :=
  evictLoop scrollbackRows maxBytes width h h.lines

/-- `erase_display(3)`, packages/terminal-grid/src/model.rs:1444-1451 -/
def erase : History := { truncated := h.truncated || decide (h.lineCount > 0) }

end History

namespace TerminalGrid

def new (width height : Nat) (limits : GridLimits) : Except TerminalGridError TerminalGrid :=
  if width = 0 ∨ height = 0 then .error .zeroDimensions
  else .ok { width, height, limits, mainRows := List.replicate height {}, altRows := List.replicate height {} }

variable (g : TerminalGrid)

def bumpRevision : TerminalGrid := { g with revision := satAdd g.revision 1 }

def bumpContentRevision : TerminalGrid :=
  { g with contentRevision := satAdd g.contentRevision 1, revision := satAdd g.revision 1 }

/-! ## Rows -/

def activeRows : List PhysicalRow :=
  match g.mode with
  | .main => g.mainRows
  | .alternate => g.altRows

variable (top bottom count : Nat) (row : Nat)

/-- A change of one row of the active screen, packages/terminal-grid/src/model.rs:1789-1794 -/
def modifyActiveRow (f : PhysicalRow → PhysicalRow) : TerminalGrid :=
  match g.mode with
  | .main => { g with mainRows := g.mainRows.modify row f }
  | .alternate => { g with altRows := g.altRows.modify row f }

def viewportRow : PhysicalRow := g.activeRows.getD row {}

def setViewportRow (value : PhysicalRow) : TerminalGrid := g.modifyActiveRow row fun _ => value

def replaceActiveRow (cells : List Cell) : TerminalGrid :=
  g.modifyActiveRow row fun old => rebuild cells g.width old.wrapped

def eraseStyle : StyleId × TerminalGrid :=
  let fill := g.currentStyle.eraseFill
  if fill = {} then (StyleId.DEFAULT, g)
  else
    let interned := g.palette.intern fill
    (interned.1, { g with palette := interned.2 })

def fillViewportRow (style : StyleId) (g : TerminalGrid) (row : Nat) : TerminalGrid :=
  g.setViewportRow row (eraseFilled g.width style)

def effectiveScrollRegion : Nat × Nat := g.scrollRegion.getD (0, g.height - 1)

def scrollRegionUpOnce (top bottom : Nat) (fill : StyleId) (g : TerminalGrid) : TerminalGrid :=
  let g := (List.range' top (bottom - top)).foldl (fun g row => g.setViewportRow row (g.viewportRow (row + 1))) g
  fillViewportRow fill g bottom

def scrollRegionUp : TerminalGrid :=
  if top > bottom ∨ bottom ≥ g.height then g
  else
    let fill := g.eraseStyle.1
    let g := g.eraseStyle.2
    (scrollRegionUpOnce top bottom fill)^[min count (bottom - top + 1)] g

def scrollRegionDownOnce (top bottom : Nat) (fill : StyleId) (g : TerminalGrid) : TerminalGrid :=
  let g := (List.range' (top + 1) (bottom - top)).reverse.foldl (fun g row =>
    g.setViewportRow row (g.viewportRow (row - 1))) g
  fillViewportRow fill g top

def scrollRegionDown : TerminalGrid :=
  if top > bottom ∨ bottom ≥ g.height then g
  else
    let fill := g.eraseStyle.1
    let g := g.eraseStyle.2
    (scrollRegionDownOnce top bottom fill)^[min count (bottom - top + 1)] g

/-! ## Scrolling out -/

def HISTORY_BUDGET : Nat := 8 * 1024 * 1024

def evictExcessHistory : TerminalGrid :=
  { g with history := g.history.evictToBudget g.limits.scrollbackRows HISTORY_BUDGET g.width }

/-- What reading the number of history rows leaves in its cache. -/
def cacheProjectedRows : TerminalGrid :=
  { g with history := { g.history with projectedRows := some (g.history.projectedRowCount g.width) } }

/-- mirrors packages/terminal-grid/src/model.rs:1878-1899 -/
def scrollUpOne : TerminalGrid :=
  let fill := g.eraseStyle.1
  let g := g.eraseStyle.2
  match g.mode with
  | .main =>
    let history := match g.mainRows with
      | row :: _ => g.history.pushRow g.width row
      | [] => g.history
    { g with
      history := history
      mainRows := g.mainRows.drop 1 ++ [eraseFilled g.width fill]
      totalScrolledRows := satAdd g.totalScrolledRows 1 }.evictExcessHistory
  | .alternate =>
    match g.altRows with
    | _ :: rows => { g with altRows := rows ++ [eraseFilled g.width fill] }
    | [] => g

/-! ## Cursor and modes -/

def clampCursor : TerminalGrid := { g with cursor := clampCursorToDimensions g.cursor g.width g.height }

def saveCursor : TerminalGrid :=
  { g with
    savedCursor := g.cursor
    savedCharacters := g.characters
    terminalState := { g.terminalState with
      savedStyle := g.currentStyle
      savedOriginMode := g.terminalState.originMode
      savedAutowrap := g.autowrap }
    savedPendingWrap := g.pendingWrap }.bumpRevision

def restoreCursor : TerminalGrid :=
  { g with
    cursor := g.savedCursor
    characters := g.savedCharacters
    currentStyle := g.terminalState.savedStyle
    terminalState := { g.terminalState with originMode := g.terminalState.savedOriginMode }
    autowrap := g.terminalState.savedAutowrap
    pendingWrap := g.savedPendingWrap }.clampCursor.bumpRevision

def clearAltRows : TerminalGrid := { g with altRows := List.replicate g.height {} }

/-- mirrors packages/terminal-grid/src/model.rs:1061-1097 -/
def setAlternateMode (mode : Int) (enabled : Bool) : TerminalGrid :=
  if ¬ (mode = 47 ∨ mode = 1047 ∨ mode = 1049) then g
  else if enabled then
    if g.mode = .alternate then g
    else
      let g := if mode = 1049 then g.saveCursor else g
      let g := { g with mode := .alternate }
      let g := if mode ≠ 47 then { g.clearAltRows with cursor := { g.cursor with row := 0, col := 0 } } else g
      { g with pendingWrap := false }.clampCursor.bumpContentRevision
  else if g.mode = .main then g
  else
    let g := { g with mode := .main, pendingWrap := false }
    let g := if mode ≠ 47 then g.clearAltRows else g
    let g := if mode = 1049 then g.restoreCursor else g
    let g := if mode ≠ 1049 then { g with pendingWrap := false } else g
    g.clampCursor.bumpContentRevision

def setCursorVisible (visible : Bool) : TerminalGrid :=
  { g with cursor := { g.cursor with visible } }.bumpRevision

variable (enabled : Bool)

def setAutowrap : TerminalGrid := { g with autowrap := enabled }.bumpRevision

/-- A change of the protocol state that counts as one if it changes anything. -/
def setProtocol (protocol : ProtocolState) : TerminalGrid :=
  if protocol = g.protocol then g else { g with protocol }.bumpRevision

def applyPointerShape (operation : PointerShapeOperation) : TerminalGrid :=
  g.setProtocol { g.protocol with
    pointerShapes := g.protocol.pointerShapes.apply (decide (g.mode = .alternate)) operation }

def setMouseTrackingMode (mode : MouseProtocolMode) (enabled : Bool) : TerminalGrid :=
  match mode with
  | .none => g
  | .press => g.setProtocol { g.protocol with mouseX10 := enabled }
  | .pressRelease => g.setProtocol { g.protocol with mousePressRelease := enabled }
  | .buttonMotion => g.setProtocol { g.protocol with mouseButtonMotion := enabled }
  | .anyMotion => g.setProtocol { g.protocol with mouseAnyMotion := enabled }

def setMouseEncoding (encoding : MouseProtocolEncoding) (enabled : Bool) : TerminalGrid :=
  match encoding with
  | .default => g
  | .utf8 => g.setProtocol { g.protocol with mouseUtf8 := enabled }
  | .sgr => g.setProtocol { g.protocol with mouseSgr := enabled }

def setMouseUrxvtEncoding : TerminalGrid :=
  g.setProtocol { g.protocol with mouseUrxvt := enabled }

def setApplicationCursor : TerminalGrid :=
  g.setProtocol { g.protocol with applicationCursor := enabled }

def setApplicationKeypad : TerminalGrid :=
  g.setProtocol { g.protocol with applicationKeypad := enabled }

def setBracketedPaste : TerminalGrid :=
  g.setProtocol { g.protocol with bracketedPaste := enabled }

def cursorRowBounds : Nat × Nat :=
  if g.terminalState.originMode then g.effectiveScrollRegion else (0, g.height - 1)

def moveCursorTo (row col : Nat) : TerminalGrid :=
  let top := g.cursorRowBounds.1
  let bottom := g.cursorRowBounds.2
  { g with
    pendingWrap := false
    cursor := { g.cursor with row := min (satAdd row top) bottom, col := min col (g.width - 1) } }.bumpRevision

def setScrollRegion (top bottom : Option Nat) : TerminalGrid :=
  let top := min (top.getD 0) (g.height - 1)
  let bottom := min (bottom.getD (g.height - 1)) (g.height - 1)
  if top ≥ bottom then g else { g with scrollRegion := some (top, bottom) }.moveCursorTo 0 0

def setOriginMode : TerminalGrid :=
  { g with terminalState := { g.terminalState with originMode := enabled } }.moveCursorTo 0 0

def setInsertMode : TerminalGrid :=
  { g with terminalState := { g.terminalState with insertMode := enabled } }.bumpRevision

def moveCursorColumn (col : Nat) : TerminalGrid :=
  { g with cursor := { g.cursor with col := min col (g.width - 1) }, pendingWrap := false }.bumpRevision

def moveCursorRow (row : Nat) : TerminalGrid := g.moveCursorTo row g.cursor.col

def moveCursorRelative (rows cols : Int) : TerminalGrid :=
  let top := g.cursorRowBounds.1
  let bottom := g.cursorRowBounds.2
  let row := max top (min bottom (satAddSigned g.cursor.row rows))
  { g with cursor := { g.cursor with row } }.moveCursorColumn (satAddSigned g.cursor.col cols)

def carriageReturn : TerminalGrid :=
  { g with pendingWrap := false, cursor := { g.cursor with col := 0 } }.bumpRevision

def backspace : TerminalGrid :=
  { g with pendingWrap := false, cursor := { g.cursor with col := g.cursor.col - 1 } }.bumpRevision

def defaultTabStops (width : Nat) : List Nat := (List.range' 8 (width - 8)).filter (· % 8 = 0)

def insertTabStop (stops : List Nat) (col : Nat) : List Nat :=
  if col ∈ stops then stops else stops.takeWhile (· < col) ++ col :: stops.dropWhile (· < col)

def setTabStops (stops : List Nat) : TerminalGrid :=
  { g with terminalState := { g.terminalState with tabStops := some stops } }

def setTabStop : TerminalGrid :=
  let stops := g.terminalState.tabStops.getD (defaultTabStops g.width)
  (g.setTabStops (insertTabStop stops g.cursor.col)).bumpRevision

variable (newWidth newHeight : Nat) (lines : List LogicalLine) (rows : List PhysicalRow) (width height : Nat)
    (count : Nat) (mode : Nat)

def clearTabStops : TerminalGrid :=
  match mode with
  | 0 =>
    let g := g.setTabStop
    (g.setTabStops ((g.terminalState.tabStops.getD []).filter (· ≠ g.cursor.col))).bumpRevision
  | 3 => (g.setTabStops []).bumpRevision
  | _ => g

def tab : TerminalGrid :=
  let next := match g.terminalState.tabStops with
    | none => (g.cursor.col / 8 + 1) * 8
    | some stops => (stops.find? (· > g.cursor.col)).getD (g.width - 1)
  { g with pendingWrap := false, cursor := { g.cursor with col := min next (g.width - 1) } }.bumpRevision

def linefeed : TerminalGrid :=
  let g := { g with pendingWrap := false }
  let top := g.effectiveScrollRegion.1
  let bottom := g.effectiveScrollRegion.2
  if g.cursor.row = bottom then
    if g.mode = .main ∧ top = 0 ∧ bottom + 1 = g.height then g.scrollUpOne.bumpContentRevision
    else (g.scrollRegionUp top bottom 1).bumpContentRevision
  else if g.cursor.row < g.height - 1 then { g with cursor := { g.cursor with row := g.cursor.row + 1 } }.bumpRevision
  else g.bumpRevision

def reverseIndex : TerminalGrid :=
  let g := { g with pendingWrap := false }
  let top := g.effectiveScrollRegion.1
  let bottom := g.effectiveScrollRegion.2
  if g.cursor.row = top then (g.scrollRegionDown top bottom 1).bumpContentRevision
  else { g with cursor := { g.cursor with row := g.cursor.row - 1 } }.bumpRevision

/-! ## Erasing and editing -/

def eraseLine : TerminalGrid :=
  let fill := g.eraseStyle.1
  let g := g.eraseStyle.2
  let col := g.cursor.col
  let g : TerminalGrid := match mode with
    | 0 => g.modifyActiveRow g.cursor.row fun row => row.clearRange col g.width fill
    | 1 => g.modifyActiveRow g.cursor.row fun row => row.clearRange 0 (col + 1) fill
    | 2 => g.modifyActiveRow g.cursor.row fun row => row.clearRange 0 g.width fill
    | _ => g
  g.bumpContentRevision

def eraseDisplay : TerminalGrid :=
  let fill := g.eraseStyle.1
  let g := g.eraseStyle.2
  let g : TerminalGrid := match mode with
    | 0 => (List.range' (g.cursor.row + 1) (g.height - (g.cursor.row + 1))).foldl (fillViewportRow fill) (g.eraseLine 0)
    | 1 => ((List.range g.cursor.row).foldl (fillViewportRow fill) g).eraseLine 1
    | 2 => (List.range g.height).foldl (fillViewportRow fill) g
    | 3 =>
      if g.mode = .main then { g with history := g.history.erase } else g
    | _ => g
  g.bumpContentRevision

def eraseChars : TerminalGrid :=
  let start := g.cursor.col
  let stop := min (satAdd start (max count 1)) g.width
  let fill := g.eraseStyle.1
  let g := g.eraseStyle.2
  (g.modifyActiveRow g.cursor.row fun row => row.clearRange start stop fill).bumpContentRevision

def insertCells (cells : List Cell) (width col count : Nat) (fill : StyleId) : List Cell :=
  cells.mapIdx fun index c =>
    if col ≤ index ∧ index < width then
      if index ≥ col + count then cells.getD (index - count) c else Cell.blank fill
    else c

def insertBlankChars : TerminalGrid :=
  let count := min (max count 1) (g.width - g.cursor.col)
  let width := g.width
  let col := g.cursor.col
  let fill := g.eraseStyle.1
  let g := g.eraseStyle.2
  let g := if (g.viewportRow g.cursor.row).continuesAt col then
      g.modifyActiveRow g.cursor.row fun row => row.clearRange col (col + 1) fill
    else g
  let cells := (g.viewportRow g.cursor.row).visualCells width
  (g.replaceActiveRow g.cursor.row (insertCells cells width col count fill)).bumpContentRevision

def deleteCells (cells : List Cell) (width col count : Nat) (fill : StyleId) : List Cell :=
  cells.mapIdx fun index c =>
    if col ≤ index ∧ index < width then
      if index + count < width then cells.getD (index + count) c else Cell.blank fill
    else c

def deleteChars : TerminalGrid :=
  let count := min (max count 1) (g.width - g.cursor.col)
  let width := g.width
  let col := g.cursor.col
  let fill := g.eraseStyle.1
  let g := g.eraseStyle.2
  let g := g.modifyActiveRow g.cursor.row fun row => row.clearRange col (col + count) fill
  let cells := (g.viewportRow g.cursor.row).visualCells width
  (g.replaceActiveRow g.cursor.row (deleteCells cells width col count fill)).bumpContentRevision

def insertBlankLines : TerminalGrid :=
  let top := g.effectiveScrollRegion.1
  let bottom := g.effectiveScrollRegion.2
  if g.cursor.row < top ∨ g.cursor.row > bottom then g
  else (g.scrollRegionDown g.cursor.row bottom (max count 1)).bumpContentRevision

def deleteLines : TerminalGrid :=
  let top := g.effectiveScrollRegion.1
  let bottom := g.effectiveScrollRegion.2
  if g.cursor.row < top ∨ g.cursor.row > bottom then g
  else (g.scrollRegionUp g.cursor.row bottom (max count 1)).bumpContentRevision

def setGraphicRendition (g : TerminalGrid) (params : List Int) : TerminalGrid :=
  { g with currentStyle := g.currentStyle.setGraphicRendition params }.bumpRevision

/-! ## Printing -/

/-- The row of the cursor marked as going on in the next one, which becomes the row of the
cursor: packages/terminal-grid/src/model.rs:1366-1369, 1372-1374 -/
def wrapLine : TerminalGrid :=
  let g := g.modifyActiveRow g.cursor.row fun row => { row with wrapped := true }
  { g with cursor := { g.cursor with col := 0 } }.linefeed

/-- The wrapping before a glyph, packages/terminal-grid/src/model.rs:1365-1375 -/
def wrapBefore (charWidth : Nat) : TerminalGrid :=
  let g := if g.autowrap ∧ g.pendingWrap then { g with pendingWrap := false }.wrapLine else g
  if g.autowrap ∧ g.cursor.col + charWidth > g.width then g.wrapLine else g

/-- The cursor behind a glyph, packages/terminal-grid/src/model.rs:1396-1402 -/
def advanceCursor (col charWidth : Nat) : TerminalGrid :=
  if col + charWidth ≥ g.width then
    { g with cursor := { g.cursor with col := g.width - 1 }, pendingWrap := g.autowrap }
  else { g with cursor := { g.cursor with col := col + charWidth }, pendingWrap := false }

/-- A glyph put where the cursor is, packages/terminal-grid/src/model.rs:1384-1402 -/
def placeGlyph (text : String) (charWidth : Nat) (style : StyleId) : TerminalGrid :=
  let row := g.cursor.row
  let col := g.cursor.col
  let g := if g.terminalState.insertMode then g.insertBlankChars charWidth else g
  (g.modifyActiveRow row fun r => r.putGlyph col text charWidth style g.width).advanceCursor col charWidth

def printGrapheme (text : String) (charWidth : Nat) : TerminalGrid :=
  let g := g.wrapBefore charWidth
  let interned := g.palette.intern g.currentStyle
  let g := { g with palette := interned.2 }
  let col := g.cursor.col
  if charWidth > g.width - col then
    (g.modifyActiveRow g.cursor.row fun r => r.clearRange col (col + 1) interned.1).bumpContentRevision
  else (g.placeGlyph text charWidth interned.1).bumpContentRevision

def graphemeColumn : Option Nat :=
  if g.pendingWrap then some g.cursor.col else if g.cursor.col = 0 then none else some (g.cursor.col - 1)

/-- That glyph, packages/terminal-grid/src/model.rs:3034-3051 -/
def graphemeCell : Option (Nat × Cell) := do
  let row := g.viewportRow g.cursor.row
  let col ← g.graphemeColumn
  let col := if row.continuesAt col then col - 1 else col
  let cell ← row.cells[col]?
  return (col, cell)

/-- A glyph whose width changed taken off the row and printed again,
packages/terminal-grid/src/model.rs:3070-3087 -/
def reprintGlyph (col : Nat) (cell : Cell) (text : String) (width : Nat) : TerminalGrid :=
  let blanked := g.modifyActiveRow g.cursor.row fun r => r.blankGlyph col cell.width cell.style
  let moved := { blanked with
    cursor := { g.cursor with col }, pendingWrap := false, currentStyle := g.palette.get cell.style }
  { moved.printGrapheme text width with currentStyle := g.currentStyle }

/-- mirrors packages/terminal-grid/src/model.rs:3024-3088; `none` if the character begins a
glyph of its own -/
def extendGrapheme (u : Unicode) (g : TerminalGrid) (ch : Char) : Option TerminalGrid :=
  if ch.toNat < 0x80 then none
  else
    g.graphemeCell.bind fun (col, cell) =>
      let text := cell.text.push ch
      let extended := g.modifyActiveRow g.cursor.row fun r => r.setText col text
      let width := max 1 (min 2 (u.strWidth text))
      if 0x300 ≤ ch.toNat ∧ ch.toNat ≤ 0x36f then some extended
      else if (u.graphemes text).length ≠ 1 then none
      else if width = cell.width then some extended
      else some (g.reprintGlyph col cell text width)

def printChar (u : Unicode) (g : TerminalGrid) (ch : Char) : TerminalGrid :=
  match g.extendGrapheme u ch with
  | some g => g.bumpContentRevision
  | none =>
    let charWidth := (u.charWidth ch).getD 0
    if charWidth = 0 then g else g.printGrapheme (String.singleton ch) (min charWidth 2)

def reset : TerminalGrid :=
  match new (min g.width 65535) (min g.height 65535) g.limits with
  | .ok fresh => { fresh with revision := g.revision, contentRevision := g.contentRevision }.bumpContentRevision
  | .error _ => g

/-! ## Resizing -/

/-- mirrors packages/terminal-grid/src/model.rs:2856-2865 -/
def trimResizeRows (rows : List PhysicalRow) (cursorRow : Nat) : List PhysicalRow :=
  match _h : rows.getLast? with
  | some row =>
    if rows.length > 1 ∧ rowIsBlank row ∧ ¬ row.wrapped ∧ cursorRow < rows.length - 1 then
      trimResizeRows rows.dropLast cursorRow
    else rows
  | none => rows
termination_by rows.length
decreasing_by
  have hne : rows ≠ [] := by
    rintro rfl
    cases _h
  rw [List.length_dropLast]
  exact Nat.sub_lt (List.length_pos_iff.mpr hne) Nat.one_pos

structure CursorAnchor where
  logicalLine : Nat
  logicalCol : Nat

def anchorLoop (width target col : Nat) (index logicalLine runStart firstCols : Nat) :
    List PhysicalRow → Option CursorAnchor
  | [] => none
  | row :: rows =>
    if index = target then some ⟨logicalLine, firstCols + (index - runStart) * width + col⟩
    else if row.wrapped then anchorLoop width target col (index + 1) logicalLine runStart firstCols rows
    else anchorLoop width target col (index + 1) (logicalLine + 1) (index + 1) 0 rows

def liveCursorAnchor (cursor : Cursor) : Option CursorAnchor :=
  anchorLoop g.width (min cursor.row (rows.length - 1)) cursor.col 0 0 0 (logicalWidth g.history.pending) rows

def liveLoop (width : Nat) (logical : List Cell) : List PhysicalRow → List LogicalLine
  | [] => if logical.isEmpty then [] else [trimTrailingBlankCells logical]
  | row :: rows =>
    let logical := logical ++ rowLogicalCells row width
    if row.wrapped then liveLoop width logical rows else trimTrailingBlankCells logical :: liveLoop width [] rows

def liveLogicalLines (width : Nat) (pending : List Cell) (rows : List PhysicalRow) : List LogicalLine :=
  let lines := liveLoop width pending rows
  if lines.isEmpty then [[]] else lines

/-- mirrors packages/terminal-grid/src/model.rs:2994-3020; the rows of the lines before the
one with the cursor are `absoluteRow` -/
def restoredLoop (fallback : Cursor) (anchor : CursorAnchor) (keepStart width height : Nat)
    (lineIndex absoluteRow : Nat) :
    List Nat → Cursor
  | [] => clampCursorToDimensions fallback width height
  | count :: counts =>
    if lineIndex = anchor.logicalLine then
      { row := min (absoluteRow + anchor.logicalCol / max width 1 - keepStart) (height - 1)
        col := min (anchor.logicalCol % max width 1) (width - 1)
        visible := fallback.visible }
    else restoredLoop fallback anchor keepStart width height (lineIndex + 1) (absoluteRow + count) counts

def restoredLiveCursorAnchor (fallback : Cursor) (anchor : Option CursorAnchor) (counts : List Nat)
    (keepStart width height : Nat) :
    Cursor :=
  match anchor with
  | none => clampCursorToDimensions fallback width height
  | some anchor => restoredLoop fallback anchor keepStart width height 0 0 counts

/-- The rows of the live lines at a new width, shared out between history, the pending line and the screen. -/
structure Placed where
  history : History
  pending : List Cell := []
  rows : List PhysicalRow := []

/-- The loop of `resize_main_viewport` over the lines; the history still counts rows at the
old width. -/
def placeLines (width newWidth keepStart : Nat) (rowIndex : Nat) (p : Placed) : List LogicalLine → Placed
  | [] => p
  | line :: lines =>
    let lineEnd := rowIndex + projectedLogicalLineRowCount line newWidth
    if lineEnd ≤ keepStart then
      placeLines width newWidth keepStart lineEnd { p with history := p.history.pushLine width line } lines
    else
      let hidden := keepStart - rowIndex
      let rows := projectLogicalLine line newWidth
      placeLines width newWidth keepStart lineEnd
        { p with
          pending := p.pending ++ (rows.take hidden).flatMap (rowLogicalCells · newWidth)
          rows := p.rows ++ rows.drop hidden }
        lines

def padRows (len : Nat) : List PhysicalRow := rows ++ List.replicate (len - rows.length) ({} : PhysicalRow)

def resizeLines (mainCursor : Cursor) : List LogicalLine :=
  liveLogicalLines g.width g.history.pending (trimResizeRows g.mainRows mainCursor.row)

def rowCounts (width : Nat) : List Nat := lines.map (projectedLogicalLineRowCount · width)

def keepStart (newWidth newHeight : Nat) : Nat := (rowCounts lines newWidth).sum - newHeight

/-- The history and the rows of the main screen behind a resize, packages/terminal-grid/src/model.rs:2887-2929 -/
def resizeRows : History × List PhysicalRow :=
  let p := placeLines g.width newWidth (keepStart lines newWidth newHeight)
    0 { history := { g.history with pending := [] } } lines
  let pending := trimTrailingBlankCells p.pending
  let history := { p.history with
    pending := pending
    bytes := satAdd (p.history.lines.map historyCellsBytes).sum (historyCellsBytes pending) }
  let rows := padRows p.rows newHeight
  ((rows.take (rows.length - newHeight)).foldl (History.pushRow g.width) history, rows.drop (rows.length - newHeight))

/-- mirrors packages/terminal-grid/src/model.rs:2867-2943; with the cursor and the row shift -/
def resizeMainViewport (mainCursor : Cursor) : (Cursor × Int) × TerminalGrid :=
  let pendingRows := projectedPendingRowCount g.history.pending g.width
  let lines := g.resizeLines mainCursor
  let anchor := g.liveCursorAnchor (trimResizeRows g.mainRows mainCursor.row) mainCursor
  let start := keepStart lines newWidth newHeight
  let cursor := restoredLiveCursorAnchor mainCursor anchor (rowCounts lines newWidth) start newWidth newHeight
  let resized := g.resizeRows newWidth newHeight lines
  ((cursor, (start : Int) - pendingRows), { g with history := resized.1, mainRows := resized.2 })

def clampRegion (height : Nat) (region : Option (Nat × Nat)) : Option (Nat × Nat) :=
  region.bind fun (top, bottom) =>
    let top := min top (height - 1)
    let bottom := min bottom (height - 1)
    if top < bottom then some (top, bottom) else none

def fitAltRow (width : Nat) (row : PhysicalRow) : PhysicalRow := { row.truncate width with wrapped := false }

/-- Everything but the main rows and the history fitted to the size,
packages/terminal-grid/src/model.rs:1020-1035 -/
def fitToSize : TerminalGrid :=
  { g with
    altRows := (padRows (g.altRows.take height) height).map (fitAltRow width)
    scrollRegion := clampRegion height g.scrollRegion
    cursor := clampCursorToDimensions g.cursor width height
    savedCursor := clampCursorToDimensions g.savedCursor width height
    terminalState := { g.terminalState with
      tabStops := g.terminalState.tabStops.map fun stops => stops.filter (· < width) } }

/-- The cursor of the main screen, packages/terminal-grid/src/model.rs:1001-1004 -/
def mainCursor : Cursor :=
  match g.mode with
  | .main => g.cursor
  | .alternate => g.savedCursor

/-- mirrors packages/terminal-grid/src/model.rs:1007-1013 -/
def setMainCursor (cursor : Cursor) : TerminalGrid :=
  match g.mode with
  | .main => { g with cursor }
  | .alternate => { g with savedCursor := cursor, savedPendingWrap := false }

/-- mirrors packages/terminal-grid/src/model.rs:1014-1019 -/
def setSize : TerminalGrid :=
  { g with
    history := if g.width ≠ width then { g.history with projectedRows := none } else g.history
    width := width
    height := height
    pendingWrap := false }

/-- The grid at a new size, packages/terminal-grid/src/model.rs:1005-1036 -/
def resized : TerminalGrid :=
  let main := g.resizeMainViewport width height g.mainCursor
  let g := (main.2.setMainCursor main.1.1).setSize width height
  (g.evictExcessHistory.fitToSize width height).bumpContentRevision

/-- mirrors packages/terminal-grid/src/model.rs:987-1038; the shift of the main rows is known if
the width stays -/
def resizeWithMainRowShift : Except TerminalGridError (Option Int × TerminalGrid) :=
  if width = 0 ∨ height = 0 then .error .zeroDimensions
  else if g.width = width ∧ g.height = height then .ok (some 0, g)
  else
    let shift := if g.width = width then some (g.resizeMainViewport width height g.mainCursor).1.2 else none
    .ok (shift, g.resized width height)

def resize : Except TerminalGridError TerminalGrid :=
  (g.resizeWithMainRowShift width height).map Prod.snd

end TerminalGrid
end Bmux.Terminal
