import Bmux.L4Terminal.WellFormed
import Bmux.L4Terminal.VtParser

/-!
# Byte streams into the grid (`packages/terminal-grid/src/parser.rs`)

`perform` is what `GridPerformer` does for each call of the decoder, and
`TerminalGridStream.process` runs a chunk of bytes.

* `TerminalGrid.WellFormed.perform`: every call keeps the grid well formed.
* `run_wellFormed`: so does every sequence of chunks and resizes.
-/
namespace Bmux.Terminal

def flattenParams (params : List (List Nat)) : List Int :=
  params.flatMap fun param => if param.isEmpty then [0] else param.map Int.ofNat

def oneBased (value : Option Int) : Nat := if value.getD 1 ≤ 0 then 1 else (value.getD 1).toNat

def defaultZero (value : Option Int) : Nat := (value.getD 0).toNat

/-- The operands of an extended color, if they are well formed. -/
def normalizedColor : List Nat → Option (List Nat)
  | [5, value] => if value ≤ 255 then some [5, value] else none
  | [2, r, g, b] => if r ≤ 255 ∧ g ≤ 255 ∧ b ≤ 255 then some [2, r, g, b] else none
  | [2, 0, r, g, b] => if r ≤ 255 ∧ g ≤ 255 ∧ b ≤ 255 then some [2, r, g, b] else none
  | _ => none

/-- The operands behind an extended color code and the groups they take up. -/
def colorOperands (group : List Nat) (rest : List (List Nat)) : List Nat × Nat :=
  if group.length > 1 then (group.drop 1, 0)
  else
    let count := match rest.head?.bind List.head? with
      | some 2 => 4
      | some 5 => 2
      | _ => rest.length
    let consumed := min count rest.length
    ((rest.take consumed).map fun g => if g.length = 1 then g.headD 0 else 65535, consumed)

def sgrLoop : List (List Nat) → List Int
  | [] => []
  | group :: rest =>
    let code := group.headD 0
    if code = 38 ∨ code = 48 ∨ code = 58 then
      let operands := colorOperands group rest
      let output := if code ≠ 58 then (normalizedColor operands.1).elim [] fun color => (code :: color).map Int.ofNat
        else []
      output ++ sgrLoop (rest.drop operands.2)
    else if group.length = 1 then (code : Int) :: sgrLoop rest
    else match group with
      | [4, kind] => if kind ≤ 5 then (if kind = 0 then 24 else 4) :: sgrLoop rest else sgrLoop rest
      | _ => sgrLoop rest
termination_by groups => groups.length
decreasing_by all_goals simp only [List.length_drop, List.length_cons]; omega

def sgrParams (params : List (List Nat)) : List Int :=
  let output := sgrLoop params
  if output.isEmpty then [-1] else output

namespace TerminalGrid

/-- A private mode, packages/terminal-grid/src/parser.rs:729-759 -/
def setPrivateMode (enabled : Bool) (g : TerminalGrid) (value : Int) : TerminalGrid :=
  match value with
  | 1 => g.setApplicationCursor enabled
  | 6 => g.setOriginMode enabled
  | 7 => g.setAutowrap enabled
  | 9 => g.setMouseTrackingMode .press enabled
  | 25 => g.setCursorVisible enabled
  | 47 => g.setAlternateMode value enabled
  | 1047 => g.setAlternateMode value enabled
  | 1049 => g.setAlternateMode value enabled
  | 1000 => g.setMouseTrackingMode .pressRelease enabled
  | 1002 => g.setMouseTrackingMode .buttonMotion enabled
  | 1003 => g.setMouseTrackingMode .anyMotion enabled
  | 1005 => g.setMouseEncoding .utf8 enabled
  | 1006 => g.setMouseEncoding .sgr enabled
  | 1015 => g.setMouseUrxvtEncoding enabled
  | 2004 => g.setBracketedPaste enabled
  | _ => g

/-- mirrors packages/terminal-grid/src/parser.rs:638-771 behind the checks of the header -/
def csiDispatch (u : Unicode) (g : TerminalGrid) (values : List Int) (isPrivate : Bool) (action : Char) :
    TerminalGrid :=
  let first := oneBased values.head?
  match action with
  | 'A' => g.moveCursorRelative (-first) 0
  | 'B' => g.moveCursorRelative first 0
  | 'C' => g.moveCursorRelative 0 first
  | 'D' => g.moveCursorRelative 0 (-first)
  | 'd' => g.moveCursorRow (first - 1)
  | 'b' =>
    match g.characters.last with
    | some ch => (fun g : TerminalGrid => g.printChar u ch)^[first] g
    | none => g
  | 'G' | '\x60' => g.moveCursorColumn (first - 1)
  | 'H' | 'f' => g.moveCursorTo (first - 1) (oneBased values[1]? - 1)
  | 'E' => (g.moveCursorRelative first 0).carriageReturn
  | 'F' => (g.moveCursorRelative (-first) 0).carriageReturn
  | 'J' => g.eraseDisplay (defaultZero values.head?)
  | 'K' => g.eraseLine (defaultZero values.head?)
  | 'L' => g.insertBlankLines first
  | 'M' => g.deleteLines first
  | 'P' => g.deleteChars first
  | 'S' => g.scrollRegionUp g.effectiveScrollRegion.1 g.effectiveScrollRegion.2 first
  | 'T' => g.scrollRegionDown g.effectiveScrollRegion.1 g.effectiveScrollRegion.2 first
  | 'X' => g.eraseChars first
  | '@' => g.insertBlankChars first
  | 'g' => g.clearTabStops (defaultZero values.head?)
  | 's' => g.saveCursor
  | 'u' => g.restoreCursor
  | 'r' =>
    if values.isEmpty then g.setScrollRegion none none
    else g.setScrollRegion (some (first - 1)) ((values[1]?.filter (· ≠ 0)).map fun value => oneBased (some value) - 1)
  | 'h' | 'l' =>
    let enabled := decide (action = 'h')
    if isPrivate then values.foldl (setPrivateMode enabled) g
    else values.foldl (fun g value => if value = 4 then g.setInsertMode enabled else g) g
  | _ => g

variable (g : TerminalGrid)

/-- mirrors packages/terminal-grid/src/parser.rs:771-805 -/
def escDispatch (intermediates : List UInt8) (ignore : Bool) (byte : UInt8) : TerminalGrid :=
  if ignore then g
  else match intermediates with
    | [] =>
      match byte with
      | 0x37 => g.saveCursor
      | 0x38 => g.restoreCursor
      | 0x48 => g.setTabStop
      | 0x44 => g.linefeed
      | 0x45 => g.linefeed.carriageReturn
      | 0x4d => g.reverseIndex
      | 0x3d => g.setApplicationKeypad true
      | 0x3e => g.setApplicationKeypad false
      | 0x63 => g.reset
      | _ => g
    | [slot] =>
      if (slot = 0x28 ∨ slot = 0x29) ∧ (byte = 0x30 ∨ byte = 0x42) then
        let graphics := g.characters.graphics.setIfInBounds (if slot = 0x29 then 1 else 0) (decide (byte = 0x30))
        { g with characters := { g.characters with graphics } }.bumpRevision
      else g
    | _ => g

def execute (byte : UInt8) : TerminalGrid :=
  match byte with
  | 0x0a | 0x0b | 0x0c => g.linefeed
  | 0x0d => g.carriageReturn
  | 0x08 => g.backspace
  | 0x0e => { g with characters := { g.characters with active := 1 } }.bumpRevision
  | 0x0f => { g with characters := { g.characters with active := 0 } }.bumpRevision
  | 0x09 => g.tab
  | _ => g

/-- mirrors packages/terminal-grid/src/parser.rs:616-632; a query changes nothing -/
def oscDispatch (params : List (List UInt8)) : TerminalGrid :=
  match params with
  | [selector, payload] =>
    if selector = [0x32, 0x32] then
      match parsePointerShape payload with
      | some (.query _) => g
      | some operation => g.applyPointerShape operation
      | none => g
    else g
  | _ => g

/-- mirrors packages/terminal-grid/src/parser.rs:584-807 -/
def perform (u : Unicode) (g : TerminalGrid) : Action → TerminalGrid
  | .print c =>
    let ch := g.characters.translate c
    { g with characters := { g.characters with last := some ch } }.printChar u ch
  | .execute byte => g.execute byte
  | .hook .. => g
  | .put _ => g
  | .unhook => g
  | .oscDispatch params _ => g.oscDispatch params
  | .csiDispatch params intermediates ignore action =>
    let headerOk := intermediates.isEmpty || ((action = 'h' || action = 'l') && intermediates = [0x3f])
    if ignore || !headerOk || (action ≠ 'm' && params.any fun group => group.length ≠ 1) then g
    else if action = 'm' then g.setGraphicRendition (sgrParams params)
    else g.csiDispatch u (flattenParams params) (decide (intermediates = [0x3f])) action
  | .escDispatch intermediates ignore byte => g.escDispatch intermediates ignore byte

end TerminalGrid

structure TerminalGridStream where
  parser : Parser := {}
  grid : TerminalGrid
  pendingBytes : List UInt8 := []
  deriving DecidableEq

namespace TerminalGridStream

def new (width height : Nat) (limits : GridLimits) : Except TerminalGridError TerminalGridStream :=
  (TerminalGrid.new width height limits).map fun grid => { grid }

/-- mirrors packages/terminal-grid/src/parser.rs:83-85, without observing pointer queries -/
def process (u : Unicode) (s : TerminalGridStream) (bytes : List UInt8) : TerminalGridStream :=
  if bytes = [] then s
  else
    let advanced := s.parser.advance bytes
    let grid := advanced.1.foldl (TerminalGrid.perform u) s.grid
    let pendingBytes := advanced.2.replayPrefix
    { parser := advanced.2
      grid := if pendingBytes ≠ s.pendingBytes ∧ grid.revision = s.grid.revision then grid.bumpRevision else grid
      pendingBytes }

def resize (s : TerminalGridStream) (width height : Nat) : Except TerminalGridError TerminalGridStream :=
  (s.grid.resize width height).map fun grid => { s with grid }

end TerminalGridStream

/-! ## Well-formedness -/

namespace TerminalGrid.WellFormed
variable {g : TerminalGrid} {u : Unicode} (h : g.WellFormed)
include h

theorem setPrivateMode (enabled : Bool) (value : Int) : (setPrivateMode enabled g value).WellFormed := by
  unfold TerminalGrid.setPrivateMode
  split
  case h_1 | h_14 | h_15 => exact h.setProtocol _
  case h_4 | h_9 | h_10 | h_11 => exact h.setMouseTrackingMode _ _
  case h_6 | h_7 | h_8 => exact h.setAlternateMode _ _
  case h_12 | h_13 => exact h.setMouseEncoding _ _
  · exact h.setOriginMode _
  · exact h.setAutowrap _
  · exact h.setCursorVisible _
  · exact h

theorem csiDispatch (hu : u.NarrowSpace) (values : List Int) (isPrivate : Bool) (action : Char) :
    (g.csiDispatch u values isPrivate action).WellFormed := by
  unfold TerminalGrid.csiDispatch
  split
  case h_1 | h_2 | h_3 | h_4 => exact h.moveCursorRelative _ _
  case h_5 | h_9 | h_10 => exact h.moveCursorTo _ _
  case h_7 | h_8 => exact h.moveCursorColumn _
  case h_11 | h_12 => exact (h.moveCursorRelative _ _).carriageReturn
  case h_26 | h_27 =>
    exact (foldl (fun _ value hg => hg.setPrivateMode _ value) _ h).ite
      (foldl (fun _ _ hg => (hg.setInsertMode _).ite hg) _ h)
  · split
    · exact iterate (fun g hg => hg.printChar hu _) _ h
    · exact h
  · exact h.eraseDisplay _
  · exact h.eraseLine _
  · exact h.insertBlankLines _
  · exact h.deleteLines _
  · exact h.deleteChars _
  · exact h.scrollRegionUp _ _ _
  · exact h.scrollRegionDown _ _ _
  · exact h.eraseChars _
  · exact h.insertBlankChars _
  · exact h.clearTabStops _
  · exact h.saveCursor
  · exact h.restoreCursor
  · exact (h.setScrollRegion _ _).ite (h.setScrollRegion _ _)
  · exact h

theorem escDispatch (intermediates : List UInt8) (ignore : Bool) (byte : UInt8) :
    (g.escDispatch intermediates ignore byte).WellFormed := by
  refine h.ite ?_
  split
  · split
    · exact h.saveCursor
    · exact h.restoreCursor
    · exact h.setTabStop
    · exact h.linefeed
    · exact h.linefeed.carriageReturn
    · exact h.reverseIndex
    · exact h.setProtocol _
    · exact h.setProtocol _
    · exact h.reset
    · exact h
  · refine ite ?_ h
    exact { h with }
  · exact h

theorem execute (byte : UInt8) : (g.execute byte).WellFormed := by
  unfold TerminalGrid.execute
  split
  · exact h.linefeed
  · exact h.linefeed
  · exact h.linefeed
  · exact h.carriageReturn
  · exact h.backspace
  · exact { h with }
  · exact { h with }
  · exact h.tab
  · exact h

theorem oscDispatch (params : List (List UInt8)) : (g.oscDispatch params).WellFormed := by
  unfold TerminalGrid.oscDispatch
  split
  · refine ite ?_ h
    split
    · exact h
    · exact h.setProtocol _
    · exact h
  · exact h

theorem perform (hu : u.NarrowSpace) (a : Action) : (g.perform u a).WellFormed := by
  cases a with
  | print c =>
    have hlast : WellFormed { g with characters := { g.characters with last := some (g.characters.translate c) } } :=
      { h with }
    exact hlast.printChar hu _
  | execute byte => exact h.execute byte
  | hook | put | unhook => exact h
  | oscDispatch params bell => exact h.oscDispatch params
  | csiDispatch params intermediates ignore action =>
    exact h.ite ((h.setGraphicRendition _).ite (h.csiDispatch hu _ _ _))
  | escDispatch intermediates ignore byte => exact h.escDispatch intermediates ignore byte

end TerminalGrid.WellFormed

namespace TerminalGridStream
variable {u : Unicode} {s : TerminalGridStream}

theorem wellFormed_process (hu : u.NarrowSpace) (h : s.grid.WellFormed) (bytes : List UInt8) :
    (s.process u bytes).grid.WellFormed := by
  unfold process
  split
  · exact h
  · have hrun : ((s.parser.advance bytes).1.foldl (TerminalGrid.perform u) s.grid).WellFormed :=
      TerminalGrid.WellFormed.foldl (fun _ a hg => hg.perform hu a) _ h
    exact hrun.bumpRevision.ite hrun

inductive Input where
  | bytes (chunk : List UInt8)
  | resize (width height : Nat)

/-- A step; a resize that fails leaves the stream as it is. -/
def step (u : Unicode) (s : TerminalGridStream) : Input → TerminalGridStream
  | .bytes chunk => s.process u chunk
  | .resize width height => (s.resize width height).toOption.getD s

theorem wellFormed_step (hu : u.NarrowSpace) (h : s.grid.WellFormed) (i : Input) : (s.step u i).grid.WellFormed := by
  cases i with
  | bytes chunk => exact wellFormed_process hu h chunk
  | resize width height =>
    change (((s.grid.resize width height).map fun grid => { s with grid }).toOption.getD s).grid.WellFormed
    cases hres : s.grid.resize width height with
    | error e => exact h
    | ok g => exact h.resize hres

def run (u : Unicode) (s : TerminalGridStream) (inputs : List Input) : TerminalGridStream := inputs.foldl (step u) s

theorem wellFormed_runFrom (hu : u.NarrowSpace) (h : s.grid.WellFormed) (inputs : List Input) :
    (s.run u inputs).grid.WellFormed := by
  induction inputs generalizing s with
  | nil => exact h
  | cons i inputs ih => exact ih (wellFormed_step hu h i)

/-- Whatever chunks and resizes arrive, the grid is well formed behind each of them. -/
theorem run_wellFormed (hu : u.NarrowSpace) {width height : Nat} (hw : 1 ≤ width) (hh : 1 ≤ height)
    (limits : GridLimits) :
    ∃ s, new width height limits = .ok s ∧ ∀ inputs, (s.run u inputs).grid.WellFormed := by
  have hpos : ¬ (width = 0 ∨ height = 0) := by omega
  cases hnew : TerminalGrid.new width height limits with
  | error e =>
    unfold TerminalGrid.new at hnew
    rw [if_neg hpos] at hnew
    cases hnew
  | ok g =>
    refine ⟨{ grid := g }, by rw [new, hnew]; rfl, fun inputs => ?_⟩
    exact wellFormed_runFrom hu (TerminalGrid.wellFormed_new hnew) inputs

end TerminalGridStream

namespace Sample

def unicode (wide : Char → Bool) : Unicode where
  charWidth c := some (if wide c then 2 else 1)
  strWidth s := (s.toList.map fun c => if wide c then 2 else 1).sum
  graphemes s := s.toList.map String.singleton

def stream (u : Unicode) (width height : Nat) (inputs : List TerminalGridStream.Input) : TerminalGridStream :=
  TerminalGridStream.run u
    { grid := { width, height, limits := {}
                mainRows := List.replicate height {}, altRows := List.replicate height {} } } inputs

theorem narrow_run_wellFormed : (unicode (· = '界')).NarrowSpace ∧
    ∃ s, TerminalGridStream.new 4 2 {} = .ok s ∧ ∀ inputs, (s.run (unicode (· = '界')) inputs).grid.WellFormed := by
  have hu : (unicode (· = '界')).NarrowSpace := by decide
  exact ⟨hu, TerminalGridStream.run_wellFormed hu (by decide) (by decide) {}⟩

/-- A wide space is trimmed away from its spacer. -/
theorem wide_space_cut : TerminalGridStream.new 2 1 {} = .ok (stream (unicode (· = ' ')) 2 1 []) ∧
    ¬ (stream (unicode (· = ' ')) 2 1 [.bytes [0x20]]).grid.WellFormed := by
  have hrows : (stream (unicode (· = ' ')) 2 1 [.bytes [0x20]]).grid.mainRows =
    [⟨[Cell.blank 0, Cell.spacer 0], false⟩] := by
    decide +kernel
  refine ⟨rfl, fun h => ?_⟩
  have hrow := h.main.wellFormed ⟨[Cell.blank 0, Cell.spacer 0], false⟩ (by rw [hrows]; exact List.mem_singleton_self _)
  obtain ⟨j, hj, hlead⟩ := hrow.paired.spacer 1 rfl
  have hzero : j = 0 := by omega
  rw [hzero] at hlead
  cases hlead.1

end Sample
end Bmux.Terminal
