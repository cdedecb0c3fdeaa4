import Mathlib

/-!
# The text buffer of an editor (`packages/text-edit/src/lib.rs`)

A text with a cursor, a selection and a history of edits. Positions are UTF-8 byte offsets, so
the text is a list of characters and `splitAt` finds the characters before an offset. An offset
inside a character makes the source panic, which is `none` here.

This module has the edits as they are before the history records them (`..Unrecorded`) and the
motions. What the history adds is in `EditHistory`.
-/
namespace Bmux.TextEdit
open Option

/-- What the editor asks of the Unicode tables and of its soft wrapping. -/
structure Tables where
  /-- `UnicodeSegmentation::graphemes(true)` -/
  graphemes : List Char → List (List Char)
  /-- `char::is_whitespace` -/
  isWhitespace : Char → Bool
  /-- `char::is_alphanumeric` -/
  isAlphanumeric : Char → Bool
  /-- The column of a cursor in the projection of a text that wraps hard lines only,
  packages/text-edit/src/lib.rs:671-673 -/
  cursorVisualCol : List Char → Nat → Nat
  /-- The position a row above or below, from a text, a cursor and a preferred column,
  packages/text-edit/src/lib.rs:675-689 -/
  visualVerticalPosition : List Char → Nat → Option Nat → Int → Nat

/-! ## Texts -/

variable (e : Tables) (text : List Char)

def len : Nat := (text.map Char.utf8Size).sum

/-- A text cut at a byte offset, if a character starts or the text ends there. -/
def splitAt : List Char → Nat → Option (List Char × List Char)
  | text, 0 => some ([], text)
  | [], _ + 1 => none
  | c :: text, n + 1 => if c.utf8Size ≤ n + 1 then (splitAt text (n + 1 - c.utf8Size)).map fun cut =>
      (c :: cut.1, cut.2) else none

variable (cursor index : Nat)

def isCharBoundary : Bool := (splitAt text index).isSome

def insertAt (value : List Char) : Option (List Char) :=
  (splitAt text index).map fun cut => cut.1 ++ value ++ cut.2

def cutRange (start stop : Nat) : Option (List Char × List Char × List Char) :=
  (splitAt text stop).bind fun back => (splitAt back.1 start).map fun front => (front.1, front.2, back.2)

def drain (start stop : Nat) : Option (List Char) := (cutRange text start stop).map fun cut => cut.1 ++ cut.2.2

def findNewline : List Char → Option Nat
  | [] => none
  | c :: text => if c = '\n' then some 0 else (findNewline text).map (c.utf8Size + ·)

def rfindNewline : List Char → Option Nat
  | [] => none
  | c :: text =>
    match rfindNewline text with
    | some index => some (c.utf8Size + index)
    | none => if c = '\n' then some 0 else none

def indices (start : Nat) : List (List Char) → List (Nat × List Char)
  | [] => []
  | piece :: pieces => (start, piece) :: indices (start + len piece) pieces

def graphemeIndices : List (Nat × List Char) := indices 0 (e.graphemes text)

def snapToGraphemeBoundary : Nat :=
  let index := min index (len text)
  let boundary := match splitAt text index with
    | some cut => decide (index = len text) || !(e.graphemes cut.2).isEmpty
    | none => false
  if boundary then index
  else ((((graphemeIndices e text).map Prod.fst).takeWhile (· ≤ index)).getLast?).getD 0

def previousGraphemeBoundary : Option (Option Nat) :=
  (splitAt text cursor).map fun cut => (graphemeIndices e cut.1).getLast?.map Prod.fst

def nextGraphemeBoundary : Option (Option Nat) :=
  if cursor ≥ len text then some none
  else (splitAt text cursor).map fun cut => some (((graphemeIndices e cut.2)[1]?).elim (len text) fun next =>
    cursor + next.1)

inductive WordBoundaryPolicy where
  | punctuation | whitespace
  deriving DecidableEq, Repr

variable (policy : WordBoundaryPolicy)

def isAsciiPunctuation (c : Char) : Bool :=
  (0x21 ≤ c.toNat && c.toNat ≤ 0x2f) || (0x3a ≤ c.toNat && c.toNat ≤ 0x40) || (0x5b ≤ c.toNat && c.toNat ≤ 0x60) ||
    (0x7b ≤ c.toNat && c.toNat ≤ 0x7e)

def WordBoundaryPolicy.isSeparator (grapheme : List Char) : Bool :=
  match policy with
  | .punctuation => grapheme.all e.isWhitespace || grapheme.all isAsciiPunctuation
  | .whitespace => grapheme.all e.isWhitespace

/-- Where the loops over the words begin, packages/text-edit/src/lib.rs:998-1001 -/
def spanIndex (spans : List (Nat × List Char)) (cursor : Nat) : Nat := (spans.findIdx? (·.1 = cursor)).getD spans.length

def previousWordBoundary : Nat :=
  let spans := graphemeIndices e text
  let before := spans.take (spanIndex spans cursor)
  let before := before.rdropWhile fun span => policy.isSeparator e span.2
  let before := before.rdropWhile fun span => !policy.isSeparator e span.2
  (spans[before.length]?).elim 0 Prod.fst

def nextWordBoundary : Nat :=
  let behind := (graphemeIndices e text).drop (spanIndex (graphemeIndices e text) cursor)
  let behind := behind.dropWhile fun span => policy.isSeparator e span.2
  let behind := behind.dropWhile fun span => !policy.isSeparator e span.2
  behind.head?.elim (len text) Prod.fst

/-! ## Buffers -/

structure TextEditState where
  text : List Char
  cursor : Nat
  selectionAnchor : Option Nat
  deriving DecidableEq, Repr

structure RetainedState where
  state : TextEditState
  desiredVisualCol : Option Nat
  deriving DecidableEq, Repr

structure Transaction where
  before : RetainedState
  after : RetainedState
  deriving DecidableEq, Repr

inductive UndoGrouping where
  | keystroke | word | smart
  deriving DecidableEq, Repr

/-- mirrors packages/text-edit/src/history.rs:77-85, durations in nanoseconds -/
structure UndoPolicy where
  grouping : UndoGrouping := .smart
  pause : Nat := 500000000
  maxRun : Nat := 3000000000
  deriving DecidableEq, Repr

inductive EditKind where
  | insert | deleteBackward | deleteForward | other
  deriving DecidableEq, Repr

structure OpenGroup where
  kind : EditKind
  started : Nat
  last : Nat
  deriving DecidableEq, Repr

/-- mirrors packages/text-edit/src/history.rs:152-158; the newest step is the last one -/
structure EditHistory where
  undo : List Transaction := []
  redo : List Transaction := []
  policy : UndoPolicy := {}
  openGroup : Option OpenGroup := none
  inputTime : Option Nat := none
  deriving DecidableEq, Repr

structure TextEditBuffer where
  text : List Char := []
  cursor : Nat := 0
  selectionAnchor : Option Nat := none
  desiredVisualCol : Option Nat := none
  wordBoundaryPolicy : WordBoundaryPolicy := .punctuation
  history : EditHistory := {}
  deriving DecidableEq, Repr

namespace TextEditBuffer

variable (e : Tables) (value : List Char) (b : TextEditBuffer)

variable (text : List Char)

def fromText : TextEditBuffer := { text, cursor := len text }

def selection : Option (Nat × Nat) :=
  b.selectionAnchor.bind fun anchor => if anchor = b.cursor then none
    else some (min anchor b.cursor, max anchor b.cursor)

/-! ## Edits -/

def clearUnrecorded : TextEditBuffer :=
  { b with text := [], cursor := 0, selectionAnchor := none, desiredVisualCol := none }

def deleteSelectionUnrecorded : Option (Bool × TextEditBuffer) :=
  match b.selection with
  | none => some (false, { b with selectionAnchor := none })
  | some (start, stop) =>
    (drain b.text start stop).map fun text =>
      (true, { b with text, cursor := start, selectionAnchor := none, desiredVisualCol := none })

def insertStrUnrecorded : Option TextEditBuffer := do
  let (_, b) ← b.deleteSelectionUnrecorded
  let text ← insertAt b.text b.cursor value
  return { b with text, cursor := b.cursor + len value, desiredVisualCol := none }

def insertCharUnrecorded (ch : Char) (b : TextEditBuffer) : Option TextEditBuffer := do
  let (_, b) ← b.deleteSelectionUnrecorded
  let text ← insertAt b.text b.cursor [ch]
  return { b with text, cursor := b.cursor + ch.utf8Size, desiredVisualCol := none }

/-- Carriage returns made newlines, packages/text-edit/src/lib.rs:413-424 -/
def normalizeNewlines : List Char → List Char
  | [] => []
  | '\r' :: '\n' :: text => '\n' :: normalizeNewlines text
  | '\r' :: text => '\n' :: normalizeNewlines text
  | c :: text => c :: normalizeNewlines text

def pasteUnrecorded : Option TextEditBuffer := do
  let (_, b) ← b.deleteSelectionUnrecorded
  let normalized := normalizeNewlines value
  let text ← insertAt b.text b.cursor normalized
  return { b with text, cursor := b.cursor + len normalized, desiredVisualCol := none }

def deleteBackwardUnrecorded : Option TextEditBuffer := do
  let (deleted, b) ← b.deleteSelectionUnrecorded
  if deleted then return b
  match ← previousGraphemeBoundary e b.text b.cursor with
  | none => return b
  | some start =>
    let text ← drain b.text start b.cursor
    return { b with text, cursor := start }

def deleteForwardUnrecorded : Option TextEditBuffer := do
  let (deleted, b) ← b.deleteSelectionUnrecorded
  if deleted then return b
  match ← nextGraphemeBoundary e b.text b.cursor with
  | none => return b
  | some stop =>
    let text ← drain b.text b.cursor stop
    return { b with text }

def deleteRange (start stop : Nat) : Option TextEditBuffer :=
  if start ≥ stop then some b
  else (drain b.text start stop).map fun text =>
    { b with text, cursor := start, selectionAnchor := none, desiredVisualCol := none }

inductive TextDelete where
  | backward | forward | wordBackward | wordForward | toLineStart | toLineEnd | toStart | toEnd
  deriving DecidableEq, Repr

/-- Where the line of a position begins, packages/text-edit/src/lib.rs:540-542 and 659-661 -/
def lineStart (cursor : Nat) : Option Nat :=
  (splitAt text cursor).map fun cut => (rfindNewline cut.1).elim 0 (· + 1)

/-- Where it ends, packages/text-edit/src/lib.rs:546-548 and 665-667 -/
def lineEnd (cursor : Nat) : Option Nat :=
  (splitAt text cursor).map fun cut => (findNewline cut.2).elim (len text) (cursor + ·)

/-- mirrors packages/text-edit/src/lib.rs:520-554 -/
def deleteUnrecorded (delete : TextDelete) (b : TextEditBuffer) : Option TextEditBuffer := do
  let (deleted, b) ← b.deleteSelectionUnrecorded
  if deleted then return b
  match delete with
  | .backward => b.deleteBackwardUnrecorded e
  | .forward => b.deleteForwardUnrecorded e
  | .wordBackward => b.deleteRange (previousWordBoundary e b.text b.cursor b.wordBoundaryPolicy) b.cursor
  | .wordForward => b.deleteRange b.cursor (nextWordBoundary e b.text b.cursor b.wordBoundaryPolicy)
  | .toLineStart => b.deleteRange (← lineStart b.text b.cursor) b.cursor
  | .toLineEnd => b.deleteRange b.cursor (← lineEnd b.text b.cursor)
  | .toStart => b.deleteRange 0 b.cursor
  | .toEnd => b.deleteRange b.cursor (len b.text)

/-! ## Motions -/

inductive TextMotion where
  | left | right | wordLeft | wordRight | start | stop | lineStart | absolute
    (index : Nat) | visualUp | visualDown | lineEnd
  deriving DecidableEq, Repr

inductive SelectionMode where
  | move | extend
  deriving DecidableEq, Repr

/-- mirrors packages/text-edit/src/lib.rs:645-669 -/
def motionPosition : TextMotion → Option Nat
  | .left => (previousGraphemeBoundary e b.text b.cursor).map (·.getD 0)
  | .right => (nextGraphemeBoundary e b.text b.cursor).map (·.getD (len b.text))
  | .wordLeft => some (previousWordBoundary e b.text b.cursor b.wordBoundaryPolicy)
  | .wordRight => some (nextWordBoundary e b.text b.cursor b.wordBoundaryPolicy)
  | .start => some 0
  | .stop => some (len b.text)
  | .lineStart => TextEditBuffer.lineStart b.text b.cursor
  | .absolute index => some (snapToGraphemeBoundary e b.text index)
  | .visualUp => some (e.visualVerticalPosition b.text b.cursor b.desiredVisualCol (-1))
  | .visualDown => some (e.visualVerticalPosition b.text b.cursor b.desiredVisualCol 1)
  | .lineEnd => TextEditBuffer.lineEnd b.text b.cursor

/-- mirrors packages/text-edit/src/lib.rs:594-616 -/
def moveCursorWithSelection (motion : TextMotion) (mode : SelectionMode) (b : TextEditBuffer) :
    Option TextEditBuffer := do
  let oldCursor := b.cursor
  let vertical := decide (motion = .visualUp ∨ motion = .visualDown)
  let b := if vertical then b else { b with desiredVisualCol := none }
  let newCursor ← b.motionPosition e motion
  let b := if vertical ∧ b.desiredVisualCol = none then
    { b with desiredVisualCol := some (e.cursorVisualCol b.text b.cursor) } else b
  let b := match mode with
    | .move => { b with selectionAnchor := none }
    | .extend => if b.selectionAnchor = none then { b with selectionAnchor := some oldCursor } else b
  let b := { b with cursor := newCursor }
  return if b.selectionAnchor = some b.cursor then { b with selectionAnchor := none } else b

/-- What a displayed layout tells a motion: the column of its cursor, and the position at a
column a number of rows away. -/
structure LayoutView where
  cursorCol : Nat
  byteIndexAt : Nat → Nat

def moveCursorInLayout (layout : LayoutView) (mode : SelectionMode) (b : TextEditBuffer) : Option TextEditBuffer := do
  let column := b.desiredVisualCol.getD layout.cursorCol
  let b ← b.moveCursorWithSelection e (.absolute (layout.byteIndexAt column)) mode
  return { b with desiredVisualCol := some column }

def selectAll : TextEditBuffer := { b with selectionAnchor := some 0, cursor := len b.text }

def clearSelection : TextEditBuffer := { b with selectionAnchor := none }

def resetPreferredVisualColumn : TextEditBuffer := { b with desiredVisualCol := none }

def setWordBoundaryPolicy (policy : WordBoundaryPolicy) (b : TextEditBuffer) : TextEditBuffer :=
    { b with wordBoundaryPolicy := policy }

/-! ## What edits and motions leave alone -/

variable {e b} {b' : TextEditBuffer}

theorem deleteSelectionUnrecorded_history {deleted : Bool} (h : b.deleteSelectionUnrecorded = some (deleted, b')) :
    b'.history = b.history := by
  unfold deleteSelectionUnrecorded at h
  split at h
  · cases h
    rfl
  · obtain ⟨text, _, h⟩ := map_eq_some_iff.mp h
    cases h
    rfl

/-- An edit that deletes the selection first and then leaves the history alone. -/
theorem history_afterSelection {f : Bool × TextEditBuffer → Option TextEditBuffer}
    (hf : ∀ deleted b b', f (deleted, b) = some b' → b'.history = b.history)
    (h : b.deleteSelectionUnrecorded.bind f = some b') :
    b'.history = b.history := by
  obtain ⟨⟨deleted, c⟩, hdelete, h⟩ := bind_eq_some_iff.mp h
  exact (hf deleted c b' h).trans (deleteSelectionUnrecorded_history hdelete)

theorem insertStrUnrecorded_history {value : List Char} (h : b.insertStrUnrecorded value = some b') :
    b'.history = b.history := by
  refine history_afterSelection (fun deleted c c' h => ?_) h
  obtain ⟨text, _, h⟩ := bind_eq_some_iff.mp h
  cases h
  rfl

theorem deleteOne_history (h : b.deleteBackwardUnrecorded e = some b' ∨ b.deleteForwardUnrecorded e = some b') :
    b'.history = b.history := by
  rcases h with h | h
  all_goals
    refine history_afterSelection (fun deleted c c' h => ?_) h
    dsimp only at h
    split at h
    · cases h
      rfl
    · obtain ⟨_ | edge, _, h⟩ := bind_eq_some_iff.mp h
      · cases h
        rfl
      · obtain ⟨text, _, h⟩ := bind_eq_some_iff.mp h
        cases h
        rfl

theorem deleteRange_history {start stop : Nat} (h : b.deleteRange start stop = some b') : b'.history = b.history := by
  unfold deleteRange at h
  split at h
  · cases h
    rfl
  · obtain ⟨text, _, h⟩ := map_eq_some_iff.mp h
    cases h
    rfl

theorem deleteUnrecorded_history {delete : TextDelete} (h : b.deleteUnrecorded e delete = some b') :
    b'.history = b.history := by
  refine history_afterSelection (fun deleted c c' h => ?_) h
  dsimp only at h
  split at h
  · cases h
    rfl
  · cases delete with
    | backward => exact deleteOne_history (.inl h)
    | forward => exact deleteOne_history (.inr h)
    | wordBackward | wordForward | toStart | toEnd => exact deleteRange_history h
    | toLineStart | toLineEnd =>
      obtain ⟨edge, _, h⟩ := bind_eq_some_iff.mp h
      exact deleteRange_history h

/-- Only the cursor, the selection and the preferred column differ. -/
def Moves (b b' : TextEditBuffer) : Prop := b'.text = b.text ∧ b'.history = b.history

theorem Moves.ite {p : Prop} [Decidable p] {c c' : TextEditBuffer} (h : Moves b c) (h' : Moves b c') :
    Moves b (if p then c else c') := by
  split
  · exact h
  · exact h'

theorem moves_moveCursorWithSelection {motion : TextMotion} {mode : SelectionMode}
    (h : b.moveCursorWithSelection e motion mode = some b') :
    Moves b b' := by
  unfold moveCursorWithSelection at h
  dsimp only at h
  generalize decide (motion = .visualUp ∨ motion = .visualDown) = vertical at h
  have hcolumn : Moves b (if vertical = true then b else { b with desiredVisualCol := none }) :=
    Moves.ite ⟨rfl, rfl⟩ ⟨rfl, rfl⟩
  generalize (if vertical = true then b else { b with desiredVisualCol := none }) = c at h hcolumn
  obtain ⟨newCursor, _, h⟩ := bind_eq_some_iff.mp h
  have hvertical : Moves b (if vertical = true ∧ c.desiredVisualCol = none then
      { c with desiredVisualCol := some (e.cursorVisualCol c.text c.cursor) } else c) := Moves.ite hcolumn hcolumn
  generalize (if vertical = true ∧ c.desiredVisualCol = none then
    { c with desiredVisualCol := some (e.cursorVisualCol c.text c.cursor) } else c) = d at h hvertical
  cases h
  cases mode with
  | move => exact Moves.ite hvertical hvertical
  | extend =>
    have hanchor : Moves b (if d.selectionAnchor = none then { d with selectionAnchor := some b.cursor } else d) :=
      Moves.ite hvertical hvertical
    exact Moves.ite hanchor hanchor

theorem moves_moveCursorInLayout {layout : LayoutView} {mode : SelectionMode}
    (h : b.moveCursorInLayout e layout mode = some b') :
    Moves b b' := by
  unfold moveCursorInLayout at h
  obtain ⟨c, hmove, h⟩ := bind_eq_some_iff.mp h
  cases h
  obtain ⟨htext, hhistory⟩ := moves_moveCursorWithSelection hmove
  exact ⟨htext, hhistory⟩

end TextEditBuffer
end Bmux.TextEdit
