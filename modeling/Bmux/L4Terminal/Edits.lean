import Bmux.L4Terminal.Stream

/-!
# What a call can do to a grid

The calls of the decoder are many, the changes they are made of few. `Edit` lists the
changes of the screens, the history and the palette, `Switch` the changes of the modes of
the protocol and of the screen shown, and `calls_perform` says once for all calls that they
are made of these. What every change and every switch keeps then holds after every call.
-/
namespace Bmux.Terminal
open PhysicalRow StylePalette

/-- A text that is printed over so many columns: a character by itself, or a glyph that was
measured as a whole. -/
def Unicode.Draws (u : Unicode) (text : String) (charWidth : Nat) : Prop :=
  (∃ ch, text = String.singleton ch ∧ charWidth = min ((u.charWidth ch).getD 0) 2 ∧ 0 < charWidth) ∨
    charWidth = max 1 (min 2 (u.strWidth text))

namespace TerminalGrid

/-- Only the cursor, the modes of writing and the counters differ. -/
structure Registers (g g' : TerminalGrid) : Prop where
  width : g'.width = g.width
  height : g'.height = g.height
  history : g'.history = g.history
  mainRows : g'.mainRows = g.mainRows
  altRows : g'.altRows = g.altRows
  mode : g'.mode = g.mode
  palette : g'.palette = g.palette
  protocol : g'.protocol = g.protocol
  version : g'.terminalState.version = g.terminalState.version

def Has (g : TerminalGrid) (style : StyleId) : Prop := style = StyleId.DEFAULT ∨ style < g.palette.styles.length

def Shows (g : TerminalGrid) (row col : Nat) (cell : Cell) : Prop := (g.viewportRow row).cells[col]? = some cell

/-- A change of one row, whichever it is. -/
inductive RowEdit (u : Unicode) (g : TerminalGrid) : (PhysicalRow → PhysicalRow) → Prop where
  | wrap : RowEdit u g fun row => { row with wrapped := true }
  | clear (start stop : Nat) {style : StyleId} (h : g.Has style) :
      RowEdit u g fun row => row.clearRange start stop style
  | copy (source : Nat) : RowEdit u g fun _ => g.viewportRow source
  | fill {style : StyleId} (h : g.Has style) : RowEdit u g fun _ => eraseFilled g.width style
  | insert (source col count : Nat) {style : StyleId} (h : g.Has style) :
      RowEdit u g fun old =>
        rebuild (insertCells ((g.viewportRow source).visualCells g.width) g.width col count style) g.width old.wrapped
  | delete (source col count : Nat) {style : StyleId} (h : g.Has style) :
      RowEdit u g fun old =>
        rebuild (deleteCells ((g.viewportRow source).visualCells g.width) g.width col count style) g.width old.wrapped
  | put (col : Nat) {text : String} {charWidth : Nat} {style : StyleId} (h : g.Has style)
      (hdraws : u.Draws text charWidth) :
      RowEdit u g fun row => row.putGlyph col text charWidth style g.width

/-- One change. -/
inductive Edit (u : Unicode) (g : TerminalGrid) : TerminalGrid → Prop where
  | registers {g' : TerminalGrid} (h : Registers g g') : Edit u g g'
  | intern (style : Style) : Edit u g { g with palette := (g.palette.intern style).2 }
  | row (i : Nat) {f : PhysicalRow → PhysicalRow} (h : RowEdit u g f) : Edit u g (g.modifyActiveRow i f)
  | extend {i col : Nat} {cell : Cell} (hcell : g.Shows i col cell) (ch : Char)
      (hwidth : (0x300 ≤ ch.toNat ∧ ch.toNat ≤ 0x36f) ∨ cell.width = max 1 (min 2 (u.strWidth (cell.text.push ch)))) :
      Edit u g (g.modifyActiveRow i fun row => row.setText col (cell.text.push ch))
  | blankGlyph {i col : Nat} {cell : Cell} (hcell : g.Shows i col cell) :
      Edit u g (g.modifyActiveRow i fun row => row.blankGlyph col cell.width cell.style)
  | scrollOut {style : StyleId} (h : g.Has style) (hmode : g.mode = .main) {row : PhysicalRow} {rows : List PhysicalRow}
      (hrows : g.mainRows = row :: rows) :
      Edit u g { g with
        history := g.history.pushRow g.width row
        mainRows := rows ++ [eraseFilled g.width style]
        totalScrolledRows := satAdd g.totalScrolledRows 1 }.evictExcessHistory
  | scrollAlternate {style : StyleId} (h : g.Has style) {row : PhysicalRow} {rows : List PhysicalRow}
      (hrows : g.altRows = row :: rows) :
      Edit u g { g with altRows := rows ++ [eraseFilled g.width style] }
  | eraseHistory : Edit u g { g with history := g.history.erase }

def Edits (u : Unicode) : TerminalGrid → TerminalGrid → Prop := Relation.ReflTransGen (Edit u)

variable {u : Unicode} {g g' : TerminalGrid}

theorem Edits.refl (g : TerminalGrid) : Edits u g g := Relation.ReflTransGen.refl

variable {g₁ g₂ : TerminalGrid}

theorem Edits.trans {g₃ : TerminalGrid} (h₁ : Edits u g₁ g₂) (h₂ : Edits u g₂ g₃) : Edits u g₁ g₃ :=
    Relation.ReflTransGen.trans h₁ h₂

theorem Edit.edits (h : Edit u g g') : Edits u g g' := Relation.ReflTransGen.single h

variable {P : TerminalGrid → Prop}

theorem Edits.induct (hstep : ∀ g g', Edit u g g' → P g → P g') (h : Edits u g g') (hg : P g) : P g' := by
  induction h with
  | refl => exact hg
  | tail _ hlast ih => exact hstep _ _ hlast ih

/-- A sequence of changes at which no row scrolls out. -/
def Still (u : Unicode) : TerminalGrid → TerminalGrid → Prop :=
  Relation.ReflTransGen fun g g' => Edit u g g' ∧ (g'.history = g.history ∨ g'.history = g.history.erase)

theorem Still.edits (h : Still u g g') : Edits u g g' := Relation.ReflTransGen.mono (fun _ _ h => h.1) _ _ h

theorem Still.refl (g : TerminalGrid) : Still u g g := Relation.ReflTransGen.refl

theorem Still.trans {g₃ : TerminalGrid} (h₁ : Still u g₁ g₂) (h₂ : Still u g₂ g₃) : Still u g₁ g₃ :=
    Relation.ReflTransGen.trans h₁ h₂

theorem Still.row {i : Nat} {f : PhysicalRow → PhysicalRow} (h : RowEdit u g f) :
    Still u g (g.modifyActiveRow i f) := by
  refine .single ⟨.row i h, .inl ?_⟩
  unfold modifyActiveRow
  split <;> rfl

theorem Still.ite {p : Prop} [Decidable p] (h₁ : Still u g g₁) (h₂ : Still u g g₂) :
    Still u g (if p then g₁ else g₂) := by
  split
  · exact h₁
  · exact h₂

theorem Still.foldl {α : Type} {f : TerminalGrid → α → TerminalGrid} (hf : ∀ g x, Still u g (f g x)) (xs : List α)
    (g : TerminalGrid) :
    Still u g (xs.foldl f g) := by
  induction xs generalizing g with
  | nil => exact .refl g
  | cons x xs ih => exact (hf g x).trans (ih _)

theorem Still.registers (h : Still u g g₁) {cursor savedCursor savedPendingWrap characters savedCharacters
    currentStyle revision contentRevision totalScrolledRows autowrap pendingWrap scrollRegion originMode insertMode
    savedStyle savedOriginMode savedAutowrap tabStops} :
    Still u g { g₁ with
      cursor, savedCursor, savedPendingWrap, characters, savedCharacters, currentStyle, revision, contentRevision
      totalScrolledRows, autowrap, pendingWrap, scrollRegion
      terminalState := { g₁.terminalState with
        originMode, insertMode, savedStyle, savedOriginMode, savedAutowrap, tabStops } } :=
  h.trans (.single ⟨.registers (by constructor <;> rfl), .inl rfl⟩)

theorem Still.bump (h : Still u g g') : Still u g g'.bumpContentRevision :=
  h.registers

theorem Edits.bump (h : Edits u g g') : Edits u g g'.bumpContentRevision :=
  h.trans (Still.refl g').bump.edits

/-! ## What changes leave alone -/

/-- Neither the size nor the screen shown nor the modes of the protocol. -/
theorem Edit.frame (h : Edit u g g') :
    g'.width = g.width ∧ g'.height = g.height ∧ g'.mode = g.mode ∧ g'.protocol = g.protocol ∧
      g'.terminalState.version = g.terminalState.version := by
  have hmodify (i : Nat) (f : PhysicalRow → PhysicalRow) :
      (g.modifyActiveRow i f).width = g.width ∧ (g.modifyActiveRow i f).height = g.height ∧
        (g.modifyActiveRow i f).mode = g.mode ∧ (g.modifyActiveRow i f).protocol = g.protocol ∧
        (g.modifyActiveRow i f).terminalState.version = g.terminalState.version := by
    unfold modifyActiveRow
    split <;> exact ⟨rfl, rfl, rfl, rfl, rfl⟩
  cases h with
  | registers hr => exact ⟨hr.width, hr.height, hr.mode, hr.protocol, hr.version⟩
  | intern | scrollOut | scrollAlternate | eraseHistory => exact ⟨rfl, rfl, rfl, rfl, rfl⟩
  | row i _ => exact hmodify i _
  | extend | blankGlyph => exact hmodify _ _

theorem Edits.frame (h : Edits u g g') :
    g'.width = g.width ∧ g'.height = g.height ∧ g'.mode = g.mode ∧ g'.protocol = g.protocol ∧
      g'.terminalState.version = g.terminalState.version := by
  induction h with
  | refl => exact ⟨rfl, rfl, rfl, rfl, rfl⟩
  | tail _ hlast ih =>
    obtain ⟨hw, hh, hm, hp, hv⟩ := hlast.frame
    exact ⟨hw.trans ih.1, hh.trans ih.2.1, hm.trans ih.2.2.1, hp.trans ih.2.2.2.1, hv.trans ih.2.2.2.2⟩

/-! ## Styles -/

theorem intern_has (p : StylePalette) (style : Style) : (p.intern style).1 < (p.intern style).2.styles.length := by
  have hid (n : Nat) : styleId n ≤ n := by
    unfold styleId
    split
    · exact Nat.le_refl n
    · exact (show (2 ^ 32 - 1 : Nat) ≤ n by omega)
  unfold intern
  cases hfind : p.styles.findIdx? (· = style) with
  | none =>
    rw [List.length_append]
    exact Nat.lt_succ_of_le (hid p.styles.length)
  | some index =>
    have hlt := (List.findIdx?_eq_some_iff_findIdx_eq.mp hfind).1
    exact lt_of_le_of_lt (hid index) hlt

theorem still_eraseStyle (g : TerminalGrid) : Still u g g.eraseStyle.2 ∧ g.eraseStyle.2.Has g.eraseStyle.1 := by
  unfold eraseStyle
  dsimp only
  split
  · exact ⟨.refl g, .inl rfl⟩
  · exact ⟨.single ⟨.intern _, .inl rfl⟩, .inr (intern_has _ _)⟩

variable {style : StyleId}

theorem modifyActiveRow_palette (g : TerminalGrid) (i : Nat) (f : PhysicalRow → PhysicalRow) :
    (g.modifyActiveRow i f).palette = g.palette := by
  unfold modifyActiveRow
  split <;> rfl

theorem length_styles_intern (p : StylePalette) (style : Style) :
    p.styles.length ≤ (p.intern style).2.styles.length := by
  unfold intern
  split
  · exact le_rfl
  · simp

theorem Edit.has (h : Edit u g g') (hs : g.Has style) : g'.Has style := by
  refine hs.imp id fun hlt => lt_of_lt_of_le hlt ?_
  cases h with
  | registers hr => rw [hr.palette]
  | intern style => exact length_styles_intern _ _
  | row | extend | blankGlyph => rw [modifyActiveRow_palette]
  | scrollOut | scrollAlternate | eraseHistory => exact le_rfl

theorem Still.has (h : Still u g g') (hs : g.Has style) : g'.Has style :=
  h.edits.induct (fun _ _ he => he.has) hs

/-! ## Scrolling and erasing -/

theorem still_fillViewportRow (h : g.Has style) (i : Nat) : Still u g (fillViewportRow style g i) :=
  Still.row (.fill h)

theorem still_fillRows (h : g.Has style) (rows : List Nat) : Still u g (rows.foldl (fillViewportRow style) g) := by
  induction rows generalizing g with
  | nil => exact .refl g
  | cons i rows ih =>
    have hi := @still_fillViewportRow u g style h i
    exact hi.trans (ih (hi.has h))

theorem still_scrollRounds {round : TerminalGrid → TerminalGrid} (hround : ∀ g, g.Has style → Still u g (round g))
    (n : Nat)
    (h : g.Has style) : Still u g (round^[n] g) := by
  induction n generalizing g with
  | zero => exact .refl g
  | succ n ih => exact (hround g h).trans (ih ((hround g h).has h))

section
variable (g : TerminalGrid)

theorem still_copyRows (source : Nat → Nat) (rows : List Nat) :
    Still u g (rows.foldl (fun g row => g.setViewportRow row (g.viewportRow (source row))) g) :=
  Still.foldl (fun _ row => Still.row (.copy (source row))) rows g

variable (top bottom count : Nat)

theorem still_scrollRegionUp : Still u g (g.scrollRegionUp top bottom count) := by
  have herase := @still_eraseStyle u g
  refine (Still.refl g).ite (herase.1.trans (still_scrollRounds (fun e he => ?_) _ herase.2))
  have hcopy := @still_copyRows u e (· + 1) (List.range' top (bottom - top))
  exact hcopy.trans (still_fillViewportRow (hcopy.has he) bottom)

theorem still_scrollRegionDown : Still u g (g.scrollRegionDown top bottom count) := by
  have herase := @still_eraseStyle u g
  refine (Still.refl g).ite (herase.1.trans (still_scrollRounds (fun e he => ?_) _ herase.2))
  have hcopy := @still_copyRows u e (· - 1) (List.range' (top + 1) (bottom - top)).reverse
  exact hcopy.trans (still_fillViewportRow (hcopy.has he) top)

theorem still_reverseIndex : Still u g g.reverseIndex := by
  have hwrap : Still u g { g with pendingWrap := false } := (Still.refl g).registers
  unfold reverseIndex
  dsimp only
  split
  · exact (hwrap.trans (still_scrollRegionDown _ _ _ _)).bump
  · exact hwrap.registers

theorem still_eraseLine (mode : Nat) : Still u g (g.eraseLine mode) := by
  have herase := @still_eraseStyle u g
  unfold eraseLine
  refine (herase.1.trans ?_).bump
  split
  · exact Still.row (.clear _ _ herase.2)
  · exact Still.row (.clear _ _ herase.2)
  · exact Still.row (.clear _ _ herase.2)
  · exact .refl _

theorem still_eraseDisplay (mode : Nat) : Still u g (g.eraseDisplay mode) := by
  have herase := @still_eraseStyle u g
  unfold eraseDisplay
  generalize g.eraseStyle.1 = style at herase
  generalize g.eraseStyle.2 = e at herase
  refine (herase.1.trans ?_).bump
  split
  · have hline := @still_eraseLine u e 0
    exact hline.trans (still_fillRows (hline.has herase.2) _)
  · exact (still_fillRows herase.2 _).trans (still_eraseLine _ 1)
  · exact still_fillRows herase.2 _
  · exact Still.ite (.single ⟨.eraseHistory, .inr rfl⟩) (.refl e)
  · exact .refl e

theorem still_eraseChars : Still u g (g.eraseChars count) := by
  have herase := @still_eraseStyle u g
  exact (herase.1.trans (Still.row (.clear _ _ herase.2))).bump

theorem still_insertBlankChars : Still u g (g.insertBlankChars count) := by
  have herase := @still_eraseStyle u g
  unfold insertBlankChars
  rw [← (sameFrame_eraseStyle g).width]
  generalize g.eraseStyle.1 = style at herase
  generalize g.eraseStyle.2 = e at herase
  have hclear : Still u e (e.modifyActiveRow e.cursor.row fun row =>
    row.clearRange g.cursor.col (g.cursor.col + 1) style) :=
    Still.row (.clear _ _ herase.2)
  refine Still.bump (herase.1.trans ?_)
  split
  · rw [← hclear.edits.frame.1]
    exact hclear.trans (Still.row (.insert _ _ _ (hclear.has herase.2)))
  · exact Still.row (.insert _ _ _ herase.2)

theorem still_deleteChars : Still u g (g.deleteChars count) := by
  have herase := @still_eraseStyle u g
  unfold deleteChars
  dsimp only
  rw [← (sameFrame_eraseStyle g).width]
  generalize g.eraseStyle.1 = style at herase
  generalize g.eraseStyle.2 = e at herase
  generalize g.cursor.col + min (max count 1) (e.width - g.cursor.col) = stop
  have hclear : Still u e (e.modifyActiveRow e.cursor.row fun row => row.clearRange g.cursor.col stop style) :=
    Still.row (.clear _ _ herase.2)
  refine Still.bump (herase.1.trans (hclear.trans ?_))
  rw [← hclear.edits.frame.1]
  exact Still.row (.delete _ _ _ (hclear.has herase.2))

theorem still_insertBlankLines : Still u g (g.insertBlankLines count) :=
  (Still.refl g).ite (still_scrollRegionDown g _ _ _).bump

theorem still_deleteLines : Still u g (g.deleteLines count) :=
  (Still.refl g).ite (still_scrollRegionUp g _ _ _).bump

theorem still_advanceCursor (col charWidth : Nat) : Still u g (g.advanceCursor col charWidth) := by
  exact (Still.refl g).registers.ite (Still.refl g).registers

theorem still_clearTabStops (mode : Nat) : Still u g (g.clearTabStops mode) := by
  unfold clearTabStops
  split
  · exact (Still.refl g).registers
  · exact (Still.refl g).registers
  · exact .refl g

theorem still_setScrollRegion (top bottom : Option Nat) : Still u g (g.setScrollRegion top bottom) :=
  (Still.refl g).ite (Still.refl g).registers

end

/-! ## Printing -/

theorem Edit.rows_ne_nil (h : Edit u g g') (hmain : g.mainRows ≠ []) : g'.mainRows ≠ [] := by
  have hmodify (i : Nat) (f : PhysicalRow → PhysicalRow) : (g.modifyActiveRow i f).mainRows ≠ [] := by
    unfold modifyActiveRow
    split
    · simpa using hmain
    · exact hmain
  cases h with
  | registers hr => exact hr.mainRows ▸ hmain
  | intern | scrollAlternate | eraseHistory => exact hmain
  | row i _ => exact hmodify i _
  | extend | blankGlyph => exact hmodify _ _
  | scrollOut => exact List.append_ne_nil_of_right_ne_nil _ (List.cons_ne_nil _ _)

theorem Edits.rows_ne_nil (h : Edits u g g') (hmain : g.mainRows ≠ []) : g'.mainRows ≠ [] :=
  h.induct (fun _ _ he hm => he.rows_ne_nil hm) hmain

variable {text : String} {charWidth col : Nat}

theorem still_placeGlyph (h : g.Has style) (hdraws : u.Draws text charWidth) :
    Still u g (g.placeGlyph text charWidth style) := by
  unfold placeGlyph
  split
  · have hroom := @still_insertBlankChars u g charWidth
    exact hroom.trans ((Still.row (.put _ (hroom.has h) hdraws)).trans (still_advanceCursor _ _ _))
  · exact (Still.row (.put _ h hdraws)).trans (still_advanceCursor _ _ _)

theorem shows_of_graphemeCell {cell : Cell} (h : g.graphemeCell = some (col, cell)) :
    g.Shows g.cursor.row col cell := by
  unfold graphemeCell at h
  simp only [Option.bind_eq_bind, Option.bind_eq_some_iff, Option.pure_def, Option.some.injEq, Prod.mk.injEq] at h
  obtain ⟨_, _, _, hcell, rfl, rfl⟩ := h
  exact hcell

/-! ## The calls -/

/-- What else a call does: it changes the modes of the protocol, switches the screen or
resets the terminal. -/
inductive Switch (g : TerminalGrid) : TerminalGrid → Prop where
  | protocol (p : ProtocolState) : Switch g (g.setProtocol p)
  | alternate (mode : Int) (enabled : Bool) : Switch g (g.setAlternateMode mode enabled)
  | reset : Switch g g.reset

/-- A call of the short form: changes at which no row scrolls out, if not for a line feed before them, or one switch. -/
theorem escDispatch_cases (g : TerminalGrid) (intermediates : List UInt8) (ignore : Bool) (byte : UInt8) :
    Still u g (g.escDispatch intermediates ignore byte) ∨ Still u g.linefeed (g.escDispatch intermediates ignore byte) ∨
      Switch g (g.escDispatch intermediates ignore byte) := by
  unfold escDispatch
  split
  · exact .inl (.refl g)
  · split
    · split
      · exact .inl (Still.refl g).registers
      · exact .inl (Still.refl g).registers
      · exact .inl (Still.refl g).registers
      · exact .inr (.inl (.refl _))
      · exact .inr (.inl (Still.refl _).registers)
      · exact .inl (still_reverseIndex g)
      · exact .inr (.inr (.protocol _))
      · exact .inr (.inr (.protocol _))
      · exact .inr (.inr .reset)
      · exact .inl (.refl g)
    · exact .inl (Still.ite (Still.refl g).registers (.refl g))
    · exact .inl (.refl g)

/-- A private mode: a sequence of changes, or one switch. -/
theorem setPrivateMode_cases (enabled : Bool) (g : TerminalGrid) (value : Int) :
    Still u g (setPrivateMode enabled g value) ∨ Switch g (setPrivateMode enabled g value) := by
  unfold setPrivateMode
  split
  all_goals first
    | exact .inr (.protocol _)
    | exact .inr (.alternate _ _)
    | exact .inl (Still.refl g).registers

/-- Every control sequence but the private modes and the repeated character is a sequence of
changes. -/
theorem still_csiDispatch (values : List Int) {isPrivate : Bool} {action : Char}
    (h : isPrivate = true → action ≠ 'h' ∧ action ≠ 'l') (hb : action ≠ 'b') :
    Still u g (g.csiDispatch u values isPrivate action) := by
  have hmodes (enabled : Bool) (hpublic : ¬ isPrivate = true) :
      Still u g (if isPrivate then values.foldl (setPrivateMode enabled) g
        else values.foldl (fun (g : TerminalGrid) value => if value = 4 then g.setInsertMode enabled else g) g) := by
    rw [if_neg hpublic]
    refine Still.foldl (fun e value => ?_) values g
    split
    · exact (Still.refl e).registers
    · exact .refl e
  unfold csiDispatch
  split
  case h_6 => exact absurd rfl hb
  case h_13 => exact still_eraseDisplay g _
  case h_14 => exact still_eraseLine g _
  case h_15 => exact still_insertBlankLines g _
  case h_16 => exact still_deleteLines g _
  case h_17 => exact still_deleteChars g _
  case h_18 => exact still_scrollRegionUp g _ _ _
  case h_19 => exact still_scrollRegionDown g _ _ _
  case h_20 => exact still_eraseChars g _
  case h_21 => exact still_insertBlankChars g _
  case h_22 => exact still_clearTabStops g _
  case h_25 => exact Still.ite (still_setScrollRegion g _ _) (still_setScrollRegion g _ _)
  case h_26 => exact hmodes _ fun hp => absurd rfl (h hp).1
  case h_27 => exact hmodes _ fun hp => absurd rfl (h hp).2
  all_goals exact (Still.refl g).registers

theorem csiDispatch_b (values : List Int) (isPrivate : Bool) :
    g.csiDispatch u values isPrivate 'b' =
      g.characters.last.elim g fun ch => (fun g : TerminalGrid => g.printChar u ch)^[oneBased values.head?] g := by
  unfold csiDispatch
  cases g.characters.last <;> rfl

def Calls (u : Unicode) : TerminalGrid → TerminalGrid → Prop :=
    Relation.ReflTransGen fun g g' => Edit u g g' ∨ Switch g g'

theorem Calls.induct (hedit : ∀ g g', Edit u g g' → P g → P g') (hswitch : ∀ g g', Switch g g' → P g → P g')
    (h : Calls u g g') (hg : P g) : P g' := by
  induction h with
  | refl => exact hg
  | tail _ hlast ih => exact hlast.elim (fun he => hedit _ _ he ih) fun hs => hswitch _ _ hs ih

theorem Edits.calls (h : Edits u g g') : Calls u g g' := by
  induction h with
  | refl => exact .refl
  | tail _ hlast ih => exact .tail ih (.inl hlast)

theorem Switch.calls (h : Switch g g') : Calls u g g' := .single (.inr h)

theorem oscDispatch_cases (g : TerminalGrid) (params : List (List UInt8)) :
    g.oscDispatch params = g ∨ Switch g (g.oscDispatch params) := by
  unfold oscDispatch
  split
  · split
    · split
      · exact .inl rfl
      · exact .inr (.protocol _)
      · exact .inl rfl
    · exact .inl rfl
  · exact .inl rfl

theorem calls_setPrivateMode (enabled : Bool) (values : List Int) (g : TerminalGrid) :
    Calls u g (values.foldl (setPrivateMode enabled) g) := by
  induction values generalizing g with
  | nil => exact .refl
  | cons value values ih =>
    exact ((setPrivateMode_cases enabled g value).elim (·.edits.calls) Switch.calls).trans (ih _)

/-! ## Changes of a screen that has rows -/

section
variable (hmain : g.mainRows ≠ [])
include hmain

/-- A row goes to the history; a screen without rows, which is no screen, is left alone. -/
theorem edits_scrollUpOne : Edits u g g.scrollUpOne := by
  have herase := @still_eraseStyle u g
  have hrows : g.eraseStyle.2.mainRows = g.mainRows := by
    unfold eraseStyle
    dsimp only
    split <;> rfl
  unfold scrollUpOne
  dsimp only
  generalize g.eraseStyle.2 = e at herase hrows
  refine herase.1.edits.trans ?_
  split
  · rename_i hmode
    cases he : e.mainRows with
    | nil => exact absurd (hrows ▸ he) hmain
    | cons row rows => exact (Edit.scrollOut herase.2 hmode he).edits
  · split
    · rename_i row rows he
      exact (Edit.scrollAlternate herase.2 he).edits
    · exact .refl e

theorem edits_linefeed : Edits u g g.linefeed := by
  have hwrap : Still u g { g with pendingWrap := false } := (Still.refl g).registers
  unfold linefeed
  dsimp only
  split
  · split
    · exact (hwrap.edits.trans (edits_scrollUpOne hmain)).bump
    · exact (hwrap.trans (still_scrollRegionUp _ _ _ _)).bump.edits
  · split
    · exact hwrap.registers.edits
    · exact hwrap.registers.edits

theorem edits_wrapLine : Edits u g g.wrapLine := by
  have hwrap : Still u g (g.modifyActiveRow g.cursor.row fun row => { row with wrapped := true }) := Still.row .wrap
  have hcursor : Still u g { (g.modifyActiveRow g.cursor.row fun row => { row with wrapped := true }) with
      cursor := { (g.modifyActiveRow g.cursor.row fun row => { row with wrapped := true }).cursor with col := 0 } } :=
    hwrap.registers
  exact hcursor.edits.trans (edits_linefeed (hcursor.edits.rows_ne_nil hmain))

theorem edits_wrapBefore (charWidth : Nat) : Edits u g (g.wrapBefore charWidth) := by
  have hfirst : Edits u g (if g.autowrap ∧ g.pendingWrap then { g with pendingWrap := false }.wrapLine else g) := by
    split
    · have hflag : Still u g { g with pendingWrap := false } := (Still.refl g).registers
      exact hflag.edits.trans (edits_wrapLine hmain)
    · exact .refl g
  have hrows := hfirst.rows_ne_nil hmain
  unfold wrapBefore
  dsimp only
  generalize (if g.autowrap ∧ g.pendingWrap then ({ g with pendingWrap := false } : TerminalGrid).wrapLine else g) =
    e at hfirst hrows
  refine hfirst.trans ?_
  split
  · exact edits_wrapLine hrows
  · exact .refl e

theorem edits_printGrapheme (hdraws : u.Draws text charWidth) :
    Edits u g (g.printGrapheme text charWidth) := by
  have hwrap := @edits_wrapBefore u g hmain charWidth
  unfold printGrapheme
  dsimp only
  generalize g.wrapBefore charWidth = e at hwrap
  have hintern : Edits u g { e with palette := (e.palette.intern e.currentStyle).2 } :=
    hwrap.trans (Edit.intern _).edits
  have hstyle : ({ e with palette := (e.palette.intern e.currentStyle).2 } : TerminalGrid).Has
    (e.palette.intern e.currentStyle).1 :=
    .inr (intern_has _ _)
  split
  · exact (hintern.trans (Still.row (.clear _ _ hstyle)).edits).bump
  · exact (hintern.trans (still_placeGlyph hstyle hdraws).edits).bump

theorem edits_reprintGlyph {cell : Cell} (hcell : g.Shows g.cursor.row col cell)
    {width : Nat} (hdraws : u.Draws text width) : Edits u g (g.reprintGlyph col cell text width) := by
  have hblank : Edits u g (g.modifyActiveRow g.cursor.row fun row => row.blankGlyph col cell.width cell.style) :=
    (Edit.blankGlyph hcell).edits
  have hmoved : Edits u g { (g.modifyActiveRow g.cursor.row fun row => row.blankGlyph col cell.width cell.style) with
      cursor := { g.cursor with col }, pendingWrap := false, currentStyle := g.palette.get cell.style } :=
    hblank.trans (Still.refl _).registers.edits
  exact (hmoved.trans (edits_printGrapheme (hmoved.rows_ne_nil hmain) hdraws)).trans (Still.refl _).registers.edits

theorem edits_extendGrapheme {ch : Char} (h : g.extendGrapheme u ch = some g') : Edits u g g' := by
  obtain ⟨-, col, cell, hcell, ⟨hwidth, rfl⟩ | rfl⟩ := extendGrapheme_cases h
  · exact (Edit.extend (shows_of_graphemeCell hcell) ch hwidth).edits
  · exact edits_reprintGlyph hmain (shows_of_graphemeCell hcell) (.inr rfl)

theorem edits_printChar (ch : Char) : Edits u g (g.printChar u ch) := by
  unfold printChar
  split
  · rename_i e hext
    exact (edits_extendGrapheme hmain hext).bump
  · dsimp only
    split
    · exact .refl g
    · exact edits_printGrapheme hmain (.inl ⟨ch, rfl, rfl, by omega⟩)

theorem edits_repeatChar (ch : Char) (n : Nat) : Edits u g ((fun g : TerminalGrid => g.printChar u ch)^[n] g) := by
  induction n generalizing g with
  | zero => exact .refl g
  | succ n ih =>
    have hone := @edits_printChar u g hmain ch
    exact hone.trans (ih (hone.rows_ne_nil hmain))

theorem edits_execute (byte : UInt8) : Edits u g (g.execute byte) := by
  unfold execute
  split
  · exact edits_linefeed hmain
  · exact edits_linefeed hmain
  · exact edits_linefeed hmain
  all_goals exact (Still.refl g).registers.edits

theorem edits_csiDispatch (values : List Int) {isPrivate : Bool} {action : Char}
    (h : isPrivate = true → action ≠ 'h' ∧ action ≠ 'l') : Edits u g (g.csiDispatch u values isPrivate action) := by
  by_cases hb : action = 'b'
  · subst hb
    rw [csiDispatch_b]
    cases g.characters.last with
    | none => exact .refl g
    | some ch => exact edits_repeatChar hmain ch _
  · exact (still_csiDispatch values h hb).edits

theorem edits_print (c : Char) : Edits u g (g.perform u (.print c)) := by
  have hlast : Edits u g { g with characters := { g.characters with last := some (g.characters.translate c) } } :=
    (Still.refl g).registers.edits
  exact hlast.trans (@edits_printChar u { g with
    characters := { g.characters with last := some (g.characters.translate c) } } hmain _)

/-- A control sequence: a sequence of changes, or the private modes of a header in order. -/
theorem perform_csiDispatch_cases (params : List (List Nat)) (intermediates : List UInt8) (ignore : Bool)
    (action : Char) : Edits u g (g.perform u (.csiDispatch params intermediates ignore action)) ∨
      (ignore = false ∧ intermediates = [0x3f] ∧ (action = 'h' ∨ action = 'l') ∧
        g.perform u (.csiDispatch params intermediates ignore action) =
          (flattenParams params).foldl (setPrivateMode (decide (action = 'h'))) g) := by
  unfold perform
  dsimp only
  split
  · exact .inl (.refl g)
  · rename_i hheader
    split
    · exact .inl (Still.refl g).registers.edits
    · by_cases hmodes : intermediates = [0x3f] ∧ (action = 'h' ∨ action = 'l')
      · obtain ⟨rfl, haction⟩ := hmodes
        have hignore : ignore = false := by
          cases ignore
          · rfl
          · exact absurd rfl hheader
        refine .inr ⟨hignore, rfl, haction, ?_⟩
        rcases haction with rfl | rfl
        · rfl
        · rfl
      · refine .inl (edits_csiDispatch hmain _ fun hp => ?_)
        exact ⟨fun ha => hmodes ⟨of_decide_eq_true hp, .inl ha⟩, fun ha => hmodes ⟨of_decide_eq_true hp, .inr ha⟩⟩

theorem calls_perform (a : Action) : Calls u g (g.perform u a) := by
  cases a with
  | print c => exact (edits_print hmain c).calls
  | execute byte => exact (edits_execute hmain byte).calls
  | hook | put | unhook => exact .refl
  | oscDispatch params bell =>
    rcases oscDispatch_cases g params with h | h
    · exact Eq.ndrec (motive := Calls u g) .refl h.symm
    · exact h.calls
  | escDispatch intermediates ignore byte =>
    rcases @escDispatch_cases u g intermediates ignore byte with h | h | h
    · exact h.edits.calls
    · exact ((edits_linefeed hmain).trans h.edits).calls
    · exact h.calls
  | csiDispatch params intermediates ignore action =>
    rcases perform_csiDispatch_cases hmain params intermediates ignore action with h | ⟨_, _, _, h⟩
    · exact h.calls
    · rw [h]
      exact calls_setPrivateMode _ _ g

end

end TerminalGrid
end Bmux.Terminal
