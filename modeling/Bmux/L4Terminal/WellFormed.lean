import Bmux.L4Terminal.Grid

/-!
# Well-formed grids

`TerminalGrid.WellFormed` says what holds of a grid between two operations: both
screens have the height's number of well-formed rows, the cursors are on the
screen, the scroll region and the tab stops are inside it. Every operation of the
grid keeps it (`WellFormed.linefeed`, `WellFormed.printChar`, `WellFormed.resize`, …).

A wide glyph must not be a lone space (`Unicode.NarrowSpace`): such a leader would be
taken for a discardable blank and trimmed away from its spacer.
-/
namespace Bmux.Terminal
open List TerminalGrid PhysicalRow Option

def Unicode.NarrowSpace (u : Unicode) : Prop := (u.charWidth ' ').getD 0 ≤ 1

instance (u : Unicode) : Decidable u.NarrowSpace := inferInstanceAs (Decidable (_ ≤ _))

variable (width height : Nat)

structure Screen (rows : List PhysicalRow) : Prop where
  length : rows.length = height
  wellFormed : ∀ row ∈ rows, row.WellFormed width

structure Cursor.Inside (c : Cursor) : Prop where
  row : c.row < height
  col : c.col < width

structure TabStops (width : Nat) (stops : List Nat) : Prop where
  sorted : stops.Pairwise (· < ·)
  inside : ∀ col ∈ stops, col < width

/-- Logical lines hold glyphs, without their spacers. -/
structure History.WellFormed (h : History) : Prop where
  pending : ∀ c ∈ h.pending, c.Glyph
  lines : ∀ line ∈ h.lines, ∀ c ∈ line, c.Glyph

/-- What holds of a grid between two operations. -/
structure TerminalGrid.WellFormed (g : TerminalGrid) : Prop where
  width : 0 < g.width
  height : 0 < g.height
  main : Screen g.width g.height g.mainRows
  alternate : Screen g.width g.height g.altRows
  cursor : g.cursor.Inside g.width g.height
  savedCursor : g.savedCursor.Inside g.width g.height
  region : ∀ top bottom, g.scrollRegion = some (top, bottom) → top < bottom ∧ bottom < g.height
  tabStops : ∀ stops, g.terminalState.tabStops = some stops → TabStops g.width stops
  history : g.history.WellFormed

/-! ## Screens -/

theorem screen_blank : Screen width height (List.replicate height {}) where
  length := length_replicate
  wellFormed row hrow := by
    rw [eq_of_mem_replicate hrow]
    exact wellFormed_new

variable {width height : Nat}

theorem Screen.modify {rows : List PhysicalRow} (h : Screen width height rows) {i : Nat}
    {f : PhysicalRow → PhysicalRow} (hf : (f (rows.getD i {})).WellFormed width) :
      Screen width height (rows.modify i f) where
  length := by rw [length_modify, h.length]
  wellFormed := by
    intro row hrow
    obtain ⟨k, hk, rfl⟩ := mem_iff_getElem.mp hrow
    have hk' : k < rows.length := by simpa using hk
    rw [getElem_modify]
    split
    · next heq =>
      rw [heq, getD_eq_getElem _ _ hk'] at hf
      exact hf
    · exact h.wellFormed _ (getElem_mem hk')

theorem Screen.scroll {row : PhysicalRow} {rows : List PhysicalRow} (h : Screen width height (row :: rows))
    {next : PhysicalRow} (hnext : next.WellFormed width) : Screen width height (rows ++ [next]) where
  length := by
    rw [← h.length]
    simp
  wellFormed := forall_mem_append.mpr ⟨(forall_mem_cons.mp h.wellFormed).2, forall_mem_singleton.mpr hnext⟩

theorem glyph_rowLogicalCells {row : PhysicalRow} (h : ∀ c ∈ row.cells, c.Valid) (width : Nat) :
    ∀ c ∈ rowLogicalCells row width, c.Glyph := by
  intro c hc
  obtain ⟨hmem, hcont⟩ := mem_filter.mp hc
  refine ⟨valid_padBlank (fun d hd => h d (mem_of_mem_take hd)) width c hmem, ?_⟩
  simpa using hcont

theorem clampCursorToDimensions_inside (hw : 0 < width) (hh : 0 < height) (c : Cursor) :
    (clampCursorToDimensions c width height).Inside width height := by
  constructor
  · change min c.row (height - 1) < height
    omega
  · change min c.col (width - 1) < width
    omega

namespace History
variable {h : History}

theorem WellFormed.pushLine (hwf : h.WellFormed) {line : LogicalLine} (hline : ∀ c ∈ line, c.Glyph) (width : Nat) :
    (h.pushLine width line).WellFormed :=
  ⟨hwf.pending, forall_mem_append.mpr ⟨hwf.lines, forall_mem_singleton.mpr hline⟩⟩

theorem WellFormed.pushRow (hwf : h.WellFormed) {row : PhysicalRow} (hrow : ∀ c ∈ row.cells, c.Valid) (width : Nat) :
    (h.pushRow width row).WellFormed := by
  have hpending : ∀ c ∈ h.pending ++ rowLogicalCells row width, c.Glyph :=
    forall_mem_append.mpr ⟨hwf.pending, glyph_rowLogicalCells hrow _⟩
  unfold History.pushRow
  split
  · exact ⟨hpending, hwf.lines⟩
  · have hbase (bytes : Nat) : WellFormed { h with pending := [], bytes } := ⟨nofun, hwf.lines⟩
    exact (hbase _).pushLine (fun c hc => hpending c (mem_of_mem_trim hc)) width

theorem WellFormed.foldl_pushRow (hwf : h.WellFormed) {rows : List PhysicalRow}
    (hrows : ∀ row ∈ rows, ∀ c ∈ row.cells, c.Valid)
    (width : Nat) : (rows.foldl (History.pushRow width) h).WellFormed :=
  foldlRecOn rows _ hwf fun _ hwf row hrow => hwf.pushRow (hrows row hrow) width

theorem WellFormed.evictLoop (hwf : h.WellFormed) (scrollbackRows maxBytes width : Nat) {lines : List LogicalLine}
    (hlines : ∀ line ∈ lines, ∀ c ∈ line, c.Glyph) : (evictLoop scrollbackRows maxBytes width h lines).WellFormed := by
  induction lines generalizing h with
  | nil =>
    unfold History.evictLoop
    split
    · exact ⟨nofun, nofun⟩
    · exact ⟨hwf.pending, nofun⟩
  | cons line rest ih =>
    unfold History.evictLoop
    split
    · exact ih ⟨hwf.pending, hwf.lines⟩ fun l hl => hlines l (mem_cons_of_mem _ hl)
    · exact ⟨hwf.pending, hlines⟩

end History

namespace TerminalGrid
variable {g : TerminalGrid} {u : Unicode}

variable {width height col : Nat} {g g' : TerminalGrid}

theorem wellFormed_new {limits : GridLimits} (h : new width height limits = .ok g) :
    g.WellFormed := by
  unfold new at h
  split at h
  · cases h
  · next hpos =>
    cases h
    have hw : 0 < width := by omega
    have hh : 0 < height := by omega
    exact ⟨hw, hh, screen_blank _ _, screen_blank _ _, ⟨hh, hw⟩, ⟨hh, hw⟩, nofun, nofun, ⟨nofun, nofun⟩⟩

/-! ## Tab stops -/

theorem tabStops_default (width : Nat) : TabStops width (defaultTabStops width) where
  sorted := (pairwise_lt_range' (s := 8)).filter _
  inside col hcol := by
    have hmem := mem_range'_1.mp (mem_of_mem_filter hcol)
    omega

variable {stops : List Nat}

theorem tabStops_insert (h : TabStops width stops) (hcol : col < width) :
    TabStops width (insertTabStop stops col) := by
  unfold insertTabStop
  split
  · exact h
  · next hnew =>
    have heq : stops.takeWhile (· < col) ++ col :: stops.dropWhile (· < col) = stops.orderedInsert (· ≤ ·) col := by
      simp [orderedInsert_eq_take_drop]
    have hperm := perm_orderedInsert (· ≤ ·) col stops
    rw [heq]
    refine ⟨?_, fun x hx => ?_⟩
    · have hsorted := (h.sorted.imp le_of_lt).orderedInsert col stops
      have hnodup := hperm.nodup_iff.mpr (nodup_cons.mpr ⟨hnew, h.sorted.imp ne_of_lt⟩)
      exact (hsorted.and hnodup).imp fun hxy => lt_of_le_of_ne hxy.1 hxy.2
    · rcases mem_cons.mp (hperm.mem_iff.mp hx) with rfl | hx
      · exact hcol
      · exact h.inside x hx

theorem TabStops.filter (h : TabStops width stops) (p : Nat → Bool) : TabStops width (stops.filter p) :=
  ⟨h.sorted.filter p, fun x hx => h.inside x (mem_of_mem_filter hx)⟩

/-! ## What the steps are about -/

structure SameFrame (g g' : TerminalGrid) : Prop where
  width : g'.width = g.width
  height : g'.height = g.height
  cursor : g'.cursor = g.cursor

theorem SameFrame.trans {g₁ g₂ g₃ : TerminalGrid} (h₁ : SameFrame g₁ g₂) (h₂ : SameFrame g₂ g₃) : SameFrame g₁ g₃ :=
  ⟨h₂.width.trans h₁.width, h₂.height.trans h₁.height, h₂.cursor.trans h₁.cursor⟩

theorem sameFrame_eraseStyle (g : TerminalGrid) : SameFrame g g.eraseStyle.2 := by
  unfold eraseStyle
  dsimp only
  split <;> exact ⟨rfl, rfl, rfl⟩

theorem sameFrame_modifyActiveRow (g : TerminalGrid) (row : Nat) (f : PhysicalRow → PhysicalRow) :
    SameFrame g (g.modifyActiveRow row f) := by
  unfold modifyActiveRow
  split <;> exact ⟨rfl, rfl, rfl⟩

theorem sameFrame_insertBlankChars (g : TerminalGrid) (count : Nat) : SameFrame g (g.insertBlankChars count) := by
  have hfill := sameFrame_eraseStyle g
  have hbump {g' : TerminalGrid} (h : SameFrame g g') : SameFrame g g'.bumpContentRevision :=
    ⟨h.width, h.height, h.cursor⟩
  unfold insertBlankChars
  dsimp only
  split
  · exact hbump ((hfill.trans (sameFrame_modifyActiveRow _ _ _)).trans (sameFrame_modifyActiveRow _ _ _))
  · exact hbump (hfill.trans (sameFrame_modifyActiveRow _ _ _))

variable {cells : List Cell} {text : String}

section
variable (h : ∀ c ∈ cells, c.Valid)
include h

theorem valid_mapIdx {f : Nat → Cell → Cell}
    (hf : ∀ i c, c.Valid → (f i c).Valid) : ∀ c ∈ cells.mapIdx f, c.Valid := by
  intro c hc
  obtain ⟨i, hi, rfl⟩ := mem_mapIdx.mp hc
  exact hf i _ (h _ (getElem_mem hi))

theorem valid_getD (i : Nat) {c : Cell} (hc : c.Valid) : (cells.getD i c).Valid := by
  rw [getD_eq_getElem?_getD]
  cases hget : cells[i]? with
  | none => exact hc
  | some d => exact h d (mem_of_getElem? hget)

theorem valid_insertCells (width col count : Nat) (fill : StyleId) :
    ∀ c ∈ insertCells cells width col count fill, c.Valid := by
  refine valid_mapIdx h fun i c hc => ?_
  split
  · split
    · exact valid_getD h _ hc
    · exact Cell.valid_blank fill
  · exact hc

theorem valid_deleteCells (width col count : Nat) (fill : StyleId) :
    ∀ c ∈ deleteCells cells width col count fill, c.Valid := by
  refine valid_mapIdx h fun i c hc => ?_
  split
  · split
    · exact valid_getD h _ hc
    · exact Cell.valid_blank fill
  · exact hc

end

theorem push_ne_space {ch : Char} (h : ch ≠ ' ') : text.push ch ≠ " " := by
  intro heq
  have hlist := congrArg String.toList heq
  rw [String.toList_push] at hlist
  have hlast := congrArg List.getLast? hlist
  rw [getLast?_concat] at hlast
  exact h (some.inj hlast)

/-- A character that goes with the glyph before it changes its text, or has it printed anew at another width. -/
theorem extendGrapheme_cases {ch : Char} (h : g.extendGrapheme u ch = some g') : ¬ ch.toNat < 0x80 ∧
    ∃ col cell, g.graphemeCell = some (col, cell) ∧
      ((((0x300 ≤ ch.toNat ∧ ch.toNat ≤ 0x36f) ∨ cell.width = max 1 (min 2 (u.strWidth (cell.text.push ch)))) ∧
          g' = g.modifyActiveRow g.cursor.row fun r => r.setText col (cell.text.push ch)) ∨
        g' = g.reprintGlyph col cell (cell.text.push ch) (max 1 (min 2 (u.strWidth (cell.text.push ch))))) := by
  unfold TerminalGrid.extendGrapheme at h
  split at h
  · cases h
  · next hascii =>
    obtain ⟨⟨col, cell⟩, hcell, h⟩ := bind_eq_some_iff.mp h
    refine ⟨hascii, col, cell, hcell, ?_⟩
    dsimp only at h
    split_ifs at h with hmark hone hwidth <;> cases h
    · exact .inl ⟨.inl hmark, rfl⟩
    · exact .inl ⟨.inr hwidth.symm, rfl⟩
    · exact .inr rfl

/-! ## Rows -/

namespace WellFormed
theorem foldl {α : Type} {f : TerminalGrid → α → TerminalGrid} (hf : ∀ g x, g.WellFormed → (f g x).WellFormed)
    (l : List α) (h : g.WellFormed) : (l.foldl f g).WellFormed :=
  foldlRecOn l f h fun g hg x _ => hf g x hg

theorem iterate {f : TerminalGrid → TerminalGrid} (hf : ∀ g, g.WellFormed → (f g).WellFormed) (n : Nat)
    (h : g.WellFormed) : (f^[n] g).WellFormed :=
  Function.Iterate.rec WellFormed h hf n

variable (h : g.WellFormed)
include h

theorem bumpRevision : g.bumpRevision.WellFormed := { h with }

theorem bumpContentRevision : g.bumpContentRevision.WellFormed := { h with }

variable {f : PhysicalRow → PhysicalRow}

theorem modifyRow {row : Nat}
    (hf : (f (g.viewportRow row)).WellFormed g.width) : (g.modifyActiveRow row f).WellFormed := by
  unfold viewportRow activeRows at hf
  unfold modifyActiveRow
  split
  · next hmode =>
    rw [hmode] at hf
    exact { h with main := h.main.modify hf }
  · next hmode =>
    rw [hmode] at hf
    exact { h with alternate := h.alternate.modify hf }

variable (top bottom count : Nat) (enabled : Bool) (row : Nat)

theorem viewportRow : (g.viewportRow row).WellFormed g.width := by
  have hrows : ∀ r ∈ g.activeRows, r.WellFormed g.width := by
    unfold activeRows
    split
    · exact h.main.wellFormed
    · exact h.alternate.wellFormed
  unfold TerminalGrid.viewportRow
  rw [getD_eq_getElem?_getD]
  cases hget : g.activeRows[row]? with
  | none => exact PhysicalRow.wellFormed_new
  | some r => exact hrows r (mem_of_getElem? hget)

theorem modifyActiveRow
    (hf : ∀ r, r.WellFormed g.width → (f r).WellFormed g.width) : (g.modifyActiveRow row f).WellFormed :=
  h.modifyRow (hf _ (h.viewportRow row))

theorem setViewportRow {value : PhysicalRow} (hvalue : value.WellFormed g.width) :
    (g.setViewportRow row value).WellFormed := h.modifyActiveRow row fun _ _ => hvalue

theorem fillViewportRow (style : StyleId) (row : Nat) :
    (fillViewportRow style g row).WellFormed := h.setViewportRow row (wellFormed_eraseFilled style)

theorem eraseStyle : g.eraseStyle.2.WellFormed := by
  unfold TerminalGrid.eraseStyle
  dsimp only
  split
  · exact h
  · exact { h with }

theorem scrollRegionUp : (g.scrollRegionUp top bottom count).WellFormed := by
  unfold TerminalGrid.scrollRegionUp
  split
  · exact h
  · refine iterate (fun g hg => ?_) _ h.eraseStyle
    exact (foldl (fun g row hg => hg.setViewportRow row (hg.viewportRow (row + 1))) _ hg).fillViewportRow _ _

theorem scrollRegionDown : (g.scrollRegionDown top bottom count).WellFormed := by
  unfold TerminalGrid.scrollRegionDown
  split
  · exact h
  · refine iterate (fun g hg => ?_) _ h.eraseStyle
    exact (foldl (fun g row hg => hg.setViewportRow row (hg.viewportRow (row - 1))) _ hg).fillViewportRow _ _

/-! ## Scrolling out -/

theorem evictExcessHistory : g.evictExcessHistory.WellFormed :=
  { h with history := h.history.evictLoop _ _ _ h.history.lines }

theorem scrollUpOne : g.scrollUpOne.WellFormed := by
  have hfill := h.eraseStyle
  unfold TerminalGrid.scrollUpOne
  dsimp only
  generalize g.eraseStyle.2 = g' at hfill ⊢
  generalize g.eraseStyle.1 = fill
  have hblank : (eraseFilled g'.width fill).WellFormed g'.width := wellFormed_eraseFilled fill
  split
  · refine evictExcessHistory ?_
    cases hrows : g'.mainRows with
    | nil =>
      have hlen := hfill.main.length
      rw [hrows] at hlen
      exact absurd hlen (ne_of_lt hfill.height)
    | cons row rows =>
      have hmain := hrows ▸ hfill.main
      exact { hfill with
        main := hmain.scroll hblank
        history := hfill.history.pushRow (hmain.wellFormed row mem_cons_self).valid _ }
  · split
    · next row rows hrows => exact { hfill with alternate := (hrows ▸ hfill.alternate).scroll hblank }
    · exact hfill

/-! ## Cursor and modes -/

theorem clampCursor : g.clampCursor.WellFormed :=
  { h with cursor := clampCursorToDimensions_inside h.width h.height _ }

theorem saveCursor : g.saveCursor.WellFormed := { h with savedCursor := h.cursor }

theorem restoreCursor : g.restoreCursor.WellFormed :=
  { h with cursor := clampCursorToDimensions_inside h.width h.height _ }

theorem clearAltRows : g.clearAltRows.WellFormed := { h with alternate := screen_blank _ _ }

theorem ite {p : Prop} [Decidable p] (h' : g'.WellFormed) :
    (if p then g else g').WellFormed := by
  split
  · exact h
  · exact h'

theorem setAlternateMode (mode : Int) (enabled : Bool) : (g.setAlternateMode mode enabled).WellFormed := by
  refine h.ite ?_
  split
  · refine h.ite ?_
    have hsaved : (if mode = 1049 then g.saveCursor else g).WellFormed := h.saveCursor.ite h
    generalize (if mode = 1049 then g.saveCursor else g) = g' at hsaved
    split
    · have hclear := hsaved.clearAltRows
      exact { hclear with cursor := clampCursorToDimensions_inside hclear.width hclear.height _ }
    · exact { hsaved with cursor := clampCursorToDimensions_inside hsaved.width hsaved.height _ }
  · refine h.ite ?_
    have hmain : WellFormed { g with mode := .main, pendingWrap := false } := { h with }
    dsimp only
    generalize { g with mode := .main, pendingWrap := false } = g' at hmain
    have hclear : (if mode ≠ 47 then g'.clearAltRows else g').WellFormed := hmain.clearAltRows.ite hmain
    generalize (if mode ≠ 47 then g'.clearAltRows else g') = g'' at hclear
    have hrestored : (if mode = 1049 then g''.restoreCursor else g'').WellFormed := hclear.restoreCursor.ite hclear
    refine bumpContentRevision (clampCursor (ite ?_ hrestored))
    exact { hrestored with }

theorem setCursorVisible (visible : Bool) : (g.setCursorVisible visible).WellFormed :=
  { h with cursor := ⟨h.cursor.row, h.cursor.col⟩ }

theorem setAutowrap : (g.setAutowrap enabled).WellFormed := { h with }

theorem setProtocol (protocol : ProtocolState) : (g.setProtocol protocol).WellFormed :=
  h.ite { h with }

theorem setMouseTrackingMode (mode : MouseProtocolMode) (enabled : Bool) :
    (g.setMouseTrackingMode mode enabled).WellFormed := by
  cases mode with
  | none => exact h
  | press | pressRelease | buttonMotion | anyMotion => exact h.setProtocol _

theorem setMouseEncoding (encoding : MouseProtocolEncoding) (enabled : Bool) :
    (g.setMouseEncoding encoding enabled).WellFormed := by
  cases encoding with
  | default => exact h
  | utf8 | sgr => exact h.setProtocol _

theorem effectiveScrollRegion :
    g.effectiveScrollRegion.1 ≤ g.effectiveScrollRegion.2 ∧ g.effectiveScrollRegion.2 < g.height := by
  have hpos := h.height
  unfold TerminalGrid.effectiveScrollRegion
  cases hregion : g.scrollRegion with
  | none => exact ⟨zero_le, Nat.sub_lt hpos Nat.one_pos⟩
  | some region =>
    obtain ⟨hlt, hbottom⟩ := h.region region.1 region.2 hregion
    exact ⟨le_of_lt hlt, hbottom⟩

theorem cursorRowBounds :
    g.cursorRowBounds.1 ≤ g.cursorRowBounds.2 ∧ g.cursorRowBounds.2 < g.height := by
  unfold TerminalGrid.cursorRowBounds
  split
  · exact h.effectiveScrollRegion
  · exact ⟨zero_le, Nat.sub_lt h.height Nat.one_pos⟩

theorem moveCursorTo (col : Nat) : (g.moveCursorTo row col).WellFormed := by
  have hbounds := h.cursorRowBounds
  have hwidth := h.width
  refine { h with cursor := ⟨?_, ?_⟩ }
  · change min (satAdd row g.cursorRowBounds.1) g.cursorRowBounds.2 < g.height
    omega
  · change min col (g.width - 1) < g.width
    omega

theorem setScrollRegion (top bottom : Option Nat) : (g.setScrollRegion top bottom).WellFormed := by
  unfold TerminalGrid.setScrollRegion
  dsimp only
  split
  · exact h
  · next hlt =>
    have hregion : WellFormed { g with
        scrollRegion := some (min (top.getD 0) (g.height - 1), min (bottom.getD (g.height - 1)) (g.height - 1)) } := by
      refine { h with region := fun t b heq => ?_ }
      cases heq
      change _ < _ ∧ _ < g.height
      omega
    exact hregion.moveCursorTo 0 0

theorem setOriginMode : (g.setOriginMode enabled).WellFormed := by
  have hmode : WellFormed { g with terminalState := { g.terminalState with originMode := enabled } } := { h with }
  exact hmode.moveCursorTo 0 0

theorem setInsertMode : (g.setInsertMode enabled).WellFormed := { h with }

theorem moveCursorColumn (col : Nat) : (g.moveCursorColumn col).WellFormed := by
  have hwidth := h.width
  refine { h with cursor := ⟨h.cursor.row, ?_⟩ }
  change min col (g.width - 1) < g.width
  omega

theorem moveCursorRelative (rows cols : Int) : (g.moveCursorRelative rows cols).WellFormed := by
  have hbounds := h.cursorRowBounds
  have hrow : WellFormed { g with cursor := { g.cursor with
      row := max g.cursorRowBounds.1 (min g.cursorRowBounds.2 (satAddSigned g.cursor.row rows)) } } := by
    refine { h with cursor := ⟨?_, h.cursor.col⟩ }
    change max g.cursorRowBounds.1 (min g.cursorRowBounds.2 (satAddSigned g.cursor.row rows)) < g.height
    omega
  exact hrow.moveCursorColumn _

theorem carriageReturn : g.carriageReturn.WellFormed :=
  { h with cursor := ⟨h.cursor.row, h.width⟩ }

theorem backspace : g.backspace.WellFormed :=
  { h with cursor := ⟨h.cursor.row, lt_of_le_of_lt (Nat.sub_le _ _) h.cursor.col⟩ }

theorem setTabStops (hstops : TabStops g.width stops) :
    (g.setTabStops stops).WellFormed := { h with tabStops := fun _ hs => some.inj hs ▸ hstops }

theorem setTabStop : g.setTabStop.WellFormed := by
  refine bumpRevision (h.setTabStops (tabStops_insert ?_ h.cursor.col))
  cases hstops : g.terminalState.tabStops with
  | none => exact tabStops_default _
  | some stops => exact h.tabStops stops hstops

theorem clearTabStops (mode : Nat) : (g.clearTabStops mode).WellFormed := by
  unfold TerminalGrid.clearTabStops
  split
  · have hset := h.setTabStop
    refine bumpRevision (hset.setTabStops (TabStops.filter ?_ _))
    exact hset.tabStops _ rfl
  · exact bumpRevision (h.setTabStops ⟨List.Pairwise.nil, nofun⟩)
  · exact h

theorem tab : g.tab.WellFormed := by
  have hwidth := h.width
  refine { h with cursor := ⟨h.cursor.row, ?_⟩ }
  change min _ (g.width - 1) < g.width
  omega

theorem linefeed : g.linefeed.WellFormed := by
  have hbase : WellFormed { g with pendingWrap := false } := { h with }
  unfold TerminalGrid.linefeed
  dsimp only
  split
  · split
    · exact hbase.scrollUpOne.bumpContentRevision
    · exact (hbase.scrollRegionUp _ _ 1).bumpContentRevision
  · split
    · next hlt =>
      refine { h with cursor := ⟨?_, h.cursor.col⟩ }
      change g.cursor.row + 1 < g.height
      omega
    · exact hbase.bumpRevision

theorem reverseIndex : g.reverseIndex.WellFormed := by
  have hbase : WellFormed { g with pendingWrap := false } := { h with }
  unfold TerminalGrid.reverseIndex
  dsimp only
  split
  · exact (hbase.scrollRegionDown _ _ 1).bumpContentRevision
  · exact { h with cursor := ⟨lt_of_le_of_lt (Nat.sub_le _ _) h.cursor.row, h.cursor.col⟩ }

/-! ## Erasing and editing -/

theorem clearRow (start : Nat) {stop : Nat} (hstop : stop ≤ g.width) (style : StyleId) :
    (g.modifyActiveRow row fun r => r.clearRange start stop style).WellFormed :=
  h.modifyActiveRow row fun _ hr => hr.clearRange hstop start style

theorem eraseLine (mode : Nat) : (g.eraseLine mode).WellFormed := by
  have hfill := h.eraseStyle
  have hcol := hfill.cursor.col
  refine bumpContentRevision ?_
  split
  · exact hfill.clearRow _ _ le_rfl _
  · exact hfill.clearRow _ _ hcol _
  · exact hfill.clearRow _ _ le_rfl _
  · exact hfill

theorem eraseDisplay (mode : Nat) : (g.eraseDisplay mode).WellFormed := by
  have hfill := h.eraseStyle
  have hrows (l : List Nat) {g' : TerminalGrid} (h' : g'.WellFormed) :
      (l.foldl (TerminalGrid.fillViewportRow g.eraseStyle.1) g').WellFormed :=
    foldl (fun _ row hg => hg.fillViewportRow _ row) l h'
  refine bumpContentRevision ?_
  split
  · exact hrows _ (hfill.eraseLine 0)
  · exact (hrows _ hfill).eraseLine 1
  · exact hrows _ hfill
  · split
    · exact { hfill with history := ⟨nofun, nofun⟩ }
    · exact hfill
  · exact hfill

theorem eraseChars : (g.eraseChars count).WellFormed := by
  refine bumpContentRevision (h.eraseStyle.clearRow _ _ ?_ _)
  simp [(sameFrame_eraseStyle g).width]

theorem replaceActiveRow (hcells : ∀ c ∈ cells, c.Valid) :
    (g.replaceActiveRow row cells).WellFormed :=
  h.modifyActiveRow row fun _ _ => wellFormed_rebuild hcells _

theorem valid_visualCells (width : Nat) :
    ∀ c ∈ (g.viewportRow row).visualCells width, c.Valid :=
  valid_padBlank (fun c hc => (h.viewportRow row).valid c (mem_of_mem_take hc)) width

theorem insertBlankChars : (g.insertBlankChars count).WellFormed := by
  have hfill := h.eraseStyle
  have hstop : g.cursor.col + 1 ≤ g.eraseStyle.2.width := by
    rw [(sameFrame_eraseStyle g).width]
    exact h.cursor.col
  unfold TerminalGrid.insertBlankChars
  have hcleared := (hfill.clearRow g.eraseStyle.2.cursor.row g.cursor.col hstop g.eraseStyle.1).ite hfill
    (p := (g.eraseStyle.2.viewportRow g.eraseStyle.2.cursor.row).continuesAt g.cursor.col = true)
  exact (hcleared.replaceActiveRow _ (valid_insertCells (hcleared.valid_visualCells _ _) _ _ _ _)).bumpContentRevision

theorem deleteChars : (g.deleteChars count).WellFormed := by
  have hfill := h.eraseStyle
  have hcol := h.cursor.col
  unfold TerminalGrid.deleteChars
  have hstop : g.cursor.col + min (max count 1) (g.width - g.cursor.col) ≤ g.eraseStyle.2.width := by
    rw [(sameFrame_eraseStyle g).width]
    omega
  have hcleared := hfill.clearRow g.eraseStyle.2.cursor.row g.cursor.col hstop g.eraseStyle.1
  exact (hcleared.replaceActiveRow _ (valid_deleteCells (hcleared.valid_visualCells _ _) _ _ _ _)).bumpContentRevision

theorem insertBlankLines : (g.insertBlankLines count).WellFormed :=
  h.ite (h.scrollRegionDown _ _ _).bumpContentRevision

theorem deleteLines : (g.deleteLines count).WellFormed :=
  h.ite (h.scrollRegionUp _ _ _).bumpContentRevision

theorem setGraphicRendition (params : List Int) : (g.setGraphicRendition params).WellFormed :=
  { h with }

/-! ## Printing -/

theorem wrapLine : g.wrapLine.WellFormed := by
  have hmark := h.modifyActiveRow g.cursor.row (f := fun row => { row with wrapped := true }) fun _ hr =>
    hr.setWrapped true
  unfold TerminalGrid.wrapLine
  refine linefeed { hmark with cursor := ⟨hmark.cursor.row, hmark.width⟩ }

theorem wrapBefore (charWidth : Nat) : (g.wrapBefore charWidth).WellFormed := by
  have hpending : WellFormed { g with pendingWrap := false } := { h with }
  have hwrap := hpending.wrapLine.ite h (p := g.autowrap = true ∧ g.pendingWrap = true)
  exact hwrap.wrapLine.ite hwrap

theorem advanceCursor (col charWidth : Nat) : (g.advanceCursor col charWidth).WellFormed := by
  unfold TerminalGrid.advanceCursor
  split
  · exact { h with cursor := ⟨h.cursor.row, Nat.sub_lt h.width Nat.one_pos⟩ }
  · next hlt => exact { h with cursor := ⟨h.cursor.row, not_le.mp hlt⟩ }

variable {charWidth : Nat}

theorem placeGlyph (hwidth : charWidth = 1 ∨ charWidth = 2)
    (htext : charWidth = 2 → text ≠ " ") (hfit : g.cursor.col + charWidth ≤ g.width) (style : StyleId) :
    (g.placeGlyph text charWidth style).WellFormed := by
  have hinsert := (h.insertBlankChars charWidth).ite h (p := g.terminalState.insertMode = true)
  have hframe : (if g.terminalState.insertMode = true then g.insertBlankChars charWidth else g).width = g.width := by
    split
    · exact (sameFrame_insertBlankChars g charWidth).width
    · rfl
  refine advanceCursor (hinsert.modifyActiveRow _ fun r hr => ?_) _ _
  exact hr.putGlyph hwidth (hframe ▸ hfit) htext

theorem printGrapheme (hwidth : charWidth = 1 ∨ charWidth = 2)
    (htext : charWidth = 2 → text ≠ " ") : (g.printGrapheme text charWidth).WellFormed := by
  have hwrap := h.wrapBefore charWidth
  unfold TerminalGrid.printGrapheme
  dsimp only
  generalize g.wrapBefore charWidth = g' at hwrap
  have hcol := hwrap.cursor.col
  have hpalette : WellFormed { g' with palette := (g'.palette.intern g'.currentStyle).2 } := { hwrap with }
  split
  · exact (hpalette.clearRow _ _ hcol _).bumpContentRevision
  · next hfit =>
    refine bumpContentRevision (hpalette.placeGlyph hwidth htext ?_ _)
    change g'.cursor.col + charWidth ≤ g'.width
    omega

theorem graphemeCell {cell : Cell} (hcell : g.graphemeCell = some (col, cell)) :
    col < (g.viewportRow g.cursor.row).cells.length ∧ cellAt (g.viewportRow g.cursor.row).cells col = cell ∧
      cell.wideContinuation = false := by
  have hrow := h.viewportRow g.cursor.row
  obtain ⟨start, -, hcell⟩ := bind_eq_some_iff.mp hcell
  obtain ⟨c, hget, hpair⟩ := bind_eq_some_iff.mp hcell
  cases hpair
  obtain ⟨hlt, rfl⟩ := List.getElem?_eq_some_iff.mp hget
  refine ⟨hlt, cellAt_of_lt hlt, ?_⟩
  rw [← cellAt_of_lt hlt]
  split
  · next hcont =>
    rw [continuesAt_eq] at hcont
    obtain ⟨j, rfl, hj⟩ := hrow.paired.spacer start hcont
    exact hj.2
  · next hcont => rwa [continuesAt_eq, Bool.not_eq_true] at hcont

theorem reprintGlyph {cell : Cell} (hcell : g.graphemeCell = some (col, cell)) (hwidth : width = 1 ∨ width = 2)
    (htext : text ≠ " ") : (g.reprintGlyph col cell text width).WellFormed := by
  obtain ⟨hlt, hat, hcont⟩ := h.graphemeCell hcell
  have hrow := h.viewportRow g.cursor.row
  have hcol : col < g.width := lt_of_lt_of_le hlt hrow.size
  have hblank : ((g.viewportRow g.cursor.row).blankGlyph col cell.width cell.style).WellFormed g.width :=
    hrow.blankGlyph cell.style hlt (hat ▸ hcont) (congrArg Cell.width hat).symm
  have hblanked := h.modifyRow (f := fun r => r.blankGlyph col cell.width cell.style) hblank
  have hframe := sameFrame_modifyActiveRow g g.cursor.row fun r => r.blankGlyph col cell.width cell.style
  unfold TerminalGrid.reprintGlyph
  generalize (g.modifyActiveRow g.cursor.row fun r => r.blankGlyph col cell.width cell.style) = g' at hblanked hframe
  have hmoved : WellFormed { g' with
    cursor := { g.cursor with col }, pendingWrap := false, currentStyle := g.palette.get cell.style } := by
    refine { hblanked with cursor := ⟨?_, ?_⟩ }
    · rw [hframe.height]
      exact h.cursor.row
    · rw [hframe.width]
      exact hcol
  have hprint := hmoved.printGrapheme hwidth fun _ => htext
  exact { hprint with }

theorem extendGrapheme {ch : Char} (hext : g.extendGrapheme u ch = some g') :
    g'.WellFormed := by
  obtain ⟨hascii, col, cell, hcell, hcases⟩ := extendGrapheme_cases hext
  obtain ⟨hlt, hat, hcont⟩ := h.graphemeCell hcell
  have htext : cell.text.push ch ≠ " " := by
    refine push_ne_space ?_
    rintro rfl
    exact hascii (by decide)
  rcases hcases with ⟨-, rfl⟩ | rfl
  · exact h.modifyRow ((h.viewportRow g.cursor.row).setText (hat ▸ hcont) htext)
  · exact h.reprintGlyph hcell (by omega) htext

theorem printChar (hu : u.NarrowSpace) (ch : Char) : (g.printChar u ch).WellFormed := by
  unfold TerminalGrid.printChar
  split
  · next g' hext => exact (h.extendGrapheme hext).bumpContentRevision
  · dsimp only
    split
    · exact h
    · next hpos =>
      refine h.printGrapheme (by omega) fun htwo heq => ?_
      have hch : ch = ' ' := by
        have hlist := congrArg String.toList heq
        rw [String.toList_singleton] at hlist
        exact head_eq_of_cons_eq hlist
      subst hch
      unfold Unicode.NarrowSpace at hu
      omega

theorem reset : g.reset.WellFormed := by
  unfold TerminalGrid.reset
  split
  · next fresh hnew =>
    have hfresh := wellFormed_new hnew
    exact { hfresh with }
  · exact h

end WellFormed

/-! ## Resizing -/

variable {rows : List PhysicalRow} {newWidth oldWidth : Nat}

theorem mem_trimResizeRows {cursorRow : Nat} {row : PhysicalRow} (h : row ∈ trimResizeRows rows cursorRow) :
    row ∈ rows := by
  fun_induction trimResizeRows rows cursorRow with
  | case1 rows last hlast hblank ih => exact mem_of_mem_dropLast (ih h)
  | case2 | case3 => exact h

theorem glyph_liveLoop {logical : List Cell} (hlogical : ∀ c ∈ logical, c.Glyph)
    (hrows : ∀ row ∈ rows, ∀ c ∈ row.cells, c.Valid) : ∀ line ∈ liveLoop width logical rows, ∀ c ∈ line, c.Glyph := by
  have htrim {cells : List Cell} (h : ∀ c ∈ cells, c.Glyph) : ∀ c ∈ trimTrailingBlankCells cells, c.Glyph :=
    fun c hc => h c (mem_of_mem_trim hc)
  induction rows generalizing logical with
  | nil =>
    rw [liveLoop]
    split
    · nofun
    · exact forall_mem_singleton.mpr (htrim hlogical)
  | cons row rows ih =>
    have hjoined : ∀ c ∈ logical ++ rowLogicalCells row width, c.Glyph := by
      intro c hc
      rcases mem_append.mp hc with hc | hc
      · exact hlogical c hc
      · exact glyph_rowLogicalCells (hrows row mem_cons_self) width c hc
    have hrest : ∀ r ∈ rows, ∀ c ∈ r.cells, c.Valid := fun r hr => hrows r (mem_cons_of_mem _ hr)
    rw [liveLoop]
    split
    · exact ih hjoined hrest
    · exact forall_mem_cons.mpr ⟨htrim hjoined, ih nofun hrest⟩

theorem glyph_liveLogicalLines {pending : List Cell} (hpending : ∀ c ∈ pending, c.Glyph)
    (hrows : ∀ row ∈ rows, ∀ c ∈ row.cells, c.Valid) :
      ∀ line ∈ liveLogicalLines width pending rows, ∀ c ∈ line, c.Glyph := by
  unfold liveLogicalLines
  dsimp only
  split
  · exact forall_mem_singleton.mpr nofun
  · exact glyph_liveLoop hpending hrows

structure Placed.WellFormed (newWidth : Nat) (p : Placed) : Prop where
  history : p.history.WellFormed
  pending : ∀ c ∈ p.pending, c.Glyph
  rows : ∀ row ∈ p.rows, row.WellFormed newWidth

theorem Placed.WellFormed.placeLines {p : Placed} (h : p.WellFormed newWidth) (hwidth : 0 < newWidth)
    {lines : List LogicalLine} (hlines : ∀ line ∈ lines, ∀ c ∈ line, c.Glyph) (width keepStart rowIndex : Nat) :
    (placeLines width newWidth keepStart rowIndex p lines).WellFormed newWidth := by
  induction lines generalizing p rowIndex with
  | nil => exact h
  | cons line lines ih =>
    have hline := hlines line mem_cons_self
    have hrest : ∀ l ∈ lines, ∀ c ∈ l, c.Glyph := fun l hl => hlines l (mem_cons_of_mem _ hl)
    have hproject := wellFormed_project hline hwidth
    rw [TerminalGrid.placeLines]
    split
    · exact ih (p := { p with history := p.history.pushLine width line }) ⟨h.history.pushLine hline width, h.pending,
        h.rows⟩ hrest _
    · refine ih (p := { p with pending := p.pending ++ _, rows := p.rows ++ _ }) ⟨h.history, fun c hc => ?_,
        fun row hrow => ?_⟩ hrest _
      · rcases mem_append.mp hc with hc | hc
        · exact h.pending c hc
        · obtain ⟨row, hrow, hmem⟩ := mem_flatMap.mp hc
          exact glyph_rowLogicalCells (hproject row (mem_of_mem_take hrow)).valid _ c hmem
      · rcases mem_append.mp hrow with hrow | hrow
        · exact h.rows row hrow
        · exact hproject row (mem_of_mem_drop hrow)

theorem screen_padRows (h : ∀ row ∈ rows, row.WellFormed width) :
    Screen width height ((padRows rows height).drop ((padRows rows height).length - height)) := by
  constructor
  · unfold padRows
    rw [length_drop, length_append, length_replicate]
    omega
  · intro row hrow
    rcases mem_append.mp (mem_of_mem_drop hrow) with hrow | hrow
    · exact h row hrow
    · rw [eq_of_mem_replicate hrow]
      exact PhysicalRow.wellFormed_new

theorem WellFormed.glyph_resizeLines (h : g.WellFormed) (mainCursor : Cursor) :
    ∀ line ∈ g.resizeLines mainCursor, ∀ c ∈ line, c.Glyph :=
  glyph_liveLogicalLines h.history.pending fun row hrow => (h.main.wellFormed row (mem_trimResizeRows hrow)).valid

theorem WellFormed.resizeRows (h : g.WellFormed) (hw : 0 < newWidth) (newHeight : Nat) {lines : List LogicalLine}
    (hlines : ∀ line ∈ lines, ∀ c ∈ line, c.Glyph) :
    (g.resizeRows newWidth newHeight lines).1.WellFormed ∧
      Screen newWidth newHeight (g.resizeRows newWidth newHeight lines).2 := by
  have hstart : Placed.WellFormed newWidth { history := { g.history with pending := [] } } :=
    ⟨⟨nofun, h.history.lines⟩, nofun, nofun⟩
  have hplaced := hstart.placeLines hw hlines g.width (keepStart lines newWidth newHeight) 0
  unfold TerminalGrid.resizeRows
  generalize placeLines _ _ _ _ _ _ = p at hplaced
  have hhistory (bytes : Nat) : History.WellFormed { p.history with
    pending := trimTrailingBlankCells p.pending, bytes } :=
    ⟨fun c hc => hplaced.pending c (mem_of_mem_trim hc), hplaced.history.lines⟩
  refine ⟨(hhistory _).foldl_pushRow (fun row hrow => ?_) _, screen_padRows hplaced.rows⟩
  rcases mem_append.mp (mem_of_mem_take hrow) with hrow | hrow
  · exact (hplaced.rows row hrow).valid
  · rw [eq_of_mem_replicate hrow]
    nofun

theorem clampRegion_inside (hh : 0 < height) {region : Option (Nat × Nat)} {top bottom : Nat}
    (h : clampRegion height region = some (top, bottom)) : top < bottom ∧ bottom < height := by
  obtain ⟨⟨t, b⟩, -, hclamp⟩ := bind_eq_some_iff.mp h
  dsimp only at hclamp
  split at hclamp
  · cases hclamp
    omega
  · cases hclamp

theorem screen_fitAltRows (h : ∀ row ∈ rows, row.WellFormed oldWidth) :
    Screen width height ((padRows (rows.take height) height).map (fitAltRow width)) := by
  constructor
  · simp [padRows]
  · intro row hrow
    obtain ⟨r, hr, rfl⟩ := mem_map.mp hrow
    have hwf : r.WellFormed oldWidth := by
      rcases mem_append.mp hr with hr | hr
      · exact h r (mem_of_mem_take hr)
      · rw [eq_of_mem_replicate hr]
        exact PhysicalRow.wellFormed_new
    exact (hwf.truncate width).setWrapped false

theorem wellFormed_fitToSize (hw : 0 < g.width) (hh : 0 < g.height) (hmain : Screen g.width g.height g.mainRows)
    (halt : ∀ row ∈ g.altRows, row.WellFormed oldWidth)
    (htabs : ∀ stops, g.terminalState.tabStops = some stops → stops.Pairwise (· < ·))
    (hhistory : g.history.WellFormed) :
    (g.fitToSize g.width g.height).WellFormed where
  width := hw
  height := hh
  main := hmain
  alternate := screen_fitAltRows halt
  cursor := clampCursorToDimensions_inside hw hh _
  savedCursor := clampCursorToDimensions_inside hw hh _
  region top bottom hregion := clampRegion_inside hh hregion
  tabStops stops hstops := by
    obtain ⟨old, hget, rfl⟩ := map_eq_some_iff.mp hstops
    refine ⟨(htabs old hget).filter _, fun col hcol => ?_⟩
    have hlt := of_mem_filter hcol
    exact of_decide_eq_true hlt
  history := hhistory

theorem setMainCursor_rest (g : TerminalGrid) (c : Cursor) :
    (g.setMainCursor c).mainRows = g.mainRows ∧ (g.setMainCursor c).altRows = g.altRows ∧
      (g.setMainCursor c).terminalState = g.terminalState ∧ (g.setMainCursor c).history = g.history := by
  unfold setMainCursor
  split <;> exact ⟨rfl, rfl, rfl, rfl⟩

theorem WellFormed.resized (h : g.WellFormed) (hw : 0 < width) (hh : 0 < height) :
    (g.resized width height).WellFormed := by
  obtain ⟨hhistory, hmain⟩ := h.resizeRows hw height (h.glyph_resizeLines g.mainCursor)
  unfold TerminalGrid.resized
  dsimp only
  have hrest := setMainCursor_rest (g.resizeMainViewport width height g.mainCursor).2
    (g.resizeMainViewport width height g.mainCursor).1.1
  generalize (g.resizeMainViewport width height g.mainCursor).2.setMainCursor
    (g.resizeMainViewport width height g.mainCursor).1.1 = g' at hrest
  obtain ⟨hrows, halt, hstate, hhist⟩ := hrest
  have hcounted : (g'.setSize width height).history.WellFormed := by
    change (if g'.width ≠ width then { g'.history with projectedRows := none } else g'.history).WellFormed
    rw [hhist]
    split
    · exact ⟨hhistory.pending, hhistory.lines⟩
    · exact hhistory
  have hscreen : Screen width height g'.mainRows := hrows ▸ hmain
  have hold : ∀ row ∈ g'.altRows, row.WellFormed g.width := halt ▸ h.alternate.wellFormed
  have htabs (stops : List Nat) (hstops : g'.terminalState.tabStops = some stops) : stops.Pairwise (· < ·) :=
    (h.tabStops stops (hstate ▸ hstops)).sorted
  exact WellFormed.bumpContentRevision (wellFormed_fitToSize (g := (g'.setSize width height).evictExcessHistory)
    hw hh hscreen hold htabs (hcounted.evictLoop _ _ _ hcounted.lines))

theorem WellFormed.resize (h : g.WellFormed) (hres : g.resize width height = .ok g') :
    g'.WellFormed := by
  unfold TerminalGrid.resize TerminalGrid.resizeWithMainRowShift at hres
  split at hres
  · cases hres
  · next hpos =>
    split at hres
    · cases hres
      exact h
    · cases hres
      exact h.resized (by omega) (by omega)

end TerminalGrid
end Bmux.Terminal
