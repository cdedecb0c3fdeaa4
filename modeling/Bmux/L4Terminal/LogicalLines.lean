import Bmux.L4Terminal.Accounting

/-!
# What a resize keeps of the text

`logicalLines` is the text of a grid whatever its width: the lines of the history and
those of the screen with wrapped rows joined, each without trailing default blanks, and
without the empty lines at the end.

`resize_main_viewport` reads the lines off the screen, lays them out at the new width
and keeps the last rows. The rows of a line that end up above the screen are read back
into the pending line, with two losses:

* the pending line is trimmed, so that blanks inside a line are lost where it is cut
  (`interior_blanks_lost`);
* a row that a wide glyph did not fit into is read back with a blank in its last column.

`Keeps` says that neither happens at a resize, as a condition on the grid before it, and
`resizes_keep_text` that a sequence of such resizes keeps the text of every grid that a
stream can lead to, as long as nothing is evicted.
-/
namespace Bmux.Terminal
open List TerminalGridStream

theorem rdropWhile_append_of_all {α : Type} {p : α → Bool} (xs : List α) {ys : List α} (h : ∀ y ∈ ys, p y = true) :
    (xs ++ ys).rdropWhile p = xs.rdropWhile p := by
  simp [rdropWhile, dropWhile_append_of_pos fun y hy => h y (mem_reverse.mp hy)]

theorem trim_append_blanks (cells : List Cell) (n : Nat) :
    trimTrailingBlankCells (cells ++ replicate n (Cell.blank StyleId.DEFAULT)) = trimTrailingBlankCells cells :=
  rdropWhile_append_of_all cells fun c hc => by
    rw [eq_of_mem_replicate hc]
    rfl

theorem trim_trim (cells : List Cell) : trimTrailingBlankCells (trimTrailingBlankCells cells) =
    trimTrailingBlankCells cells :=
  rdropWhile_idempotent _ _

/-! ## The rows of a line from one on -/

variable (lines : List LogicalLine) {rs : List LogicalRow}

theorem Chain.split (h : Chain rs) {k : Nat} (hk : k < rs.length) :
    (∀ r ∈ rs.take k, r.wrapped = true) ∧ Chain (rs.drop k) := by
  induction h generalizing k with
  | last hlast =>
    obtain rfl : k = 0 := by simpa using hk
    exact ⟨nofun, .last hlast⟩
  | wrap hwrap hrs ih =>
    cases k with
    | zero => exact ⟨nofun, .wrap hwrap hrs⟩
    | succ k =>
      obtain ⟨htake, hdrop⟩ := ih (by simpa using hk)
      exact ⟨forall_mem_cons.mpr ⟨hwrap, htake⟩, hdrop⟩

/-! ## Lines up to empty ones at the end -/

def dropEmptyEnd : List LogicalLine := lines.rdropWhile isEmpty

theorem dropEmptyEnd_append_empty (n : Nat) : dropEmptyEnd (lines ++ replicate n []) = dropEmptyEnd lines :=
  rdropWhile_append_of_all lines fun line hline => by
    rw [eq_of_mem_replicate hline]
    rfl

theorem dropEmptyEnd_append_congr (before : List LogicalLine) {lines lines' : List LogicalLine}
    (h : dropEmptyEnd lines = dropEmptyEnd lines') :
    dropEmptyEnd (before ++ lines) = dropEmptyEnd (before ++ lines') := by
  have hsplit (lines : List LogicalLine) : dropEmptyEnd (before ++ lines) =
    dropEmptyEnd (before ++ dropEmptyEnd lines) := by
    have hempty : ∀ line ∈ lines.rtakeWhile isEmpty, isEmpty line = true := fun line hline => mem_rtakeWhile_imp hline
    have hlines : dropEmptyEnd lines ++ lines.rtakeWhile isEmpty = lines := by
      exact rdropWhile_append_rtakeWhile
    calc dropEmptyEnd (before ++ lines)
        = dropEmptyEnd (before ++ dropEmptyEnd lines ++ lines.rtakeWhile isEmpty) := by rw [append_assoc, hlines]
      _ = dropEmptyEnd (before ++ dropEmptyEnd lines) := rdropWhile_append_of_all _ hempty
  rw [hsplit lines, hsplit lines', h]

namespace TerminalGrid
variable {g : TerminalGrid} {u : Unicode}

/-- The text of the main screen and its history. -/
def logicalLines (g : TerminalGrid) : List LogicalLine :=
  dropEmptyEnd (g.history.lines.map trimTrailingBlankCells ++ liveLoop g.width g.history.pending g.mainRows)

/-! ## Reading a screen -/

variable (width : Nat) (logical : List Cell) (rows : List PhysicalRow) {row : PhysicalRow}

theorem trim_append_blankRow (hblank : rowIsBlank row = true) (cells : List Cell) (width : Nat) :
    trimTrailingBlankCells (cells ++ rowLogicalCells row width) = trimTrailingBlankCells cells := by
  refine rdropWhile_append_of_all cells fun c hc => ?_
  rcases mem_append.mp (mem_of_mem_filter hc) with hc | hc
  · exact all_eq_true.mp hblank c (mem_of_mem_take hc)
  · rw [eq_of_mem_replicate hc]
    rfl

theorem liveLoop_concat_blank (hblank : rowIsBlank row = true) (hwrapped : row.wrapped = false) :
    dropEmptyEnd (liveLoop width logical (rows ++ [row])) = dropEmptyEnd (liveLoop width logical rows) := by
  induction rows generalizing logical with
  | nil =>
    have hrow : liveLoop width logical [row] = [trimTrailingBlankCells logical] := by
      simp [liveLoop, hwrapped, trim_append_blankRow hblank]
    rw [nil_append, hrow, liveLoop]
    split
    · rename_i hempty
      rw [isEmpty_iff.mp hempty]
      rfl
    · rfl
  | cons first rows ih =>
    rw [cons_append, liveLoop, liveLoop]
    split
    · exact ih _
    · exact dropEmptyEnd_append_congr [trimTrailingBlankCells (logical ++ rowLogicalCells first width)] (ih [])

theorem liveLoop_trimResizeRows (cursorRow : Nat) :
    dropEmptyEnd (liveLoop width logical (trimResizeRows rows cursorRow)) =
      dropEmptyEnd (liveLoop width logical rows) := by
  fun_induction trimResizeRows rows cursorRow with
  | case1 rows row hlast hcond ih =>
    have hrows : rows.dropLast ++ [row] = rows := dropLast_append_getLast? row hlast
    have hconcat := liveLoop_concat_blank width logical rows.dropLast hcond.2.1
      (Bool.eq_false_of_not_eq_true hcond.2.2.1)
    rw [hrows] at hconcat
    exact ih.trans hconcat.symm
  | case2 | case3 => rfl

theorem liveLogicalLines_text (pending : List Cell) (rows : List PhysicalRow) :
    dropEmptyEnd (liveLogicalLines width pending rows) = dropEmptyEnd (liveLoop width pending rows) := by
  unfold liveLogicalLines
  dsimp only
  split
  · rename_i hempty
    rw [isEmpty_iff.mp hempty]
    rfl
  · rfl

variable {width keepStart rowIndex newWidth newHeight height : Nat}

theorem trim_of_mem_liveLoop {logical : List Cell} {rows : List PhysicalRow} :
    ∀ line ∈ liveLoop width logical rows, trimTrailingBlankCells line = line := by
  induction rows generalizing logical with
  | nil =>
    rw [liveLoop]
    split
    · exact forall_mem_nil _
    · exact forall_mem_singleton.mpr (trim_trim _)
  | cons row rows ih =>
    rw [liveLoop]
    split
    · exact ih
    · exact forall_mem_cons.mpr ⟨trim_trim _, ih⟩

theorem trim_of_mem_resizeLines (cursor : Cursor) :
    ∀ line ∈ g.resizeLines cursor, trimTrailingBlankCells line = line := by
  unfold resizeLines liveLogicalLines
  dsimp only
  split
  · exact forall_mem_singleton.mpr rfl
  · exact trim_of_mem_liveLoop

theorem resizeLines_text (g : TerminalGrid) (cursor : Cursor) :
    dropEmptyEnd (g.resizeLines cursor) = dropEmptyEnd (liveLoop g.width g.history.pending g.mainRows) := by
  unfold resizeLines
  rw [liveLogicalLines_text, liveLoop_trimResizeRows]

theorem liveLoop_empty (width n : Nat) : liveLoop width [] (replicate n ({} : PhysicalRow)) = replicate n [] := by
  induction n with
  | zero => rfl
  | succ n ih =>
    have hrow : trimTrailingBlankCells ([] ++ rowLogicalCells ({} : PhysicalRow) width) = [] :=
      trim_append_blankRow rfl [] width
    rw [replicate_succ, liveLoop, replicate_succ]
    rw [if_neg Bool.false_ne_true, hrow, ih]

/-! ## Reading a laid out line back -/

/-- The rows of a line carry nothing but its glyphs: the row that goes on is full. -/
structure Laid (width : Nat) (r : LogicalRow) : Prop where
  glyphs : ∀ c ∈ r.cells, c.Glyph
  fits : totalExtent r.cells ≤ width
  full : r.wrapped = true → totalExtent r.cells = width

theorem Laid.read {r : LogicalRow} (h : Laid width r) (hwrapped : r.wrapped = true) :
    rowLogicalCells (projectRow width r) width = r.cells := by
  simp [rowLogicalCells_projectRow h.glyphs h.fits, h.full hwrapped]

/-- The rows of a laid line are read as that line. -/
theorem liveLoop_laid {rs : List LogicalRow} (hchain : Chain rs) (hlaid : ∀ r ∈ rs, Laid width r) (logical : List Cell)
    (rows : List PhysicalRow) : liveLoop width logical (rs.map (projectRow width) ++ rows) =
      trimTrailingBlankCells (logical ++ rs.flatMap LogicalRow.cells) :: liveLoop width [] rows := by
  induction hchain generalizing logical with
  | @last r hlast =>
    have h := hlaid r mem_cons_self
    have hwrapped : (projectRow width r).wrapped = false := hlast
    rw [map_singleton, singleton_append, liveLoop]
    rw [hwrapped, if_neg Bool.false_ne_true, rowLogicalCells_projectRow h.glyphs h.fits, ← append_assoc,
      trim_append_blanks, flatMap_singleton]
  | @wrap r rs hwrap _ ih =>
    have h := hlaid r mem_cons_self
    have hwrapped : (projectRow width r).wrapped = true := hwrap
    rw [map_cons, cons_append, liveLoop]
    rw [if_pos hwrapped, h.read hwrap, ih (fun r hr => hlaid r (mem_cons_of_mem _ hr)), append_assoc, flatMap_cons]

/-- A line whose first rows have gone into the pending line is read back whole. -/
theorem liveLoop_project (hwidth : 2 ≤ width) {line : LogicalLine} (hglyph : ∀ c ∈ line, c.Glyph)
    (htrim : trimTrailingBlankCells line = line)
    (hfull : ∀ r ∈ visitLogicalRows line width, r.wrapped = true → totalExtent r.cells = width) {k : Nat}
    (hk : k < (projectLogicalLine line width).length) (rows : List PhysicalRow) :
    liveLoop width (((projectLogicalLine line width).take k).flatMap (rowLogicalCells · width))
        ((projectLogicalLine line width).drop k ++ rows) = line :: liveLoop width [] rows := by
  have hproject : projectLogicalLine line width = (visitLogicalRows line width).map (projectRow width) := by
    unfold projectLogicalLine projectionCells
    rw [max_eq_left (by omega), if_neg Bool.false_ne_true, htrim]
  have hextent : ∀ c ∈ line, c.extent ≤ width := by
    intro c hc
    have hvalid := (hglyph c hc).valid.width (hglyph c hc).leads
    rw [(hglyph c hc).extent_eq]
    omega
  have hlaid : ∀ r ∈ visitLogicalRows line width, Laid width r := fun r hr =>
    ⟨fun c hc => hglyph c (mem_visitLogicalRows r hr c hc), totalExtent_visitLogicalRows (by omega) hextent r hr,
      hfull r hr⟩
  have hchain := chain_visitLogicalRows line width
  have hflat := flatten_visitLogicalRows line width
  rw [hproject] at hk ⊢
  generalize visitLogicalRows line width = rs at hk hlaid hchain hflat
  rw [length_map] at hk
  obtain ⟨hwrapped, hdrop⟩ := hchain.split hk
  have hread : ((rs.map (projectRow width)).take k).flatMap (rowLogicalCells · width) =
    (rs.take k).flatMap LogicalRow.cells := by
    rw [← map_take, flatMap_map]
    refine flatMap_congr fun r hr => ?_
    exact (hlaid r (mem_of_mem_take hr)).read (hwrapped r hr)
  rw [hread, ← map_drop, liveLoop_laid hdrop fun r hr => hlaid r (mem_of_mem_drop hr)]
  rw [← flatMap_append, take_append_drop, hflat, htrim]

/-! ## Placing the lines -/

theorem rowCount_pos (line : LogicalLine) (width : Nat) : 0 < projectedLogicalLineRowCount line width := by
  unfold projectedLogicalLineRowCount projectedLogicalLineRowCountRetained
  dsimp only
  split
  · exact Nat.one_pos
  · omega

/-- Behind the rows that are moved out, every line goes to the screen. -/
theorem placeLines_shown (width newWidth : Nat) (hstart : keepStart ≤ rowIndex) (p : Placed)
    (lines : List LogicalLine) :
    placeLines width newWidth keepStart rowIndex p lines =
      { p with rows := p.rows ++ lines.flatMap (projectLogicalLine · newWidth) } := by
  induction lines generalizing rowIndex p with
  | nil => simp [placeLines]
  | cons line lines ih =>
    have hpos := rowCount_pos line newWidth
    have hhidden : keepStart - rowIndex = 0 := by omega
    rw [placeLines]
    rw [if_neg (by omega), ih (by omega), hhidden]
    simp

/-- The lines in front go to the history, the next one is cut, and the others go to the screen. -/
theorem placeLines_cut (width newWidth : Nat) (hstart : rowIndex ≤ keepStart) (h : History)
    (lines : List LogicalLine) :
    let p := placeLines width newWidth keepStart rowIndex { history := h } lines
    ∃ pushed rest, lines = pushed ++ rest ∧ p.history.lines = h.lines ++ pushed ∧
      ((rest = [] ∧ p.pending = [] ∧ p.rows = []) ∨
        ∃ line more k, rest = line :: more ∧ k < (projectLogicalLine line newWidth).length ∧
          p.pending = ((projectLogicalLine line newWidth).take k).flatMap (rowLogicalCells · newWidth) ∧
          p.rows = (projectLogicalLine line newWidth).drop k ++ more.flatMap (projectLogicalLine · newWidth)) := by
  induction lines generalizing rowIndex h with
  | nil => exact ⟨[], [], rfl, (append_nil _).symm, .inl ⟨rfl, rfl, rfl⟩⟩
  | cons line lines ih =>
    rw [placeLines]
    by_cases hend : rowIndex + projectedLogicalLineRowCount line newWidth ≤ keepStart
    · rw [if_pos hend]
      obtain ⟨pushed, rest, hlines, hhistory, hrest⟩ := ih hend (h.pushLine width line)
      refine ⟨line :: pushed, rest, by rw [hlines, cons_append], ?_, hrest⟩
      rw [hhistory]
      exact append_assoc h.lines [line] pushed
    · rw [if_neg hend, placeLines_shown width newWidth (by omega)]
      refine ⟨[], line :: lines, rfl, (append_nil _).symm, .inr ⟨line, lines, keepStart - rowIndex, rfl, ?_, ?_, ?_⟩⟩
      · rw [← projectedLogicalLineRowCount_eq]
        omega
      · exact nil_append _
      · rfl

/-- What a line must satisfy to be read back from its rows at a width. -/
structure Readable (width : Nat) (line : LogicalLine) : Prop where
  glyphs : ∀ c ∈ line, c.Glyph
  trimmed : trimTrailingBlankCells line = line
  full : ∀ r ∈ visitLogicalRows line width, r.wrapped = true → totalExtent r.cells = width

/-- The rows of readable lines are read as these lines. -/
theorem liveLoop_lines (hwidth : 2 ≤ width) {lines : List LogicalLine} (h : ∀ line ∈ lines, Readable width line)
    (rows : List PhysicalRow) :
    liveLoop width [] (lines.flatMap (projectLogicalLine · width) ++ rows) = lines ++ liveLoop width [] rows := by
  induction lines with
  | nil => rfl
  | cons line lines ih =>
    have hline := h line mem_cons_self
    have hpos : 0 < (projectLogicalLine line width).length := by
      rw [← projectedLogicalLineRowCount_eq]
      exact rowCount_pos line width
    have hread := liveLoop_project hwidth hline.glyphs hline.trimmed hline.full hpos
      (lines.flatMap (projectLogicalLine · width) ++ rows)
    rw [flatMap_cons, append_assoc]
    rw [take_zero, flatMap_nil, drop_zero] at hread
    rw [hread, ih fun line hline => h line (mem_cons_of_mem _ hline), cons_append]

/-! ## One resize -/

/-- A resize that keeps the text, as the grid before it tells: no wide glyph leaves a column of
a row empty at the new width, and the cells of a line that are moved above the screen do not
end in a default blank. -/
structure Keeps (g : TerminalGrid) (newWidth newHeight : Nat) : Prop where
  full : ∀ line ∈ g.resizeLines g.mainCursor, ∀ r ∈ visitLogicalRows line newWidth, r.wrapped = true →
    totalExtent r.cells = newWidth
  cut : trimTrailingBlankCells (g.placement newWidth newHeight).pending = (g.placement newWidth newHeight).pending

/-- A resize behind which the history is within its limits. -/
structure Retains (g : TerminalGrid) (newWidth newHeight : Nat) : Prop where
  lines : (g.resizedHistory newWidth newHeight).lines.length ≤ g.limits.scrollbackRows
  bytes : (g.resizedHistory newWidth newHeight).bytes ≤ HISTORY_BUDGET

instance (g : TerminalGrid) (newWidth newHeight : Nat) : Decidable (g.Keeps newWidth newHeight) :=
  decidable_of_iff
    ((∀ line ∈ g.resizeLines g.mainCursor, ∀ r ∈ visitLogicalRows line newWidth, r.wrapped = true →
      totalExtent r.cells = newWidth) ∧
      trimTrailingBlankCells (g.placement newWidth newHeight).pending = (g.placement newWidth newHeight).pending)
    ⟨fun h => ⟨h.1, h.2⟩, fun h => ⟨h.full, h.cut⟩⟩

instance (g : TerminalGrid) (newWidth newHeight : Nat) : Decidable (g.Retains newWidth newHeight) :=
  decidable_of_iff
    ((g.resizedHistory newWidth newHeight).lines.length ≤ g.limits.scrollbackRows ∧
      (g.resizedHistory newWidth newHeight).bytes ≤ HISTORY_BUDGET)
    ⟨fun h => ⟨h.1, h.2⟩, fun h => ⟨h.lines, h.bytes⟩⟩

theorem Retains.history (h : g.Retains newWidth newHeight) :
    (g.resized newWidth newHeight).history = g.resizedHistory newWidth newHeight := by
  have hlines := h.lines
  have hbytes := h.bytes
  rw [resized_history]
  unfold History.evictToBudget
  rw [History.evictLoop.eq_def, if_neg (by omega)]

/-- The lines that a resize places are read back from the history, the pending line and the screen. -/
theorem placement_text (hwidth : 2 ≤ newWidth) (newHeight n : Nat)
    (hlines : ∀ line ∈ g.resizeLines g.mainCursor, Readable newWidth line) :
    (g.placement newWidth newHeight).history.lines ++
        liveLoop newWidth (g.placement newWidth newHeight).pending
          ((g.placement newWidth newHeight).rows ++ replicate n ({} : PhysicalRow)) =
      g.history.lines ++ g.resizeLines g.mainCursor ++ replicate n [] := by
  obtain ⟨pushed, rest, hsplit, hhistory, hrest⟩ := placeLines_cut g.width newWidth
    (Nat.zero_le (keepStart (g.resizeLines g.mainCursor) newWidth newHeight)) { g.history with
      pending := [] } (g.resizeLines g.mainCursor)
  have hread : ∀ line ∈ rest, Readable newWidth line :=
    fun line hline => hlines line (hsplit ▸ mem_append_right _ hline)
  change (g.placement newWidth newHeight).history.lines = g.history.lines ++ pushed at hhistory
  rw [hhistory, hsplit]
  simp only [append_assoc]
  rcases hrest with ⟨rfl, hpending, hrows⟩ | ⟨line, more, k, rfl, hk, hpending, hrows⟩
  · change (g.placement newWidth newHeight).pending = [] at hpending
    change (g.placement newWidth newHeight).rows = [] at hrows
    simp [hpending, hrows, liveLoop_empty]
  · have hline := hread line mem_cons_self
    change (g.placement newWidth newHeight).pending = _ at hpending
    change (g.placement newWidth newHeight).rows = _ at hrows
    rw [hpending, hrows, append_assoc, liveLoop_project hwidth hline.glyphs hline.trimmed hline.full hk,
      liveLoop_lines hwidth fun line hline => hread line (mem_cons_of_mem _ hline), liveLoop_empty, cons_append]

theorem map_trim_of_trimmed {lines : List LogicalLine} (h : ∀ line ∈ lines, trimTrailingBlankCells line = line) :
    lines.map trimTrailingBlankCells = lines := by
  rw [map_congr_left h, map_id']

/-- A resize that loses no blank and evicts nothing keeps the text. -/
theorem WellFormed.logicalLines_resized (h : g.WellFormed) (hwidth : 2 ≤ newWidth) (hkeeps : g.Keeps newWidth newHeight)
    (hretains : g.Retains newWidth newHeight) : (g.resized newWidth newHeight).logicalLines = g.logicalLines := by
  have hlines : ∀ line ∈ g.resizeLines g.mainCursor, Readable newWidth line := fun line hline =>
    ⟨h.glyph_resizeLines _ line hline, trim_of_mem_resizeLines _ line hline, hkeeps.full line hline⟩
  have hpending : (g.resizedHistory newWidth newHeight).pending = (g.placement newWidth newHeight).pending := hkeeps.cut
  have htext := congrArg (map trimTrailingBlankCells)
    (placement_text hwidth newHeight (newHeight - (g.placement newWidth newHeight).rows.length) hlines)
  rw [map_append, map_trim_of_trimmed trim_of_mem_liveLoop, map_append, map_append,
    map_trim_of_trimmed (trim_of_mem_resizeLines g.mainCursor), map_replicate] at htext
  have hempty : trimTrailingBlankCells [] = [] := rfl
  rw [hempty] at htext
  calc (g.resized newWidth newHeight).logicalLines
      = dropEmptyEnd ((g.placement newWidth newHeight).history.lines.map trimTrailingBlankCells ++
          liveLoop newWidth (g.placement newWidth newHeight).pending
            (padRows (g.placement newWidth newHeight).rows newHeight)) := by
        unfold logicalLines
        rw [hretains.history, hpending, resized_mainRows]
        rfl
    _ = dropEmptyEnd (g.history.lines.map trimTrailingBlankCells ++ g.resizeLines g.mainCursor) := by
        unfold padRows
        rw [htext, dropEmptyEnd_append_empty]
    _ = g.logicalLines := dropEmptyEnd_append_congr _ (resizeLines_text g g.mainCursor)

/-! ## Sequences of resizes -/

/-- Sizes that a grid can be brought to one after another, each resize keeping the text and
the history. -/
def KeepsAll (g : TerminalGrid) : List (Nat × Nat) → Prop
  | [] => True
  | (width, height) :: sizes =>
    2 ≤ width ∧ 1 ≤ height ∧ g.Keeps width height ∧ g.Retains width height ∧
      match g.resize width height with
      | .ok g' => g'.KeepsAll sizes
      | .error _ => True

instance decidableKeepsAll : (g : TerminalGrid) → (sizes : List (Nat × Nat)) → Decidable (g.KeepsAll sizes)
  | _, [] => .isTrue trivial
  | g, (width, height) :: sizes =>
    have : Decidable (match g.resize width height with
        | .ok g' => g'.KeepsAll sizes
        | .error _ => True) :=
      match g.resize width height with
      | .ok g' => decidableKeepsAll g' sizes
      | .error _ => .isTrue trivial
    inferInstanceAs (Decidable (2 ≤ width ∧ 1 ≤ height ∧ g.Keeps width height ∧ g.Retains width height ∧
      match g.resize width height with
      | .ok g' => g'.KeepsAll sizes
      | .error _ => True))

theorem WellFormed.logicalLines_resize (h : g.WellFormed) (hwidth : 2 ≤ width) (hkeeps : g.Keeps width height)
    (hretains : g.Retains width height) {g' : TerminalGrid} (hres : g.resize width height = .ok g') :
      g'.logicalLines = g.logicalLines := by
  unfold TerminalGrid.resize resizeWithMainRowShift at hres
  split at hres
  · cases hres
  · split at hres
    · cases hres
      rfl
    · cases hres
      exact h.logicalLines_resized hwidth hkeeps hretains

theorem resize_ok (g : TerminalGrid) (hwidth : 2 ≤ width) (hheight : 1 ≤ height) :
    ∃ g', g.resize width height = .ok g' := by
  unfold TerminalGrid.resize resizeWithMainRowShift
  rw [if_neg (by omega)]
  split
  · exact ⟨_, rfl⟩
  · exact ⟨_, rfl⟩

theorem WellFormed.logicalLines_resizes (h : g.WellFormed) {sizes : List (Nat × Nat)} (hsizes : g.KeepsAll sizes) :
    ∃ g', sizes.foldlM (fun g size => g.resize size.1 size.2) g = .ok g' ∧ g'.logicalLines = g.logicalLines := by
  induction sizes generalizing g with
  | nil => exact ⟨g, rfl, rfl⟩
  | cons size sizes ih =>
    obtain ⟨hwidth, hheight, hkeeps, hretains, hrest⟩ := hsizes
    obtain ⟨g₁, hres⟩ := g.resize_ok hwidth hheight
    rw [hres] at hrest
    obtain ⟨g', hrun, htext⟩ := ih (h.resize hres) hrest
    refine ⟨g', ?_, htext.trans (h.logicalLines_resize hwidth hkeeps hretains hres)⟩
    rw [foldlM_cons, hres]
    exact hrun

end TerminalGrid

/-- Whatever a stream has seen, resizes that lose no blank and evict nothing go through and keep
the text of its grid. -/
theorem TerminalGridStream.resizes_keep_text {u : Unicode} (hu : u.NarrowSpace) {width height : Nat}
    {limits : GridLimits} {s : TerminalGridStream}
    (hnew : new width height limits = .ok s) (inputs : List Input) (sizes : List (Nat × Nat))
    (hsizes : (s.run u inputs).grid.KeepsAll sizes) :
    ∃ g', sizes.foldlM (fun g size => TerminalGrid.resize g size.1 size.2) (s.run u inputs).grid = .ok g' ∧
      g'.logicalLines = (s.run u inputs).grid.logicalLines := by
  have hstart : s.grid.WellFormed := by
    unfold new at hnew
    cases hgrid : TerminalGrid.new width height limits with
    | error e =>
      rw [hgrid] at hnew
      cases hnew
    | ok g =>
      rw [hgrid] at hnew
      cases hnew
      exact TerminalGrid.wellFormed_new hgrid
  exact (wellFormed_runFrom hu hstart inputs).logicalLines_resizes hsizes

namespace Sample

/-- "abcdefgh" on six columns, cut at four columns and put together again. -/
theorem resized_text_kept : ∃ g',
    [(4, 1), (3, 3), (8, 2)].foldlM (fun g size => TerminalGrid.resize g size.1 size.2)
        (stream (unicode (· = '界')) 6 2 [.bytes [0x61, 0x62, 0x63, 0x64, 0x65, 0x66, 0x67, 0x68]]).grid = .ok g' ∧
      g'.logicalLines = (stream (unicode (· = '界')) 6 2
        [.bytes [0x61, 0x62, 0x63, 0x64, 0x65, 0x66, 0x67, 0x68]]).grid.logicalLines :=
  resizes_keep_text (by decide) (show new 6 2 {} = .ok (stream (unicode (· = '界')) 6 2 []) from rfl)
    [.bytes [0x61, 0x62, 0x63, 0x64, 0x65, 0x66, 0x67, 0x68]] [(4, 1), (3, 3), (8, 2)] (by decide +kernel)

/-- "ab  cd" at two columns on one row: the blanks are the last cells above the screen, and
trimmed there. -/
theorem interior_blanks_lost :
    new 6 1 {} = .ok (stream (unicode (· = '界')) 6 1 []) ∧
      (stream (unicode (· = '界')) 6 1 [.bytes [0x61, 0x62, 0x20, 0x20, 0x63, 0x64]]).grid.Retains 2 1 ∧
      (stream (unicode (· = '界')) 6 1 [.bytes [0x61, 0x62, 0x20, 0x20, 0x63, 0x64]]).grid.logicalLines.map
        (·.map Cell.text) = [["a", "b", " ", " ", "c", "d"]] ∧
      ((stream (unicode (· = '界')) 6 1 [.bytes [0x61, 0x62, 0x20, 0x20, 0x63, 0x64]]).grid.resize 2 1).toOption.map
          (fun g' => g'.logicalLines.map (·.map Cell.text)) = some [["a", "b", "c", "d"]] := by
  refine ⟨rfl, ?_, ?_, ?_⟩ <;> decide +kernel

/-- A wide glyph that does not fit leaves a column, which is read back as a blank. -/
example : ((stream (unicode (· = '界')) 4 2 [.bytes [0x61, 0x62, 0xe7, 0x95, 0x8c]]).grid.resize 3 2).toOption.map
    (fun g' => g'.logicalLines.map (·.map Cell.text)) = some [["a", "b", " ", "界"]] := by
  decide +kernel

end Sample
end Bmux.Terminal
