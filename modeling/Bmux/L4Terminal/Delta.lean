import Bmux.Core.Wire
import Bmux.L4Terminal.Snapshot

/-!
# Deltas (`packages/terminal-grid/src/delta.rs`, `packages/terminal-grid/src/parser.rs`)

A producer takes a snapshot before and after a change and sends what lies between them;
a replica applies it to a snapshot of its own and hydrates the result. A delta that does
not apply is an error, and the replica then keeps the state it had: the source assigns
`*self` only behind the last check.

* `delta_carries`: a delta leads from the snapshot it starts from to that of the producer.
* `deltas_chained`: whatever arrives, those taken follow one another.
-/
namespace Bmux.Terminal
open List TerminalGrid

structure RowUpdateSnapshot where
  rowIndex : Nat
  row : RowSnapshot
  deriving DecidableEq

/-- mirrors packages/terminal-grid/src/delta.rs:23-72 -/
structure GridDeltaBatch where
  terminalState : TerminalStateSnapshot
  retainedAltRows : Option (List RowSnapshot)
  historyTruncated : Option Bool
  baseRevision : Nat
  revision : Nat
  contentRevision : Nat
  width : Nat
  height : Nat
  mode : String
  scrollbackRows : Nat
  totalScrolledRows : Option Nat
  cursor : CursorSnapshot
  savedCursor : CursorSnapshot
  savedPendingWrap : Bool
  characters : CharacterState
  savedCharacters : CharacterState
  currentStyle : Style
  autowrap : Bool
  pendingWrap : Bool
  scrollRegion : Option ScrollRegionSnapshot
  protocol : ProtocolState
  pendingBytes : List UInt8
  styles : List Style
  resetRows : Bool
  rowUpdates : List RowUpdateSnapshot
  mainRows : Option (List RowSnapshot)
  deriving DecidableEq

/-- mirrors packages/terminal-grid/src/delta.rs:353-386 -/
inductive GridDeltaApplyError where
  | invalidTerminalState (reason : String)
  | nonIncreasingRowIndex (index : Nat)
  | zeroDimensions
  | invalidCursor
  | invalidScrollRegion
  | alternateScrollback
  | invalidScreenMode
  | missingReplacementRows
  | revisionMismatch (expected actual : Nat)
  | nonAdvancingRevision (base revision : Nat)
  | regressingContentRevision (current received : Nat)
  | rowIndexOutOfBounds (index : Nat)
  | incompleteMainViewport (expected actual : Nat)
  | excessAlternateRows (expected actual : Nat)
  | incompleteViewport (expected actual : Nat)
  | invalidReplacementRowIndex (expected actual : Nat)
  deriving DecidableEq

inductive TerminalGridStreamDeltaError where
  | incompleteHistory (expectedRows reconstructedRows : Nat)
  | delta (error : GridDeltaApplyError)
  | grid (error : TerminalGridError)
  deriving DecidableEq

namespace GridDeltaBatch

variable (d : GridDeltaBatch) (before after : GridSnapshot)

/-- Whether the rows are sent as a whole, packages/terminal-grid/src/delta.rs:89-94 -/
def resets : Bool :=
  before.width ≠ after.width || before.height ≠ after.height || before.mode ≠ after.mode ||
    before.scrollbackRows ≠ after.scrollbackRows || before.totalScrolledRows ≠ after.totalScrolledRows ||
    before.rows.length ≠ after.rows.length

/-- The updates of rows, packages/terminal-grid/src/delta.rs:95-118 -/
def updates (reset : Bool) (before after : List RowSnapshot) : List RowUpdateSnapshot :=
  if reset then after.mapIdx fun index row => ⟨toU32 index, row⟩
  else ((before.zip after).mapIdx fun index pair => (index, pair)).filterMap fun (index, old, new) =>
    if old ≠ new then some ⟨toU32 index, new⟩ else none

/-- The delta itself, packages/terminal-grid/src/delta.rs:119-148 -/
def diff : GridDeltaBatch where
  terminalState := after.terminalState
  retainedAltRows := after.retainedAltRows
  historyTruncated := after.historyTruncated
  baseRevision := before.revision
  revision := after.revision
  contentRevision := after.contentRevision
  width := after.width
  height := after.height
  mode := after.mode
  scrollbackRows := after.scrollbackRows
  totalScrolledRows := after.totalScrolledRows
  cursor := after.cursor
  savedCursor := after.savedCursor
  savedPendingWrap := after.savedPendingWrap
  characters := after.characters
  savedCharacters := after.savedCharacters
  currentStyle := after.currentStyle
  autowrap := after.autowrap
  pendingWrap := after.pendingWrap
  scrollRegion := after.scrollRegion
  protocol := after.protocol
  pendingBytes := after.pendingBytes
  styles := after.styles
  resetRows := resets before after
  rowUpdates := updates (resets before after) before.rows after.rows
  mainRows := if before.mainRows ≠ after.mainRows then after.mainRows else none

def between : Option GridDeltaBatch :=
  if after.revision ≤ before.revision ∨ after.contentRevision < before.contentRevision ∨
      (after.mode = "alternate" ∧ after.scrollbackRows ≠ 0) ∨ after.width = 0 ∨ after.height = 0 ∨
      ¬ (after.mode = "main" ∨ after.mode = "alternate") ∨ after.cursor.row ≥ after.height ∨
        after.cursor.col ≥ after.width then none
  else some (diff before after)

def validateRevisions (revision contentRevision : Nat) : Except GridDeltaApplyError Unit :=
  if revision ≠ d.baseRevision then .error (.revisionMismatch d.baseRevision revision)
  else if d.revision ≤ d.baseRevision then .error (.nonAdvancingRevision d.baseRevision d.revision)
  else if d.contentRevision < contentRevision then .error (.regressingContentRevision contentRevision d.contentRevision)
  else .ok ()

/-- mirrors packages/terminal-grid/src/delta.rs:179-221 -/
def validateGeometry (u : Unicode) (d : GridDeltaBatch) : Except GridDeltaApplyError Unit := do
  (d.terminalState.validate d.width).mapError .invalidTerminalState
  (validateRetainedAlternate u d.retainedAltRows d.mode d.width d.height d.styles.length).mapError .invalidTerminalState
  if d.width = 0 ∨ d.height = 0 then throw .zeroDimensions
  if ¬ (d.mode = "main" ∨ d.mode = "alternate") then throw .invalidScreenMode
  if d.mode = "alternate" ∧ d.scrollbackRows ≠ 0 then throw .alternateScrollback
  if d.cursor.row ≥ d.height ∨ d.cursor.col ≥ d.width then throw .invalidCursor
  if d.scrollRegion.any fun region => decide (region.top ≥ region.bottom ∨ region.bottom ≥ d.height) then
    throw .invalidScrollRegion
  match d.mainRows with
  | some rows => if d.mode = "alternate" ∧ rows.length < d.height then
      throw (.incompleteMainViewport d.height rows.length)
  | none => pure ()

def checkIndexes (expected : Nat) : List RowUpdateSnapshot → Except GridDeltaApplyError Unit
  | [] => .ok ()
  | update :: updates =>
    if update.rowIndex ≠ expected then .error (.invalidReplacementRowIndex expected update.rowIndex)
    else checkIndexes (expected + 1) updates

def validateReplacementIndexes : Except GridDeltaApplyError Unit :=
  if d.resetRows then
    if d.rowUpdates.length < d.height then .error (.incompleteViewport d.height d.rowUpdates.length)
    else if d.mode = "alternate" ∧ d.rowUpdates.length > d.height then
      .error (.excessAlternateRows d.height d.rowUpdates.length)
    else checkIndexes 0 d.rowUpdates
  else .ok ()

def checkSparse (rowCount : Nat) (previous : Option Nat) : List RowUpdateSnapshot → Except GridDeltaApplyError Unit
  | [] => .ok ()
  | update :: updates =>
    if update.rowIndex ≥ rowCount then .error (.rowIndexOutOfBounds update.rowIndex)
    else if previous.any fun index => decide (index ≥ update.rowIndex) then
      .error (.nonIncreasingRowIndex update.rowIndex)
    else checkSparse rowCount (some update.rowIndex) updates

def validateSparseIndexes (rowCount : Nat) : Except GridDeltaApplyError Unit :=
  if d.resetRows then .ok () else checkSparse rowCount none d.rowUpdates

/-- Everything but the rows taken over from the delta, packages/terminal-grid/src/delta.rs:315-343 -/
def overwrite (s : GridSnapshot) (rows : List RowSnapshot) : GridSnapshot :=
  { rows
    mainRows := if d.mode ≠ "alternate" then none else (d.mainRows.or s.mainRows)
    terminalState := d.terminalState
    retainedAltRows := d.retainedAltRows
    revision := d.revision
    contentRevision := d.contentRevision
    width := d.width
    height := d.height
    mode := d.mode
    scrollbackRows := d.scrollbackRows
    historyTruncated := d.historyTruncated
    totalScrolledRows := d.totalScrolledRows
    cursor := d.cursor
    savedCursor := d.savedCursor
    savedPendingWrap := d.savedPendingWrap
    characters := d.characters
    savedCharacters := d.savedCharacters
    currentStyle := d.currentStyle
    autowrap := d.autowrap
    pendingWrap := d.pendingWrap
    scrollRegion := d.scrollRegion
    protocol := d.protocol
    pendingBytes := d.pendingBytes
    styles := d.styles }

def patch (rows : List RowSnapshot) (updates : List RowUpdateSnapshot) : List RowSnapshot :=
  updates.foldl (fun rows update => rows.set update.rowIndex update.row) rows

/-- mirrors packages/terminal-grid/src/delta.rs:282-345 -/
def applyToSnapshot (u : Unicode) (d : GridDeltaBatch) (s : GridSnapshot) :
    Except GridDeltaApplyError GridSnapshot := do
  d.validateRevisions s.revision s.contentRevision
  d.validateGeometry u
  if d.resetRows = false ∧ (d.width ≠ s.width ∨ d.height ≠ s.height ∨ d.scrollbackRows ≠ s.scrollbackRows ∨
      (d.totalScrolledRows.isSome ∧ s.totalScrolledRows ≠ d.totalScrolledRows) ∨ d.mode ≠ s.mode) then
    throw .missingReplacementRows
  if d.resetRows then
    d.validateReplacementIndexes
    return d.overwrite s (d.rowUpdates.map RowUpdateSnapshot.row)
  else
    d.validateSparseIndexes s.rows.length
    return d.overwrite s (patch s.rows d.rowUpdates)

end GridDeltaBatch

namespace TerminalGridStream

def completeLines (height : Nat) (rows : List RowSnapshot) : Nat :=
    ((rows.take (rows.length - height)).filter fun row => !row.wrapped).length

/-- The lines that a delta asks a replica to retain, packages/terminal-grid/src/parser.rs:186-216 -/
def retainedLines (s : TerminalGridStream) (d : GridDeltaBatch) : Nat :=
  if d.mode = "alternate" then
    match d.mainRows with
    | none => if s.grid.mode = .alternate then s.grid.history.lines.length else 0
    | some rows => completeLines d.height rows
  else if d.resetRows then completeLines d.height (d.rowUpdates.map RowUpdateSnapshot.row)
  else s.grid.history.lines.length

section
variable (u : Unicode)

section
variable (s : TerminalGridStream)

section
variable (d : GridDeltaBatch)

variable (limits : GridLimits)

/-- mirrors packages/terminal-grid/src/parser.rs:163-236 -/
def validateDeltaBeforeCapture : Except TerminalGridStreamDeltaError Unit := do
  (d.validateRevisions s.grid.revision s.grid.contentRevision).mapError .delta
  (d.validateGeometry u).mapError .delta
  d.validateReplacementIndexes.mapError .delta
  if d.resetRows = false ∧ (d.width ≠ s.grid.width ∨ d.height ≠ s.grid.height ∨
    d.scrollbackRows ≠ s.grid.scrollbackRowsHint ∨
      d.totalScrolledRows.any (fun position => decide (position ≠ s.grid.totalScrolledRows)) ∨
      decide (d.mode = "alternate") ≠ decide (s.grid.mode = .alternate)) then
    throw (.delta .missingReplacementRows)
  (d.validateSparseIndexes s.grid.height).mapError .delta
  if s.retainedLines d > limits.scrollbackRows then
    throw (.incompleteHistory (toU32 (s.retainedLines d)) limits.scrollbackRows)
  if d.resetRows ∧ d.mode = "main" ∧ d.rowUpdates.length - d.height ≠ d.scrollbackRows then
    throw (.incompleteHistory d.scrollbackRows (d.rowUpdates.length - d.height))

def preservesHistory : Bool :=
  d.resetRows = false && d.mode = "main" && s.grid.mode = .main && s.grid.scrollbackRowsHint > 0

/-- The snapshot that a delta is applied to, packages/terminal-grid/src/parser.rs:245-258 -/
def capture : GridSnapshot :=
  s.snapshot 0 (if s.preservesHistory d ∨ (d.mode = "alternate" ∧ d.mainRows = none ∧ s.grid.mode = .alternate)
    then s.grid.mainRowCount else s.grid.height)

/-- The snapshot behind a delta, packages/terminal-grid/src/parser.rs:261-273 -/
def patched : Except GridDeltaApplyError GridSnapshot :=
  let captured := s.capture d
  if s.preservesHistory d then
    let start := captured.rows.length - s.grid.height
    (d.applyToSnapshot u { captured with rows := captured.rows.drop start }).map fun applied =>
      { applied with rows := captured.rows.take start ++ applied.rows }
  else d.applyToSnapshot u captured

/-- mirrors packages/terminal-grid/src/parser.rs:238-315 -/
def applyValidatedDelta : Except TerminalGridStreamDeltaError TerminalGridStream := do
  let snapshot ← (s.patched u d).mapError .delta
  let supplied := snapshot.rows.length - snapshot.height
  if snapshot.mode = "main" ∧ supplied < snapshot.scrollbackRows then
    throw (.incompleteHistory snapshot.scrollbackRows supplied)
  let replacement ← (fromSnapshot u snapshot limits).mapError .grid
  match snapshot.mainRows with
  | some rows =>
    if snapshot.mode = "alternate" ∧ replacement.grid.mainRowCount ≠ rows.length then
      throw (.incompleteHistory (toU32 (rows.length - snapshot.height))
        (replacement.grid.mainRowCount - snapshot.height))
  | none => pure ()
  if replacement.grid.scrollbackRowsHint ≠ snapshot.scrollbackRows then
    throw (.incompleteHistory snapshot.scrollbackRows replacement.grid.scrollbackRowsHint)
  return replacement

def applyDelta : Except TerminalGridStreamDeltaError TerminalGridStream := do
  s.validateDeltaBeforeCapture u d limits
  s.applyValidatedDelta u d limits

end

end

def replacesHistory (before : GridSnapshot) (s : TerminalGridStream) : Bool :=
  s.grid.mode = .main && (before.mode ≠ "main" || before.scrollbackRows ≠ s.grid.scrollbackRowsHint ||
    before.totalScrolledRows ≠ some s.grid.totalScrolledRows)

def processDelta (s : TerminalGridStream) (bytes : List UInt8) : Option GridDeltaBatch × TerminalGridStream :=
  if bytes = [] then (none, s)
  else
    let before := s.snapshot 0 (if s.grid.mode = .alternate then s.grid.mainRowCount else s.grid.height)
    let s := s.process u bytes
    if s.grid.revision = before.revision then (none, s)
    else
      let after := s.snapshot 0 (if replacesHistory before s ∨ s.grid.mode = .alternate then s.grid.mainRowCount
        else s.grid.height)
      (GridDeltaBatch.between before after, s)

end

def resizeDelta (s : TerminalGridStream) (width height : Nat) :
    Except TerminalGridError (Option GridDeltaBatch × TerminalGridStream) :=
  if width = 0 ∨ height = 0 then .error .zeroDimensions
  else if s.grid.width = width ∧ s.grid.height = height then .ok (none, s)
  else
    let before := s.snapshot 0 s.grid.height
    (s.resize width height).map fun s => (GridDeltaBatch.between before (s.snapshot 0 s.grid.mainRowCount), s)

end TerminalGridStream

/-- What a snapshot that covers the screen has. -/
structure GridSnapshot.Complete (s : GridSnapshot) : Prop where
  main : s.mainRows.isSome ↔ s.mode = "alternate"
  rows : s.height ≤ s.rows.length
  alternate : s.mode = "alternate" → s.rows.length = s.height
  fits : s.rows.length ≤ 2 ^ 32

namespace GridDeltaBatch

/-! ## What an applied delta leaves -/

theorem validateRevisions_eq_ok {d : GridDeltaBatch} {revision contentRevision : Nat} :
    d.validateRevisions revision contentRevision = .ok () ↔
      revision = d.baseRevision ∧ d.baseRevision < d.revision ∧ contentRevision ≤ d.contentRevision := by
  unfold validateRevisions
  split
  · simp_all
  · split
    · simp_all
    · split
      · simp only [reduceCtorEq, false_iff]
        omega
      · simp only [true_iff]
        omega

theorem applyToSnapshot_ok {u : Unicode} {d : GridDeltaBatch} {s s' : GridSnapshot}
    (h : d.applyToSnapshot u s = .ok s') :
    ∃ rows, s' = d.overwrite s rows := by
  obtain ⟨_, _, h⟩ := bind_eq_ok.mp h
  obtain ⟨_, _, h⟩ := bind_eq_ok.mp h
  dsimp only at h
  split at h
  · cases h
  · split at h
    · obtain ⟨_, _, h⟩ := bind_eq_ok.mp h
      exact ⟨_, (Except.ok.inj h).symm⟩
    · obtain ⟨_, _, h⟩ := bind_eq_ok.mp h
      exact ⟨_, (Except.ok.inj h).symm⟩

/-! ## Deltas between snapshots -/

variable {before after : GridSnapshot}

theorem toU32_of_lt {n : Nat} (h : n < 2 ^ 32) : toU32 n = n := by unfold toU32; omega

theorem checkIndexes_whole {rows : List RowSnapshot} {n : Nat} (h : n + rows.length ≤ 2 ^ 32) :
    checkIndexes n (rows.mapIdx fun i row => ⟨toU32 (n + i), row⟩) = .ok () := by
  induction rows generalizing n with
  | nil => rfl
  | cons row rows ih =>
    rw [length_cons] at h
    have hnext := ih (n := n + 1) (by omega)
    rw [mapIdx_cons, checkIndexes, toU32_of_lt (by omega), if_neg (by simp)]
    simpa only [Nat.add_right_comm, Nat.add_assoc] using hnext

/-- The rows that differ, put in at their indexes. Those in front of them are `done`. -/
theorem updates_sparse {before after : List RowSnapshot} (done : List RowSnapshot) (previous : Option Nat)
    (hlen : before.length = after.length)
    (hfit : done.length + after.length ≤ 2 ^ 32) (hprevious : ∀ i ∈ previous, i < done.length) :
    let sent := ((before.zip after).mapIdx fun i pair => (done.length + i, pair)).filterMap fun (index, old, new) =>
      if old ≠ new then some (⟨toU32 index, new⟩ : RowUpdateSnapshot) else none
    checkSparse (done ++ before).length previous sent = .ok () ∧ patch (done ++ before) sent = done ++ after := by
  induction before generalizing after done previous with
  | nil =>
    rw [length_eq_zero_iff.mp hlen.symm]
    exact ⟨rfl, rfl⟩
  | cons old before ih =>
    obtain ⟨new, after, rfl⟩ := exists_cons_of_length_eq_add_one hlen.symm
    rw [length_cons] at hfit
    have hnext (previous : Option Nat) := ih (done ++ [new]) previous (Nat.succ.inj hlen) (by simp; omega)
    simp only [length_append, length_cons, length_nil, append_assoc, singleton_append, Nat.add_assoc, Nat.zero_add,
      Nat.add_comm 1] at hnext
    simp only [zip_cons_cons, mapIdx_cons, filterMap_cons, Nat.add_zero]
    by_cases heq : old = new
    · subst heq
      simpa using hnext previous fun i hi => (hprevious i hi).trans (by omega)
    · rw [if_pos heq]
      obtain ⟨hcheck, hpatch⟩ := hnext (some done.length) (by simp)
      have hseen : (previous.any fun i => decide (i ≥ done.length)) = false := by
        cases previous <;> simp_all
      simp only [checkSparse, patch, foldl_cons, toU32_of_lt (show done.length < 2 ^ 32 by omega), hseen]
      exact ⟨by simpa using hcheck, by simpa [patch] using hpatch⟩

theorem overwrite_diff (before : GridSnapshot) (h : after.Complete) :
    (diff before after).overwrite before after.rows = after := by
  have hmain : ((diff before after).overwrite before after.rows).mainRows = after.mainRows := by
    have hmode := h.main
    cases hrows : after.mainRows <;> grind [overwrite, diff]
  exact congrArg (fun rows => { after with mainRows := rows }) hmain

/-- The delta between two snapshots takes the first to the second. -/
theorem applyToSnapshot_between {u : Unicode} {d : GridDeltaBatch} (hd : between before after = some d)
    (hgeometry : d.validateGeometry u = .ok ()) (h : after.Complete) : d.applyToSnapshot u before = .ok after := by
  unfold between at hd
  split at hd
  · cases hd
  · cases hd
    have hrevisions : (diff before after).validateRevisions before.revision before.contentRevision = .ok () :=
      validateRevisions_eq_ok.mpr ⟨rfl, by simp_all [diff], by simp_all [diff]⟩
    have hover := overwrite_diff before h
    unfold applyToSnapshot
    rw [hrevisions, hgeometry]
    cases hreset : resets before after with
    | true =>
      have hindexes : (diff before after).validateReplacementIndexes = .ok () := by
        have hwhole := checkIndexes_whole (n := 0) (by simpa using h.fits)
        simp only [validateReplacementIndexes, diff, hreset, updates, if_true, length_mapIdx]
        grind [h.rows, h.alternate]
      have hrows : (diff before after).rowUpdates.map RowUpdateSnapshot.row = after.rows := by
        simp [diff, hreset, updates, mapIdx_eq_zipIdx_map, Function.comp_def]
      have hresetRows : (diff before after).resetRows = true := hreset
      simp [hresetRows, hindexes, hrows, hover, bind, Except.bind, pure, Except.pure]
    | false =>
      have hresetRows : (diff before after).resetRows = false := hreset
      have hsent : (diff before after).rowUpdates = updates false before.rows after.rows := by simp [diff, hreset]
      simp only [resets, ne_eq, decide_not, Bool.or_eq_false_iff, Bool.not_eq_false', decide_eq_true_eq] at hreset
      obtain ⟨hcheck, hpatch⟩ := updates_sparse [] none hreset.2 (by simpa using h.fits) (by simp)
      simp only [length_nil, Nat.zero_add, nil_append] at hcheck hpatch
      have hvalid : (diff before after).validateSparseIndexes before.rows.length = .ok () := by
        rw [validateSparseIndexes, hresetRows, hsent]
        exact hcheck
      have hpatched : patch before.rows (diff before after).rowUpdates = after.rows := hsent ▸ hpatch
      rw [if_neg (by simp [diff, hreset])]
      simp [hresetRows, hvalid, hpatched, hover, bind, Except.bind, pure, Except.pure]

end GridDeltaBatch

/-! ## Deltas of a producer -/

theorem length_selectLive {rows : Nat} {selected l : List PhysicalRow} (h : selected.length + l.length ≤ rows) :
    (selectLive rows 0 selected l).2.length = selected.length + l.length := by
  induction l generalizing selected with
  | nil => rfl
  | cons row l ih => grind [selectLive]

theorem length_le_selectLines (width rows skip : Nat) (selected : List PhysicalRow)
    (lines : List (LogicalLine × Bool)) :
    selected.length ≤ (selectLines width rows skip selected lines).length := by
  fun_induction selectLines <;> grind

/-- The snapshots of a well-formed grid cover the screen. -/
theorem snapshot_complete {s : TerminalGridStream} {n : Nat} (h : s.grid.WellFormed) (hheight : s.grid.height ≤ 65535)
    (hfits : (s.snapshot 0 n).rows.length ≤ 2 ^ 32) : (s.snapshot 0 n).Complete := by
  have hcovers : s.grid.height ≤ if n = 2 ^ 64 - 1 then s.grid.height else max n s.grid.height := by split_ifs <;> omega
  have hmain := h.main.length
  have halt := h.alternate.length
  unfold TerminalGridStream.snapshot TerminalGrid.snapshot at hfits ⊢
  generalize (if n = 2 ^ 64 - 1 then s.grid.height else max n s.grid.height) = rows at hcovers hfits ⊢
  have hlive := length_le_selectLines s.grid.width rows (selectLive rows 0 [] s.grid.mainRows.reverse).1
    (selectLive rows 0 [] s.grid.mainRows.reverse).2 s.grid.linesAbove
  rw [length_selectLive (by simp; omega)] at hlive
  cases hmode : s.grid.mode <;> constructor <;> simp_all [toU16, TerminalGrid.displayRows]

/-- **A delta carries a snapshot over.** Whatever snapshot a producer starts from, if the receiver
accepts the geometry of the delta, applying it to that snapshot gives the one of the producer. -/
theorem delta_carries {u : Unicode} {d : GridDeltaBatch} {before : GridSnapshot} {s : TerminalGridStream} {n : Nat}
    (h : s.grid.WellFormed) (hheight : s.grid.height ≤ 65535) (hfits : (s.snapshot 0 n).rows.length ≤ 2 ^ 32)
    (hd : GridDeltaBatch.between before (s.snapshot 0 n) = some d) (hgeometry : d.validateGeometry u = .ok ()) :
    d.applyToSnapshot u before = .ok (s.snapshot 0 n) :=
  GridDeltaBatch.applyToSnapshot_between hd hgeometry (snapshot_complete h hheight hfits)

namespace Sample

/-- "a" is printed on an empty screen. -/
theorem printed_carried : let before := (stream (unicode (· = '界')) 2 1 []).snapshot 0 1
    let s := stream (unicode (· = '界')) 2 1 [.bytes [0x61]]
    ∃ d, GridDeltaBatch.between before (s.snapshot 0 1) = some d ∧ d.applyToSnapshot (unicode (· = '界')) before =
      .ok (s.snapshot 0 1) := by
  have hnew : new 2 1 {} = .ok (stream (unicode (· = '界')) 2 1 []).grid := rfl
  have hwell := TerminalGridStream.wellFormed_runFrom (u := unicode (· =
    '界')) (by decide) (wellFormed_new hnew) [.bytes [0x61]]
  exact ⟨_, rfl, delta_carries hwell (by decide +kernel) (by decide +kernel) rfl (by decide +kernel)⟩

end Sample

namespace TerminalGridStream
variable {u : Unicode} {d : GridDeltaBatch} {s s' : TerminalGridStream} {limits : GridLimits}

theorem patched_ok {snapshot : GridSnapshot} (h : s.patched u d = .ok snapshot) : snapshot.revision = d.revision := by
  unfold patched at h
  dsimp only at h
  split at h
  · cases happlied : d.applyToSnapshot u { s.capture d with
      rows := (s.capture d).rows.drop ((s.capture d).rows.length - s.grid.height) } with
    | error e =>
      rw [happlied] at h
      cases h
    | ok applied =>
      obtain ⟨rows, hrows⟩ := GridDeltaBatch.applyToSnapshot_ok happlied
      rw [happlied, hrows] at h
      cases h
      rfl
  · obtain ⟨rows, hrows⟩ := GridDeltaBatch.applyToSnapshot_ok h
    rw [hrows]
    rfl

theorem fromSnapshot_revision {snapshot : GridSnapshot} (h : fromSnapshot u snapshot limits = .ok s) :
    s.grid.revision = snapshot.revision := by
  unfold fromSnapshot TerminalGrid.fromSnapshot at h
  split at h
  · cases h
  · split at h
    · cases h
    · split at h
      · cases h
      · cases h
        rfl

/-- A delta that is applied had the revision of the replica as its base, and leads to a later one. -/
theorem applyDelta_ok (h : s.applyDelta u d limits = .ok s') :
    d.baseRevision = s.grid.revision ∧ d.baseRevision < d.revision ∧ s'.grid.revision = d.revision := by
  obtain ⟨_, hvalid, happly⟩ := bind_eq_ok.mp h
  obtain ⟨_, hrevisions, _⟩ := bind_eq_ok.mp hvalid
  obtain ⟨hbase, hlater, _⟩ := GridDeltaBatch.validateRevisions_eq_ok.mp (mapError_eq_ok.mp hrevisions)
  refine ⟨hbase.symm, hlater, ?_⟩
  obtain ⟨snapshot, hpatched, happly⟩ := bind_eq_ok.mp happly
  dsimp only at happly
  split at happly
  · cases happly
  · obtain ⟨replacement, hfrom, happly⟩ := bind_eq_ok.mp happly
    have hrevision := (fromSnapshot_revision (mapError_eq_ok.mp hfrom)).trans (patched_ok (mapError_eq_ok.mp hpatched))
    have hreturned : replacement = s' := by
      repeat' split at happly
      all_goals first
        | cases happly; rfl
        | cases happly
    exact hreturned ▸ hrevision

/-- The deltas taken of those that arrive, and the replica behind them: an error leaves it as it was. -/
def takeDeltas (u : Unicode) (limits : GridLimits) (s : TerminalGridStream) :
    List GridDeltaBatch → List GridDeltaBatch × TerminalGridStream
  | [] => ([], s)
  | d :: ds =>
    match s.applyDelta u d limits with
    | .ok s' => (d :: (takeDeltas u limits s' ds).1, (takeDeltas u limits s' ds).2)
    | .error _ => takeDeltas u limits s ds

/-- Whatever arrives in whatever order, the deltas taken are a chain from the revision of the
replica to the one it ends at. Revisions go up along it, so none is taken twice. -/
theorem deltas_chained (u : Unicode) (limits : GridLimits) (s : TerminalGridStream) (arriving : List GridDeltaBatch) :
    let taken := takeDeltas u limits s arriving
    taken.1.Sublist arriving ∧
    taken.1.map (·.baseRevision) ++ [taken.2.grid.revision] = s.grid.revision :: taken.1.map (·.revision) ∧
    (s.grid.revision :: taken.1.map (·.revision)).IsChain (· < ·) := by
  induction arriving generalizing s with
  | nil => simp [takeDeltas]
  | cons d ds ih =>
    rw [takeDeltas]
    split
    · rename_i s' happly
      obtain ⟨hsub, hchain, hup⟩ := ih s'
      obtain ⟨hbase, hlt, hrevision⟩ := applyDelta_ok happly
      rw [hrevision] at hchain hup
      exact ⟨hsub.cons_cons d, by simp [hchain, hbase], hup.cons_cons (hbase ▸ hlt)⟩
    · exact ⟨(ih s).1.cons d, (ih s).2⟩

end TerminalGridStream
end Bmux.Terminal
