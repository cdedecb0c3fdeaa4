import Bmux.L5Interface.TextBuffer

/-!
# Undo and redo (`packages/text-edit/src/history.rs`)

Every edit goes through `recordEdit`, which either extends the newest step or starts another,
within two budgets.

* `Change`, `Recorded`: what an operation can do to the text and the steps.
* `Sound`: the steps that can be undone are a chain of texts up to the current one, the steps
  that can be redone a chain from it on, and each step is a run of edits that were made, one
  behind the other, between the states it has recorded. Every change keeps it
  (`Sound.change`).
* `Sound.redo_undo_iterate`: so going back any number of steps and forward again gives the text.
* `undo_redo_correct`: all of it for every buffer that operations reach.
* `WithinBudget`: the two budgets, which `prepare` makes room in for a step that is not over them
  by itself (`within_prepare`). An edit that is merged can make a step that is (`oversteps`), and is
  the only one that exceeds the budget (`history_budget`).
-/
namespace Bmux.TextEdit
open List EditHistory Option TextEditBuffer Prod

def MAX_HISTORY_ENTRIES : Nat := 128

def MAX_HISTORY_BYTES : Nat := 1048576

def Transaction.bytes (t : Transaction) : Nat := len t.before.state.text + len t.after.state.text

def inserted (before after : TextEditState) : List Char :=
  let added := len after.text - len before.text
  (cutRange after.text before.cursor (before.cursor + added)).elim [] fun cut => cut.2.1

/-- mirrors packages/text-edit/src/history.rs:450-455. The cursor of a state that an edit has
begun at is at a character, or the edit would not have ended. -/
def startsWord (e : Tables) (before after : TextEditState) : Bool :=
  let isWord (ch : Char) : Bool := e.isAlphanumeric ch || ch = '_'
  let first := (inserted before after).head?
  let previous := (splitAt before.text before.cursor).bind (·.1.getLast?)
  first.any isWord && !previous.any isWord

namespace EditHistory

/-- mirrors packages/text-edit/src/history.rs:183-216 -/
def continues (e : Tables) (h : EditHistory) (kind : EditKind) (before after : RetainedState) (now : Nat) : Bool :=
  match h.openGroup with
  | none => false
  | some group =>
    if h.policy.grouping = .keystroke ∨ kind = .other ∨ kind ≠ group.kind ∨ h.redo ≠ [] ∨
      now - group.last > h.policy.pause ∨
        h.undo.getLast?.all (fun last => last.after.state ≠ before.state) then false
    else if kind ≠ .insert then decide (now - group.started ≤ h.policy.maxRun)
    else match h.policy.grouping with
      | .word => !startsWord e before.state after.state
      | .smart => !startsWord e before.state after.state || decide (now - group.started ≤ h.policy.maxRun)
      | .keystroke => false

def pruneLoop (bytes : Nat) : List Transaction → List Transaction
  | [] => []
  | t :: steps =>
    if (t :: steps).length ≥ MAX_HISTORY_ENTRIES ∨
      ((t :: steps).map Transaction.bytes).sum > MAX_HISTORY_BYTES - bytes then pruneLoop bytes steps
    else t :: steps

def prepare (h : EditHistory) (bytes : Nat) : EditHistory :=
  { h with redo := [], undo := if bytes > MAX_HISTORY_BYTES then [] else pruneLoop bytes h.undo }

end EditHistory

namespace TextEditBuffer

variable (e : Tables) (clock : Nat) (value : List Char) (b : TextEditBuffer)

def editState : TextEditState := ⟨b.text, b.cursor, b.selectionAnchor⟩

def retainedState : RetainedState := ⟨b.editState, b.desiredVisualCol⟩

def restoreState (retained : RetainedState) : TextEditBuffer :=
  { b with
    text := retained.state.text
    cursor := retained.state.cursor
    selectionAnchor := retained.state.selectionAnchor
    desiredVisualCol := retained.desiredVisualCol }

def clearHistory : TextEditBuffer := { b with history := { policy := b.history.policy } }

/-- The edit kept as a step of its own or as part of the newest one,
packages/text-edit/src/history.rs:284-313 -/
def retainStep (kind : EditKind) (before : RetainedState) (replaced : Bool) (now : Nat) (b : TextEditBuffer) :
    TextEditBuffer :=
  let after := b.retainedState
  let merge := !replaced && b.history.continues e kind before after now
  let before := if merge then b.history.undo.getLast?.elim before Transaction.before else before
  let undo := if merge then b.history.undo.dropLast else b.history.undo
  let prepared := { b.history with undo }.prepare (len before.state.text + len after.state.text)
  let endsLine : Bool := decide (kind = .insert) && decide (len after.state.text > len before.state.text) &&
    (inserted before.state after.state).contains '\n'
  let openGroup := match kind, b.history.openGroup with
    | .other, _ => none
    | kind, group =>
      if endsLine then none
      else match group with
        | some group => if merge then some { group with last := now } else some ⟨kind, now, now⟩
        | none => some ⟨kind, now, now⟩
  { b with history := { prepared with openGroup, undo := prepared.undo ++ [⟨before, after⟩] } }

def replaces : Bool := b.selectionAnchor.any fun anchor => decide (anchor ≠ b.cursor)

/-- mirrors packages/text-edit/src/history.rs:259-315; `clock` is the time that nobody set -/
def recordEdit {α : Type} (e : Tables) (clock : Nat) (kind : EditKind)
    (edit : TextEditBuffer → Option (α × TextEditBuffer))
    (b : TextEditBuffer) : Option (α × TextEditBuffer) :=
  let now := b.history.inputTime.getD clock
  let b := { b with history := { b.history with inputTime := none } }
  let before := b.retainedState
  let replaced := b.replaces
  let kind := match kind with
    | .deleteBackward | .deleteForward => if replaced then .other else kind
    | kind => kind
  (edit b).map fun (result, b) =>
    (result,
      if b.text = before.state.text then b.restoreState before
      else if len before.state.text + len b.text > MAX_HISTORY_BYTES then b.clearHistory
      else b.retainStep e kind before replaced now)

/-! ## The recorded edits -/

def recordUnit (kind : EditKind) (edit : TextEditBuffer → Option TextEditBuffer) (b : TextEditBuffer) :
    Option TextEditBuffer :=
  (b.recordEdit e clock kind fun b => (edit b).map ((), ·)).map snd

def clear : Option TextEditBuffer := b.recordUnit e clock .other (some ·.clearUnrecorded)

def insertChar (ch : Char) (b : TextEditBuffer) : Option TextEditBuffer :=
  b.recordUnit e clock .insert (insertCharUnrecorded ch)

def insertStr : Option TextEditBuffer :=
  b.recordUnit e clock .insert (insertStrUnrecorded value)

def paste : Option TextEditBuffer :=
  b.recordUnit e clock .other (pasteUnrecorded value)

def deleteBackward : Option TextEditBuffer :=
  b.recordUnit e clock .deleteBackward (deleteBackwardUnrecorded e)

def deleteForward : Option TextEditBuffer :=
  b.recordUnit e clock .deleteForward (deleteForwardUnrecorded e)

def deleteSelection : Option (Bool × TextEditBuffer) :=
  b.recordEdit e clock .other deleteSelectionUnrecorded

def cutSelection : Option (Option (List Char) × TextEditBuffer) :=
  match b.selection with
  | none => some (none, b)
  | some (start, stop) => do
    let (_, selected, _) ← cutRange b.text start stop
    let (_, b) ← b.deleteSelection e clock
    return (some selected, b)

def delete (kind : TextDelete) (b : TextEditBuffer) : Option TextEditBuffer :=
  b.recordUnit e clock .other (deleteUnrecorded e kind)

inductive TextEditTransactionError where
  | stale | invalidRange | invalidPosition
  deriving DecidableEq, Repr

/-- A position that a replacement may leave, packages/text-edit/src/history.rs:369-376 -/
def validPosition (text : List Char) (position : Nat) : Bool :=
  decide (position ≤ len text) && isCharBoundary text position &&
    (decide (position = len text) || (graphemeIndices e text).any (·.1 = position))

/-- mirrors packages/text-edit/src/history.rs:351-392 -/
def replaceByteRange (expected : TextEditState) (start stop : Nat) (replacement : List Char) (cursor : Nat)
    (selectionAnchor : Option Nat) (b : TextEditBuffer) :
      Option (Except TextEditTransactionError Bool × TextEditBuffer) :=
  if expected ≠ b.editState then some (.error .stale, b)
  else match cutRange b.text start stop with
    | none => some (.error .invalidRange, b)
    | some (front, _, back) =>
      let text := front ++ replacement ++ back
      if !validPosition e text cursor || selectionAnchor.any (fun anchor => !validPosition e text anchor) then
        some (.error .invalidPosition, b)
      else if text = b.text then some (.ok false, b)
      else (b.recordUnit e clock .other fun b =>
        some { b with text, cursor, selectionAnchor, desiredVisualCol := none }).map (.ok true, ·)

/-! ## Undo, redo and the settings of the history -/

def undo : Bool × TextEditBuffer :=
  match b.history.undo.getLast? with
  | none => (false, b)
  | some t =>
    (true, { b.restoreState t.before with
      history := { b.history with undo := b.history.undo.dropLast, redo := b.history.redo ++ [t], openGroup := none } })

def redo : Bool × TextEditBuffer :=
  match b.history.redo.getLast? with
  | none => (false, b)
  | some t =>
    (true, { b.restoreState t.after with
      history := { b.history with redo := b.history.redo.dropLast, undo := b.history.undo ++ [t], openGroup := none } })

def setUndoPolicy (policy : UndoPolicy) (b : TextEditBuffer) : TextEditBuffer :=
  { b with history := { b.history with policy, openGroup := none } }

def breakUndoGroup : TextEditBuffer := { b with history := { b.history with openGroup := none } }

def setInputTime (now : Nat) (b : TextEditBuffer) : TextEditBuffer :=
    { b with history := { b.history with inputTime := some now } }

/-! ## Operations -/

inductive Op where
  | insertChar (ch : Char)
  | insertStr (value : List Char)
  | paste (value : List Char)
  | deleteBackward
  | deleteForward
  | deleteSelection
  | cutSelection
  | delete (kind : TextDelete)
  | clear
  | replaceByteRange (expected : TextEditState) (start stop : Nat) (replacement : List Char) (cursor : Nat)
      (selectionAnchor : Option Nat)
  | moveCursor (motion : TextMotion) (mode : SelectionMode)
  | moveCursorInLayout (layout : LayoutView) (mode : SelectionMode)
  | selectAll
  | clearSelection
  | resetPreferredVisualColumn
  | setWordBoundaryPolicy (policy : WordBoundaryPolicy)
  | undo
  | redo
  | setUndoPolicy (policy : UndoPolicy)
  | breakUndoGroup
  | setInputTime (now : Nat)
  | clearHistory

def Op.isEdit : Op → Bool
  | .insertChar _ | .insertStr _ | .paste _ | .deleteBackward | .deleteForward | .deleteSelection | .cutSelection
  | .delete _ | .clear | .replaceByteRange .. => true
  | _ => false

/-- One operation at some time; `none` where the source panics. -/
def step : Op → Option TextEditBuffer
  | .insertChar ch => b.insertChar e clock ch
  | .insertStr value => b.insertStr e clock value
  | .paste value => b.paste e clock value
  | .deleteBackward => b.deleteBackward e clock
  | .deleteForward => b.deleteForward e clock
  | .deleteSelection => (b.deleteSelection e clock).map snd
  | .cutSelection => (b.cutSelection e clock).map snd
  | .delete kind => b.delete e clock kind
  | .clear => b.clear e clock
  | .replaceByteRange expected start stop replacement cursor selectionAnchor =>
    (b.replaceByteRange e clock expected start stop replacement cursor selectionAnchor).map snd
  | .moveCursor motion mode => b.moveCursorWithSelection e motion mode
  | .moveCursorInLayout layout mode => b.moveCursorInLayout e layout mode
  | .selectAll => some b.selectAll
  | .clearSelection => some b.clearSelection
  | .resetPreferredVisualColumn => some b.resetPreferredVisualColumn
  | .setWordBoundaryPolicy policy => some (b.setWordBoundaryPolicy policy)
  | .undo => some b.undo.2
  | .redo => some b.redo.2
  | .setUndoPolicy policy => some (b.setUndoPolicy policy)
  | .breakUndoGroup => some b.breakUndoGroup
  | .setInputTime now => some (b.setInputTime now)
  | .clearHistory => some b.clearHistory

def Op.kind : Op → EditKind
  | .insertChar _ | .insertStr _ => .insert
  | .deleteBackward => .deleteBackward
  | .deleteForward => .deleteForward
  | _ => .other

def joins (kind : EditKind) (after : RetainedState) (b : TextEditBuffer) : Bool :=
  !b.replaces && b.history.continues e kind b.retainedState after (b.history.inputTime.getD clock)

/-- Whether an edit from `b` to `b'` is small enough to be recorded, and the step that it joins is not small enough
with it. -/
def oversteps (kind : EditKind) (b b' : TextEditBuffer) : Bool :=
  decide (b'.text ≠ b.text ∧ len b.text + len b'.text ≤ MAX_HISTORY_BYTES) && b.joins e clock kind b'.retainedState &&
    b.history.undo.getLast?.any fun last => decide (len last.before.state.text + len b'.text > MAX_HISTORY_BYTES)

/-! ## What an operation can do -/

/-- What an operation can do to the text and the steps. Only an edit begins or extends a
step. -/
inductive Change (b b' : TextEditBuffer) : Bool → Prop where
  | quiet {edit : Bool} (text : b'.text = b.text) (undo : b'.history.undo = b.history.undo)
      (redo : b'.history.redo = b.history.redo)
      (group : b'.history.openGroup = b.history.openGroup ∨ b'.history.openGroup = none) : Change b b' edit
  | forgotten {edit : Bool} (undo : b'.history.undo = []) (redo : b'.history.redo = []) : Change b b' edit
  | begun {kept : List Transaction} {t : Transaction} (text : b'.text ≠ b.text) (kept_suffix : kept <:+ b.history.undo)
      (undo : b'.history.undo = kept ++ [t]) (redo : b'.history.redo = []) (before : t.before.state = b.editState)
      (after : t.after.state = b'.editState) : Change b b' true
  | extended {kept init : List Transaction} {last t : Transaction} (text : b'.text ≠ b.text)
      (group : b.history.openGroup ≠ none)
      (newest : b.history.undo = init ++ [last]) (meets : last.after.state = b.editState) (kept_suffix : kept <:+ init)
      (undo : b'.history.undo = kept ++ [t]) (redo : b'.history.redo = []) (before : t.before = last.before)
      (after : t.after.state = b'.editState) : Change b b' true
  | undone {init : List Transaction} {t : Transaction} (newest : b.history.undo = init ++ [t])
      (undo : b'.history.undo = init)
      (redo : b'.history.redo = b.history.redo ++ [t]) (state : b'.editState =
        t.before.state) (group : b'.history.openGroup = none) :
      Change b b' false
  | redone {init : List Transaction} {t : Transaction} (next : b.history.redo = init ++ [t])
      (redo : b'.history.redo = init)
      (undo : b'.history.undo = b.history.undo ++ [t]) (state : b'.editState =
        t.after.state) (group : b'.history.openGroup = none) :
      Change b b' false

variable {e clock b} {b' : TextEditBuffer}

theorem pruneLoop_suffix (bytes : Nat) (steps : List Transaction) : pruneLoop bytes steps <:+ steps := by
  induction steps with
  | nil => exact suffix_refl _
  | cons t steps ih =>
    unfold pruneLoop
    split
    · exact ih.trans (suffix_cons t steps)
    · exact suffix_refl _

theorem prepare_suffix (h : EditHistory) (bytes : Nat) : (h.prepare bytes).undo <:+ h.undo := by
  unfold prepare
  split
  · exact nil_suffix
  · exact pruneLoop_suffix bytes h.undo

/-- Steps that are few enough and, if none of them is over the byte budget by itself, small
enough together. -/
def WithinBudget (steps : List Transaction) : Prop :=
  steps.length ≤ MAX_HISTORY_ENTRIES ∧
    ((∀ t ∈ steps, t.bytes ≤ MAX_HISTORY_BYTES) → (steps.map Transaction.bytes).sum ≤ MAX_HISTORY_BYTES)

theorem withinBudget_nil : WithinBudget [] := ⟨zero_le, fun _ => zero_le⟩

variable {steps : List Transaction}

theorem WithinBudget.perm {steps' : List Transaction} (h : WithinBudget steps) (hperm : steps'.Perm steps) :
    WithinBudget steps' := by
  unfold WithinBudget
  rw [hperm.length_eq, (hperm.map _).sum_eq]
  exact ⟨h.1, fun hall => h.2 fun t ht => hall t (hperm.mem_iff.mpr ht)⟩

theorem pruneLoop_room (bytes : Nat) (steps : List Transaction) :
    (pruneLoop bytes steps).length < MAX_HISTORY_ENTRIES ∧
      ((pruneLoop bytes steps).map Transaction.bytes).sum ≤ MAX_HISTORY_BYTES - bytes := by
  induction steps with
  | nil => exact ⟨(by decide : 0 < MAX_HISTORY_ENTRIES), zero_le⟩
  | cons t steps ih =>
    unfold pruneLoop
    split
    · exact ih
    · exact ⟨by omega, by omega⟩

/-- A step behind those that `prepare` has left for it. One that is over the byte budget is left
alone on the stack. -/
theorem within_prepare (h : EditHistory) (t : Transaction) : WithinBudget ((h.prepare t.bytes).undo ++ [t]) := by
  unfold prepare
  dsimp only
  split
  · rename_i hover
    exact ⟨(by decide : 1 ≤ MAX_HISTORY_ENTRIES), fun hall => absurd (hall t mem_cons_self) (not_le.mpr hover)⟩
  · obtain ⟨hlength, hsum⟩ := pruneLoop_room t.bytes h.undo
    unfold WithinBudget
    rw [length_append, length_singleton, map_append, sum_append, map_singleton, sum_singleton]
    exact ⟨by omega, fun _ => by omega⟩

def EachWithin (steps : List Transaction) : Prop := ∀ t ∈ steps, t.bytes ≤ MAX_HISTORY_BYTES

variable (e clock) in
/-- What an operation can do, with the budgets that a retained step keeps. -/
structure Recorded (kind : EditKind) (b b' : TextEditBuffer) (edit : Bool) : Prop where
  change : Change b b' edit
  within : edit = true → b'.text ≠ b.text → WithinBudget (b'.history.undo ++ b'.history.redo)
  each : EachWithin (b.history.undo ++ b.history.redo) →
    (EachWithin (b'.history.undo ++ b'.history.redo) ↔ b.oversteps e clock kind b' = false)

variable {kind : EditKind}

/-- An edit continues a step only where the step ended, with nothing to redo. -/
theorem continues_newest {h : EditHistory} {before after : RetainedState} {now : Nat}
    (hc : h.continues e kind before after now = true) :
    h.openGroup ≠ none ∧ ∃ init last, h.undo = init ++ [last] ∧ last.after.state = before.state := by
  unfold continues at hc
  cases hopen : h.openGroup with
  | none =>
    rw [hopen] at hc
    cases hc
  | some group =>
    rw [hopen] at hc
    dsimp only at hc
    split at hc
    · cases hc
    · rename_i hguard
      refine ⟨nofun, ?_⟩
      rcases eq_nil_or_concat' h.undo with hnil | ⟨init, last, hundo⟩
      · exact absurd (.inr (.inr (.inr (.inr (.inr (by rw [hnil]; rfl)))))) hguard
      · refine ⟨init, last, hundo, ?_⟩
        by_contra hne
        exact hguard (.inr (.inr (.inr (.inr (.inr (by simp [hundo, hne]))))))

theorem joins_other {after : RetainedState} : b.joins e clock .other after = false := by
  unfold joins continues
  cases b.history.openGroup <;> simp

theorem oversteps_other : b.oversteps e clock .other b' = false := by
  simp [oversteps, joins_other]

theorem oversteps_quiet (h : b'.text = b.text) : b.oversteps e clock kind b' = false := by
  simp [oversteps, h]

theorem Recorded.quiet {edit : Bool} (htext : b'.text = b.text) (hundo : b'.history.undo = b.history.undo)
    (hredo : b'.history.redo = b.history.redo)
    (hgroup : b'.history.openGroup = b.history.openGroup ∨ b'.history.openGroup = none) :
    Recorded e clock kind b b' edit := by
  refine ⟨.quiet htext hundo hredo hgroup, fun _ hne => absurd htext hne, fun heach => ?_⟩
  rw [hundo, hredo]
  exact iff_of_true heach (oversteps_quiet htext)

theorem each_concat {kept : List Transaction} {t : Transaction} (hkept : EachWithin kept) :
    EachWithin (kept ++ [t]) ↔ t.bytes ≤ MAX_HISTORY_BYTES := by
  simp only [EachWithin, forall_mem_append, forall_mem_singleton]
  exact and_iff_right hkept

/-- An edit that is retained extends the newest step if it joins it, and begins a step of its own otherwise. -/
theorem recorded_retainStep {c : TextEditBuffer} {kind' : EditKind} {replaced : Bool} {now : Nat}
    (hjoins : (!replaced && c.history.continues e kind' b.retainedState c.retainedState now) =
      b.joins e clock kind c.retainedState)
    (hundo : c.history.undo = b.history.undo) (hgroup : c.history.openGroup = b.history.openGroup)
    (htext : c.text ≠ b.text) (hfits : len b.text + len c.text ≤ MAX_HISTORY_BYTES) :
    Recorded e clock kind b (c.retainStep e kind' b.retainedState replaced now) true := by
  have hredo : (c.retainStep e kind' b.retainedState replaced now).history.redo = [] := rfl
  have hover : b.oversteps e clock kind (c.retainStep e kind' b.retainedState replaced now) =
      (b.joins e clock kind c.retainedState &&
        b.history.undo.getLast?.any fun last =>
          decide (len last.before.state.text + len c.text > MAX_HISTORY_BYTES)) := by
    unfold oversteps
    rw [decide_eq_true ⟨htext, hfits⟩]
    rfl
  have hkept {kept steps : List Transaction} (hsub : steps ⊆ b.history.undo) (hkept : kept <:+ steps)
      (heach : EachWithin (b.history.undo ++ b.history.redo)) : EachWithin kept :=
    fun t ht => heach t (mem_append_left _ (hsub (hkept.subset ht)))
  by_cases hmerge : (!replaced && c.history.continues e kind' b.retainedState c.retainedState now) = true
  · obtain ⟨hopen, init, last, hnewest, hmeets⟩ := continues_newest (Bool.and_eq_true_iff.mp hmerge).2
    have hdrop : c.history.undo.dropLast = init := by rw [hnewest, dropLast_concat]
    have hlast : c.history.undo.getLast?.elim b.retainedState Transaction.before = last.before := by
      simp [hnewest]
    have hstep : (c.retainStep e kind' b.retainedState replaced now).history.undo =
        ({ c.history with undo := init }.prepare (len last.before.state.text + len c.text)).undo ++
          [⟨last.before, c.retainedState⟩] := by
      unfold retainStep
      simp only [if_pos hmerge, hdrop, hlast]
      rfl
    rw [hundo] at hnewest
    refine ⟨.extended htext (hgroup ▸ hopen) hnewest hmeets (prepare_suffix _ _) hstep rfl rfl rfl,
      fun _ _ => ?_, fun heach => ?_⟩
    · rw [hstep, hredo, append_nil]
      exact within_prepare _ ⟨last.before, c.retainedState⟩
    · rw [hstep, hredo, append_nil, each_concat (hkept (by simp [hnewest]) (prepare_suffix _ _) heach), hover, ← hjoins,
        hmerge, hnewest]
      simp [Transaction.bytes, retainedState, editState]
  · have hstep : (c.retainStep e kind' b.retainedState replaced now).history.undo =
        (c.history.prepare (len b.text + len c.text)).undo ++ [⟨b.retainedState, c.retainedState⟩] := by
      unfold retainStep
      simp only [if_neg hmerge]
      rfl
    refine ⟨.begun htext (hundo ▸ prepare_suffix _ _) hstep rfl rfl rfl, fun _ _ => ?_, fun heach => ?_⟩
    · rw [hstep, hredo, append_nil]
      exact within_prepare _ ⟨b.retainedState, c.retainedState⟩
    · rw [hstep, hredo, append_nil, each_concat (hkept (hundo ▸ fun _ h => h) (prepare_suffix _ _) heach), hover,
        ← hjoins, (Bool.not_eq_true _).mp hmerge]
      exact iff_of_true hfits rfl

theorem recorded_recordEdit {α : Type} {edit : TextEditBuffer → Option (α × TextEditBuffer)}
    (hedit : ∀ c result c', edit c = some (result, c') → c'.history = c.history) {result : α}
    (h : b.recordEdit e clock kind edit = some (result, b')) : Recorded e clock kind b b' true := by
  obtain ⟨⟨result', c⟩, hc, h⟩ := map_eq_some_iff.mp h
  have hhistory : c.history = { b.history with inputTime := none } := hedit _ _ _ hc
  have hundo : c.history.undo = b.history.undo := by rw [hhistory]
  have hredo : c.history.redo = b.history.redo := by rw [hhistory]
  have hgroup : c.history.openGroup = b.history.openGroup := by rw [hhistory]
  cases h
  split
  · exact Recorded.quiet rfl hundo hredo (.inl hgroup)
  · rename_i htext
    split
    · rename_i hover
      refine ⟨.forgotten rfl rfl, fun _ _ => withinBudget_nil, fun _ => iff_of_true nofun ?_⟩
      have hfits : ¬len b.text + len c.text ≤ MAX_HISTORY_BYTES := not_le.mpr hover
      simp [oversteps, clearHistory, hfits]
    · rename_i hover
      refine recorded_retainStep ?_ hundo hgroup htext (not_lt.mp hover)
      -- a deletion of a selection is of another kind, but joins no step anyway
      have hreplaces : TextEditBuffer.replaces { b with history := { b.history with inputTime := none } } =
        b.replaces := rfl
      rw [hhistory, hreplaces, joins]
      cases b.replaces <;> cases kind <;> rfl

theorem recorded_recordUnit {edit : TextEditBuffer → Option TextEditBuffer}
    (hedit : ∀ c c', edit c = some c' → c'.history = c.history) (h : b.recordUnit e clock kind edit = some b') :
    Recorded e clock kind b b' true := by
  obtain ⟨⟨result, c⟩, hc, rfl⟩ := map_eq_some_iff.mp h
  refine recorded_recordEdit (fun c result c' h => ?_) hc
  obtain ⟨d, hd, hpair⟩ := map_eq_some_iff.mp h
  cases hpair
  exact hedit c _ hd

variable {edit : Bool}

theorem Moves.recorded (h : Moves b b') : Recorded e clock kind b b' edit :=
  .quiet h.1 (congrArg EditHistory.undo h.2) (congrArg EditHistory.redo h.2) (.inl (congrArg EditHistory.openGroup h.2))

theorem change_undo (b : TextEditBuffer) : Change b b.undo.2 false := by
  unfold undo
  rcases eq_nil_or_concat' b.history.undo with hnil | ⟨init, t, hundo⟩
  · rw [hnil]
    exact .quiet rfl rfl rfl (.inl rfl)
  · rw [hundo, getLast?_concat]
    exact .undone hundo dropLast_concat rfl rfl rfl

theorem change_redo (b : TextEditBuffer) : Change b b.redo.2 false := by
  unfold redo
  rcases eq_nil_or_concat' b.history.redo with hnil | ⟨init, t, hredo⟩
  · rw [hnil]
    exact .quiet rfl rfl rfl (.inl rfl)
  · rw [hredo, getLast?_concat]
    exact .redone hredo dropLast_concat rfl rfl rfl

/-- An operation that is no edit retains no other step. -/
theorem Recorded.kept (h : Change b b' false) : Recorded e clock .other b b' false := by
  refine ⟨h, nofun, fun heach => iff_of_true ?_ oversteps_other⟩
  cases h with
  | quiet _ undo redo => rwa [undo, redo]
  | forgotten undo redo =>
    rw [undo, redo]
    exact nofun
  | undone newest undo redo =>
    rw [newest, append_assoc] at heach
    rw [undo, redo]
    exact fun t ht => heach t ((Perm.append_left _ perm_append_comm).subset ht)
  | redone next redo undo =>
    rw [next] at heach
    rw [undo, redo, append_assoc]
    exact fun t ht => heach t ((Perm.append_left _ perm_append_comm).subset ht)

theorem recorded_replaceByteRange {expected : TextEditState} {start stop cursor : Nat} {replacement : List Char}
    {selectionAnchor : Option Nat}
    {result : Except TextEditTransactionError Bool}
    (h : b.replaceByteRange e clock expected start stop replacement cursor selectionAnchor = some (result, b')) :
    Recorded e clock .other b b' true := by
  unfold replaceByteRange at h
  split at h
  · cases h
    exact Moves.recorded ⟨rfl, rfl⟩
  · split at h
    · cases h
      exact Moves.recorded ⟨rfl, rfl⟩
    · dsimp only at h
      split at h
      · cases h
        exact Moves.recorded ⟨rfl, rfl⟩
      · split at h
        · cases h
          exact Moves.recorded ⟨rfl, rfl⟩
        · obtain ⟨c, hc, hpair⟩ := map_eq_some_iff.mp h
          cases hpair
          refine recorded_recordUnit (fun c c' h => ?_) hc
          cases h
          rfl

/-- Every operation does what `Recorded` allows. -/
theorem recorded_step {op : Op} (h : b.step e clock op = some b') : Recorded e clock op.kind b b' op.isEdit := by
  cases op with
  | insertChar | insertStr | paste => exact recorded_recordUnit (fun _ _ => insertStrUnrecorded_history) h
  | deleteBackward => exact recorded_recordUnit (fun _ _ h => deleteOne_history (.inl h)) h
  | deleteForward => exact recorded_recordUnit (fun _ _ h => deleteOne_history (.inr h)) h
  | deleteSelection =>
    obtain ⟨⟨result, c⟩, hc, rfl⟩ := map_eq_some_iff.mp h
    exact recorded_recordEdit (fun _ _ _ => deleteSelectionUnrecorded_history) hc
  | cutSelection =>
    obtain ⟨⟨result, c⟩, hc, rfl⟩ := map_eq_some_iff.mp h
    unfold cutSelection at hc
    split at hc
    · cases hc
      exact Moves.recorded ⟨rfl, rfl⟩
    · obtain ⟨cut, _, hc⟩ := bind_eq_some_iff.mp hc
      obtain ⟨⟨deleted, d⟩, hd, hc⟩ := bind_eq_some_iff.mp hc
      cases hc
      exact recorded_recordEdit (fun _ _ _ => deleteSelectionUnrecorded_history) hd
  | delete kind => exact recorded_recordUnit (fun _ _ => deleteUnrecorded_history) h
  | clear =>
    have hclear (c c' : TextEditBuffer) (h : some c.clearUnrecorded = some c') : c'.history = c.history := by
      cases h
      rfl
    exact recorded_recordUnit hclear (show b.clear e clock = some b' from h)
  | replaceByteRange expected start stop replacement cursor selectionAnchor =>
    obtain ⟨⟨result, c⟩, hc, rfl⟩ := map_eq_some_iff.mp h
    exact recorded_replaceByteRange hc
  | moveCursor motion mode => exact (moves_moveCursorWithSelection h).recorded
  | moveCursorInLayout layout mode => exact (moves_moveCursorInLayout h).recorded
  | selectAll | clearSelection | resetPreferredVisualColumn | setWordBoundaryPolicy | setInputTime =>
    cases h
    exact .quiet rfl rfl rfl (.inl rfl)
  | undo =>
    cases h
    exact .kept (change_undo b)
  | redo =>
    cases h
    exact .kept (change_redo b)
  | setUndoPolicy | breakUndoGroup =>
    cases h
    exact .quiet rfl rfl rfl (.inr rfl)
  | clearHistory =>
    cases h
    exact .kept (.forgotten rfl rfl)

/-! ## Chains of steps -/

def Meets (s t : Transaction) : Prop := s.after.state.text = t.before.state.text

/-- Edits that were made one behind the other, from the state a step has recorded before them
to the one behind them. -/
structure Spans (edits : List (TextEditState × TextEditState)) (t : Transaction) : Prop where
  consecutive : edits.IsChain fun first next => first.2 = next.1
  first : edits.head?.map fst = some t.before.state
  last : edits.getLast?.map snd = some t.after.state

variable (log : List (TextEditState × TextEditState))

/-- What holds of a buffer after the edits of a log. -/
structure Sound (b : TextEditBuffer) : Prop where
  undoChain : b.history.undo.IsChain Meets
  undoCurrent : ∀ t, b.history.undo.getLast? = some t → t.after.state.text = b.text
  redoChain : b.history.redo.reverse.IsChain Meets
  redoCurrent : ∀ t, b.history.redo.getLast? = some t → t.before.state.text = b.text
  steps : ∀ t ∈ b.history.undo ++ b.history.redo, ∃ edits, edits <:+: log ∧ Spans edits t
  group : b.history.openGroup ≠ none → ∀ t, b.history.undo.getLast? = some t → ∃ edits, edits <:+ log ∧ Spans edits t

def logged (edit : Bool) (b b' : TextEditBuffer) : List (TextEditState × TextEditState) :=
  if edit ∧ b'.text ≠ b.text then log ++ [(b.editState, b'.editState)] else log

theorem log_within (edit : Bool) (b b' : TextEditBuffer) : log <:+: logged log edit b b' := by
  unfold logged
  split
  · exact (prefix_append log _).isInfix
  · exact infix_refl log

variable {kept init : List Transaction} {t : Transaction}

theorem getLast?_suffix (h : kept <:+ steps) (ht : kept.getLast? = some t) :
    steps.getLast? = some t := by
  obtain ⟨front, rfl⟩ := h
  simp [ht]

/-- A new newest step on some of the latest steps, with nothing to redo. -/
theorem sound_pushed {log : List (TextEditState × TextEditState)} (hkept : kept <:+ steps)
    (hchain : steps.IsChain Meets) (hmeets : ∀ s, steps.getLast? = some s → Meets s t)
    (hundo : b'.history.undo = kept ++ [t])
    (hredo : b'.history.redo = []) (hafter : t.after.state = b'.editState)
    (hsteps : ∀ s ∈ steps, ∃ edits, edits <:+: log ∧ Spans edits s) {edits : List (TextEditState × TextEditState)}
    (hedits : edits <:+ log)
    (hspans : Spans edits t) : Sound log b' where
  undoChain := by
    rw [hundo, isChain_append]
    refine ⟨hchain.suffix hkept, isChain_singleton t, fun s hs t' ht' => ?_⟩
    cases ht'
    exact hmeets s (getLast?_suffix hkept hs)
  undoCurrent s hs := by
    rw [hundo, getLast?_concat] at hs
    cases hs
    rw [hafter]
    rfl
  redoChain := by
    simp [hredo]
  redoCurrent s hs := by
    rw [hredo] at hs
    cases hs
  steps := by
    rw [hundo, hredo, append_nil]
    exact forall_mem_append.mpr ⟨fun s hs => hsteps s (hkept.subset hs),
      forall_mem_singleton.mpr ⟨edits, hedits.isInfix, hspans⟩⟩
  group _ s hs := by
    rw [hundo, getLast?_concat] at hs
    cases hs
    exact ⟨edits, hedits, hspans⟩

variable {log : List (TextEditState × TextEditState)}

section
variable (h : Sound log b)
include h

/-- An edit that begins a step. -/
theorem Sound.begun (htext : b'.text ≠ b.text) (hkept : kept <:+ b.history.undo)
    (hundo : b'.history.undo = kept ++ [t]) (hredo : b'.history.redo = []) (hbefore : t.before.state = b.editState)
    (hafter : t.after.state = b'.editState) : Sound (logged log true b b') b' := by
  have hlog : logged log true b b' = log ++ [(b.editState, b'.editState)] := if_pos ⟨rfl, htext⟩
  have hspans : Spans [(b.editState, b'.editState)] t :=
    ⟨isChain_singleton _, by rw [hbefore]; rfl, by rw [hafter]; rfl⟩
  refine sound_pushed hkept h.undoChain (fun s hs => ?_) hundo hredo hafter (fun s hs => ?_) ?_ hspans
  · unfold Meets
    rw [h.undoCurrent s hs, hbefore]
    rfl
  · obtain ⟨edits, hedits, hspans⟩ := h.steps s (mem_append_left _ hs)
    exact ⟨edits, hedits.trans (log_within log true b b'), hspans⟩
  · simp [hlog]

/-- An edit that joins the newest step. -/
theorem Sound.extended {last : Transaction} (htext : b'.text ≠ b.text)
    (hgroup : b.history.openGroup ≠ none) (hnewest : b.history.undo = init ++ [last])
    (hmeets : last.after.state = b.editState)
    (hkept : kept <:+ init) (hundo : b'.history.undo = kept ++ [t]) (hredo : b'.history.redo = [])
    (hbefore : t.before = last.before)
    (hafter : t.after.state = b'.editState) : Sound (logged log true b b') b' := by
  have hlog : logged log true b b' = log ++ [(b.editState, b'.editState)] := if_pos ⟨rfl, htext⟩
  have hlast : b.history.undo.getLast? = some last := by rw [hnewest, getLast?_concat]
  have hchain := h.undoChain
  rw [hnewest, isChain_append] at hchain
  obtain ⟨edits, ⟨front, hfront⟩, hspans⟩ := h.group hgroup last hlast
  obtain ⟨first, rest, rfl⟩ : ∃ first rest, edits = first :: rest := by
    cases edits with
    | nil => cases hspans.first
    | cons first rest => exact ⟨first, rest, rfl⟩
  have hgrown : Spans ((first :: rest) ++ [(b.editState, b'.editState)]) t := by
    refine ⟨?_, ?_, ?_⟩
    · -- the edit goes on where the newest one of the step ended
      rw [isChain_append]
      refine ⟨hspans.consecutive, isChain_singleton _, fun x hx y hy => ?_⟩
      cases hy
      have hx' := hspans.last
      rw [hx, map_some, some.injEq] at hx'
      rw [hx', hmeets]
    · rw [hbefore, ← hspans.first]
      rfl
    · rw [getLast?_concat, hafter]
      rfl
  refine sound_pushed hkept hchain.1 (fun s hs => ?_) hundo hredo hafter (fun s hs => ?_) ?_ hgrown
  · unfold Meets
    rw [hbefore]
    exact hchain.2.2 s hs last rfl
  · obtain ⟨edits, hedits, hspans⟩ := h.steps s (mem_append_left _ (hnewest ▸ mem_append_left _ hs))
    exact ⟨edits, hedits.trans (log_within log true b b'), hspans⟩
  · rw [hlog, ← hfront, append_assoc]
    exact suffix_append front _

/-- A step moved from one stack to the other, where it is met by the current text. -/
theorem Sound.moved (hall : b'.history.undo ++ b'.history.redo.reverse = b.history.undo ++ b.history.redo.reverse)
    (hcurrent : (∃ t, b'.history.redo.getLast? = some t ∧ t.before.state = b'.editState) ∨
      ∃ t, b'.history.undo.getLast? = some t ∧ t.after.state = b'.editState)
    (hgroup : b'.history.openGroup = none) : Sound log b' := by
  have hchain : (b.history.undo ++ b.history.redo.reverse).IsChain Meets := by
    refine isChain_append.mpr ⟨h.undoChain, h.redoChain, fun s hs t ht => ?_⟩
    rw [head?_reverse] at ht
    unfold Meets
    rw [h.undoCurrent s hs, h.redoCurrent t ht]
  rw [← hall, isChain_append, head?_reverse] at hchain
  obtain ⟨hundo, hredo, hmeets⟩ := hchain
  refine ⟨hundo, fun s hs => ?_, hredo, fun s hs => ?_, fun s hs => h.steps s ?_, fun hopen => absurd hgroup hopen⟩
  · rcases hcurrent with ⟨t, ht, hstate⟩ | ⟨t, ht, hstate⟩
    · exact (hmeets s hs t ht).trans (congrArg TextEditState.text hstate)
    · cases hs.symm.trans ht
      exact congrArg TextEditState.text hstate
  · rcases hcurrent with ⟨t, ht, hstate⟩ | ⟨t, ht, hstate⟩
    · cases hs.symm.trans ht
      exact congrArg TextEditState.text hstate
    · exact (hmeets t ht s hs).symm.trans (congrArg TextEditState.text hstate)
  · have hmem : s ∈ b'.history.undo ++ b'.history.redo.reverse := by simpa using hs
    rw [hall] at hmem
    simpa using hmem

/-- The step lemma of `Sound`, one case for each change. -/
theorem Sound.change (hchange : Change b b' edit) : Sound (logged log edit b b') b' := by
  cases hchange with
  | quiet text undo redo group =>
    have hlog : logged log edit b b' = log := if_neg fun hedit => hedit.2 text
    rw [hlog]
    constructor
    · rw [undo]
      exact h.undoChain
    · rw [undo, text]
      exact h.undoCurrent
    · rw [redo]
      exact h.redoChain
    · rw [redo, text]
      exact h.redoCurrent
    · rw [undo, redo]
      exact h.steps
    · intro hopen
      rw [undo]
      rcases group with hsame | hnone
      · exact h.group (hsame ▸ hopen)
      · exact absurd hnone hopen
  | forgotten undo redo =>
    constructor <;> simp [undo, redo]
  | begun text kept_suffix undo redo before after => exact h.begun text kept_suffix undo redo before after
  | extended text group newest meets kept_suffix undo redo before after =>
    exact h.extended text group newest meets kept_suffix undo redo before after
  | undone newest undo redo state group =>
    exact h.moved (by simp [newest, undo, redo]) (.inl ⟨_, by rw [redo, getLast?_concat], state.symm⟩) group
  | redone next redo undo state group =>
    exact h.moved (by simp [next, undo, redo]) (.inr ⟨_, by rw [undo, getLast?_concat], state.symm⟩) group

end

/-! ## Back and forth -/

theorem undo_stacks (hnewest : b.history.undo = init ++ [t]) :
    b.undo.2.history.undo = init ∧ b.undo.2.history.redo = b.history.redo ++ [t] := by
  have hlast : b.history.undo.getLast? = some t := by rw [hnewest, getLast?_concat]
  simp [undo, hnewest]

theorem Sound.redo_undo (h : Sound log b) (hnewest : b.history.undo = init ++ [t]) {c : TextEditBuffer}
    (hundo : c.history.undo = b.undo.2.history.undo) (hredo : c.history.redo = b.undo.2.history.redo) :
    c.redo.2.text = b.text ∧ c.redo.2.history.undo = b.history.undo ∧ c.redo.2.history.redo = b.history.redo := by
  have hlast : b.history.undo.getLast? = some t := by rw [hnewest, getLast?_concat]
  rw [(undo_stacks hnewest).1] at hundo
  rw [(undo_stacks hnewest).2] at hredo
  have hnext : c.history.redo.getLast? = some t := by rw [hredo, getLast?_concat]
  unfold redo
  rw [hnext]
  refine ⟨h.undoCurrent t hlast, ?_, ?_⟩
  · rw [hundo, hnewest]
  · rw [hredo, dropLast_concat]

/-- Any number of undos, and as many redos behind them. -/
theorem Sound.redo_undo_iterate (h : Sound log b) {n : Nat} (hn : n ≤ b.history.undo.length) :
    let c := (fun c : TextEditBuffer => c.redo.2)^[n] ((fun c : TextEditBuffer => c.undo.2)^[n] b)
    c.text = b.text ∧ c.history.undo = b.history.undo ∧ c.history.redo = b.history.redo := by
  induction n generalizing b with
  | zero => exact ⟨rfl, rfl, rfl⟩
  | succ n ih =>
    rcases eq_nil_or_concat' b.history.undo with hnil | ⟨init, t, hnewest⟩
    · rw [hnil] at hn
      exact absurd hn (Nat.not_succ_le_zero n)
    · have hlength : n ≤ b.undo.2.history.undo.length := by
        rw [hnewest, length_append, length_singleton] at hn
        rw [(undo_stacks hnewest).1]
        omega
      have hsound : Sound log b.undo.2 := by
        have hchanged := h.change (change_undo b)
        exact (show logged log false b b.undo.2 = log from if_neg fun hedit => Bool.false_ne_true hedit.1) ▸ hchanged
      obtain ⟨_, hu, hr⟩ := ih hsound hlength
      rw [Function.iterate_succ_apply']
      exact h.redo_undo hnewest hu hr

/-! ## Runs -/

/-- The buffers that operations reach from a text, with the edits made on the way. -/
inductive Run (e : Tables) (text : List Char) : List (TextEditState × TextEditState) → TextEditBuffer → Prop where
  | start : Run e text [] (fromText text)
  | step {log : List (TextEditState × TextEditState)} {b b' : TextEditBuffer} (h : Run e text log b) (clock : Nat)
      (op : Op)
      (hstep : b.step e clock op = some b') : Run e text (logged log op.isEdit b b') b'

variable {text : List Char}

theorem Run.sound (h : Run e text log b) : Sound log b := by
  induction h with
  | start => constructor <;> simp [fromText]
  | step _ clock op hstep ih => exact ih.change (recorded_step hstep).change

/-- In every buffer that operations reach from a text, both stacks are chains that meet at the
current text; going back any number of steps and forward again returns it; an undo restores the
text, the cursor and the anchor before the first of the consecutive edits that its step is made
of; and an edit that is not retained leaves nothing to undo or redo. -/
theorem undo_redo_correct (h : Run e text log b) :
    (b.history.undo.IsChain Meets ∧ ∀ t, b.history.undo.getLast? = some t → t.after.state.text = b.text) ∧
      (b.history.redo.reverse.IsChain Meets ∧ ∀ t, b.history.redo.getLast? = some t → t.before.state.text = b.text) ∧
      (∀ n ≤ b.history.undo.length,
        ((fun c : TextEditBuffer => c.redo.2)^[n] ((fun c : TextEditBuffer => c.undo.2)^[n] b)).text = b.text) ∧
      (∀ t, b.history.undo.getLast? = some t → ∃ edits, edits <:+: log ∧
        edits.IsChain (fun first next => first.2 = next.1) ∧
        edits.head?.map fst = some b.undo.2.editState ∧ edits.getLast?.map snd = some t.after.state) ∧
      ∀ clock op b', b.step e clock op = some b' → op.isEdit = true → b'.text ≠ b.text →
        (b'.history.undo = [] ∧ b'.history.redo = []) ∨
          ∃ t, b'.history.undo.getLast? = some t ∧ t.after.state = b'.editState ∧ b'.history.redo = [] := by
  have hs := h.sound
  refine ⟨⟨hs.undoChain, hs.undoCurrent⟩, ⟨hs.redoChain, hs.redoCurrent⟩, fun n hn => (hs.redo_undo_iterate hn).1, ?_,
    ?_⟩
  · intro t ht
    obtain ⟨edits, hedits, hspans⟩ := hs.steps t (mem_append_left _ (mem_of_getLast? ht))
    have hstate : b.undo.2.editState = t.before.state := by
      unfold undo
      rw [ht]
      rfl
    exact ⟨edits, hedits, hspans.consecutive, hstate ▸ hspans.first, hspans.last⟩
  · intro clock op b' hstep hedit htext
    have hchange := (recorded_step hstep).change
    rw [hedit] at hchange
    cases hchange with
    | quiet text => exact absurd text htext
    | forgotten undo redo => exact .inl ⟨undo, redo⟩
    | begun _ _ undo redo _ after => exact .inr ⟨_, by rw [undo, getLast?_concat], after, redo⟩
    | extended _ _ _ _ _ undo redo _ after => exact .inr ⟨_, by rw [undo, getLast?_concat], after, redo⟩

/-! ## The budgets -/

theorem Recorded.keeps_budget (h : Recorded e clock kind b b' edit)
    (hb : WithinBudget (b.history.undo ++ b.history.redo)) : WithinBudget (b'.history.undo ++ b'.history.redo) := by
  cases h.change with
  | quiet _ undo redo =>
    rw [undo, redo]
    exact hb
  | forgotten undo redo =>
    rw [undo, redo]
    exact withinBudget_nil
  | begun text => exact h.within rfl text
  | extended text => exact h.within rfl text
  | undone newest undo redo =>
    rw [newest, append_assoc] at hb
    rw [undo, redo]
    exact hb.perm (.append_left _ perm_append_comm)
  | redone next redo undo =>
    rw [next] at hb
    rw [undo, redo, append_assoc]
    exact hb.perm (.append_left _ perm_append_comm)

theorem Run.budget (h : Run e text log b) : WithinBudget (b.history.undo ++ b.history.redo) := by
  induction h with
  | start => exact withinBudget_nil
  | step _ clock op hstep ih => exact (recorded_step hstep).keeps_budget ih

def retainedBytes (b : TextEditBuffer) : Nat := ((b.history.undo ++ b.history.redo).map Transaction.bytes).sum

theorem WithinBudget.bytes_iff (h : WithinBudget (b.history.undo ++ b.history.redo)) :
    b.retainedBytes ≤ MAX_HISTORY_BYTES ↔ EachWithin (b.history.undo ++ b.history.redo) :=
  ⟨fun htotal _ ht => (single_le_sum (fun _ _ => zero_le) _ (mem_map_of_mem ht)).trans htotal, h.2⟩

/-- The buffers that operations reach without an edit that oversteps. -/
inductive Modest (e : Tables) (text : List Char) : TextEditBuffer → Prop where
  | start : Modest e text (fromText text)
  | step {b b' : TextEditBuffer} (h : Modest e text b) (clock : Nat) (op : Op) (hstep : b.step e clock op = some b')
      (hmodest : b.oversteps e clock op.kind b' = false) : Modest e text b'

theorem Modest.each (h : Modest e text b) : EachWithin (b.history.undo ++ b.history.redo) := by
  induction h with
  | start => exact nofun
  | step _ clock op hstep hmodest ih => exact ((recorded_step hstep).each ih).mpr hmodest

/-- **The budgets of the history.** In every buffer that operations reach from a text, the steps to undo and redo are
at most `MAX_HISTORY_ENTRIES`. Their texts take at most `MAX_HISTORY_BYTES` as long as no edit joins a step that is too
large with it, and the first edit that does exceeds the budget. -/
theorem history_budget (h : Run e text log b) :
    b.history.undo.length + b.history.redo.length ≤ MAX_HISTORY_ENTRIES ∧
    (Modest e text b → b.retainedBytes ≤ MAX_HISTORY_BYTES) ∧
    (b.retainedBytes ≤ MAX_HISTORY_BYTES → ∀ clock op b', b.step e clock op = some b' →
      (b'.retainedBytes ≤ MAX_HISTORY_BYTES ↔ b.oversteps e clock op.kind b' = false)) := by
  refine ⟨length_append ▸ h.budget.1, fun hmodest => h.budget.bytes_iff.mpr hmodest.each,
    fun hbytes clock op b' hstep => ?_⟩
  rw [((recorded_step hstep).keeps_budget h.budget).bytes_iff]
  exact (recorded_step hstep).each (h.budget.bytes_iff.mp hbytes)

end TextEditBuffer

namespace Sample
open TextEditBuffer

def tables : Tables where
  graphemes text := text.map ([·])
  isWhitespace c := c = ' '
  isAlphanumeric c := c ≠ ' '
  cursorVisualCol _ cursor := cursor
  visualVerticalPosition _ cursor _ _ := cursor

def typed : TextEditBuffer :=
  { text := ['x', 'a', 'b'], cursor := 3
    history := { undo := [⟨⟨⟨['x'], 1, none⟩, none⟩, ⟨⟨['x', 'a', 'b'], 3, none⟩, none⟩⟩]
                 openGroup := some ⟨.insert, 0, 200000000⟩ } }

def typedOnce : TextEditBuffer :=
  { text := ['x', 'a'], cursor := 2
    history := { undo := [⟨⟨⟨['x'], 1, none⟩, none⟩, ⟨⟨['x', 'a'], 2, none⟩, none⟩⟩]
                 openGroup := some ⟨.insert, 0, 0⟩ } }

theorem run_typed : ∃ log, TextEditBuffer.Run tables ['x'] log typed := by
  have hstart : TextEditBuffer.Run tables ['x'] [] (fromText ['x']) := .start
  have hfirst : TextEditBuffer.Run tables ['x'] _ typedOnce := hstart.step 0 (.insertChar 'a') (by decide +kernel)
  exact ⟨_, hfirst.step 200000000 (.insertChar 'b') (by decide +kernel)⟩

/-- Both letters are undone at once. -/
theorem typed_undone : typed.undo.2.editState = ⟨['x'], 1, none⟩ ∧
    ∃ edits : List (TextEditState × TextEditState), edits.head?.map fst = some typed.undo.2.editState ∧
      edits.getLast?.map snd = some ⟨['x', 'a', 'b'], 3, none⟩ := by
  obtain ⟨log, hrun⟩ := run_typed
  obtain ⟨edits, _, _, hbefore, hafter⟩ := (undo_redo_correct hrun).2.2.2.1 _ (show typed.history.undo.getLast? =
    some _ from rfl)
  exact ⟨by decide +kernel, edits, hbefore, hafter⟩

theorem typed_budget : typed.retainedBytes = 4 ∧ typed.retainedBytes ≤ MAX_HISTORY_BYTES := by
  obtain ⟨log, hrun⟩ := run_typed
  have hmodest : Modest tables ['x'] typed :=
    .step (b := typedOnce) (.step .start 0 (.insertChar 'a') (by decide +kernel) (by decide +kernel)) 200000000
      (.insertChar 'b') (by decide +kernel) (by decide +kernel)
  exact ⟨by decide +kernel, (history_budget hrun).2.1 hmodest⟩

def replaced (text : List Char) : TextEditBuffer :=
  { text := ['a'], cursor := 1
    history := { undo := [⟨⟨⟨text, len text, some 0⟩, none⟩, ⟨⟨['a'], 1, none⟩, none⟩⟩]
                 openGroup := some ⟨.insert, 0, 0⟩ } }

def grown (text : List Char) : TextEditBuffer :=
  { text := ['a', 'b'], cursor := 2
    history := { undo := [⟨⟨⟨text, len text, some 0⟩, none⟩, ⟨⟨['a', 'b'], 2, none⟩, none⟩⟩]
                 openGroup := some ⟨.insert, 0, 0⟩ } }

variable {text : List Char}

theorem splitAt_len (text : List Char) : splitAt text (len text) = some (text, []) := by
  induction text with
  | nil => rfl
  | cons c text ih =>
    obtain ⟨n, hn⟩ : ∃ n, len (c :: text) = n + 1 := Nat.exists_eq_succ_of_ne_zero (by simp [len, c.utf8Size_pos.ne'])
    have hrest : n + 1 - c.utf8Size = len text := by
      rw [← hn]
      exact Nat.add_sub_cancel_left ..
    rw [hn, splitAt, if_pos (by rw [← hn]; exact Nat.le_add_right ..), hrest, ih]
    rfl

section
variable (h : len text = MAX_HISTORY_BYTES - 1)
include h

theorem step_replaced :
    (fromText text).selectAll.step tables 0 (.insertChar 'a') = some (replaced text) := by
  have hne : 0 ≠ len text := by rw [h]; decide
  have htext : ['a'] ≠ text := by
    rintro rfl
    revert h
    decide
  have hfit : ¬ len text + len ['a'] > MAX_HISTORY_BYTES := by rw [h]; decide
  have hshort : ¬ len ['a'] > len text := by rw [h]; decide
  simp [step, insertChar, recordUnit, recordEdit, replaces, insertCharUnrecorded, deleteSelectionUnrecorded,
    selection, selectAll, fromText, drain, cutRange, splitAt_len, splitAt, insertAt, hne, htext, hfit, retainedState,
    editState, retainStep, hshort, prepare, pruneLoop]
  rfl

theorem step_grown : (replaced text).step tables 0 (.insertChar 'b') = some (grown text) := by
  have hfit : ¬ MAX_HISTORY_BYTES < len ['a'] + len ['a', 'b'] := by decide
  have hover : MAX_HISTORY_BYTES < len text + len ['a', 'b'] := by rw [h]; decide
  have hshort : ¬ len text < len ['a', 'b'] := by rw [h]; decide
  have hinsert : insertAt ['a'] 1 ['b'] = some ['a', 'b'] := by decide
  simp [step, insertChar, recordUnit, recordEdit, replaces, insertCharUnrecorded, deleteSelectionUnrecorded,
    selection, replaced, hinsert, retainedState, editState, retainStep, prepare, continues, hfit, hover, hshort]
  rfl

theorem run_grown : ∃ log, TextEditBuffer.Run tables text log (grown text) :=
  ⟨_, .step (.step (.step .start 0 .selectAll rfl) 0 (.insertChar 'a') (step_replaced h)) 0 (.insertChar 'b')
    (step_grown h)⟩

theorem bytes_grown : MAX_HISTORY_BYTES < (grown text).retainedBytes := by
  show MAX_HISTORY_BYTES < len text + 2 + 0
  rw [h]
  decide

end

theorem merged_step_over_budget :
    ∃ log b, TextEditBuffer.Run tables (List.replicate (MAX_HISTORY_BYTES - 1) 'x') log b ∧
      MAX_HISTORY_BYTES < b.retainedBytes := by
  have hlen : len (List.replicate (MAX_HISTORY_BYTES - 1) 'x') = MAX_HISTORY_BYTES - 1 := by
    rw [len, map_replicate, sum_replicate, smul_eq_mul]
    exact mul_one _
  obtain ⟨log, hrun⟩ := run_grown hlen
  exact ⟨log, _, hrun, bytes_grown hlen⟩

end Sample
end Bmux.TextEdit
