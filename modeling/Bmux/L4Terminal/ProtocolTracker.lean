import Bmux.L4Terminal.Edits
import Bmux.L4Terminal.Snapshot

/-!
# The protocol tracker

`TerminalProtocolTracker` follows the modes of the protocol and the screen shown without
keeping cells. It decodes the same bytes as `TerminalGridStream` and interprets the calls on
its own. Both interpretations are compared call by call:

* `agrees_perform`: a call keeps the two in agreement, unless it sets private modes with
  sub-parameters (`CSI ? 1 : 2 h`). The grid refuses such a sequence, the tracker flattens
  the groups and sets each of their values.
* `tracker_agrees`: so whole streams keep them in agreement, whatever the chunks.
* `tracker_disagrees`: one sequence with sub-parameters is enough for them to differ.
-/
namespace Bmux.Terminal
open List

structure ProtocolPerformer where
  protocol : ProtocolState := {}
  alternateScreen : Bool := false
  toggledAlternate : Bool := false
  deriving DecidableEq

namespace ProtocolPerformer

section
variable (p : ProtocolPerformer)

def setAlternateScreen (enabled : Bool) : ProtocolPerformer :=
  if p.alternateScreen ≠ enabled then { p with alternateScreen := enabled, toggledAlternate := true } else p

def setMouseTrackingMode (mode : MouseProtocolMode) (enabled : Bool) : ProtocolPerformer :=
  match mode with
  | .none => p
  | .press => { p with protocol := { p.protocol with mouseX10 := enabled } }
  | .pressRelease => { p with protocol := { p.protocol with mousePressRelease := enabled } }
  | .buttonMotion => { p with protocol := { p.protocol with mouseButtonMotion := enabled } }
  | .anyMotion => { p with protocol := { p.protocol with mouseAnyMotion := enabled } }

def setMouseEncoding (encoding : MouseProtocolEncoding) (enabled : Bool) : ProtocolPerformer :=
  match encoding with
  | .default => p
  | .utf8 => { p with protocol := { p.protocol with mouseUtf8 := enabled } }
  | .sgr => { p with protocol := { p.protocol with mouseSgr := enabled } }

def oscDispatch (params : List (List UInt8)) : ProtocolPerformer :=
  match params with
  | [selector, payload] =>
    if selector = [0x32, 0x32] then
      match parsePointerShape payload with
      | some operation =>
        { p with protocol := { p.protocol with
          pointerShapes := p.protocol.pointerShapes.apply p.alternateScreen operation } }
      | none => p
    else p
  | _ => p

end

/-- A private mode, packages/terminal-grid/src/parser.rs:552-564 -/
def setPrivateMode (enabled : Bool) (p : ProtocolPerformer) (value : Int) : ProtocolPerformer :=
  match value with
  | 1 => { p with protocol := { p.protocol with applicationCursor := enabled } }
  | 9 => p.setMouseTrackingMode .press enabled
  | 47 => p.setAlternateScreen enabled
  | 1047 => p.setAlternateScreen enabled
  | 1049 => p.setAlternateScreen enabled
  | 1000 => p.setMouseTrackingMode .pressRelease enabled
  | 1002 => p.setMouseTrackingMode .buttonMotion enabled
  | 1003 => p.setMouseTrackingMode .anyMotion enabled
  | 1005 => p.setMouseEncoding .utf8 enabled
  | 1006 => p.setMouseEncoding .sgr enabled
  | 1015 => { p with protocol := { p.protocol with mouseUrxvt := enabled } }
  | 2004 => { p with protocol := { p.protocol with bracketedPaste := enabled } }
  | _ => p

variable (p : ProtocolPerformer)

def csiDispatch (params : List (List Nat)) (intermediates : List UInt8) (ignore : Bool) (action : Char) :
    ProtocolPerformer :=
  if ignore ∨ intermediates ≠ [0x3f] ∨ ¬ (action = 'h' ∨ action = 'l') then p
  else (flattenParams params).foldl (setPrivateMode (decide (action = 'h'))) p

def escDispatch (intermediates : List UInt8) (ignore : Bool) (byte : UInt8) : ProtocolPerformer :=
  if ignore ∨ intermediates ≠ [] then p
  else match byte with
    | 0x3d => { p with protocol := { p.protocol with applicationKeypad := true } }
    | 0x3e => { p with protocol := { p.protocol with applicationKeypad := false } }
    | 0x63 => { p with protocol := {} }.setAlternateScreen false
    | _ => p

/-- mirrors packages/terminal-grid/src/parser.rs:524-582 -/
def perform : Action → ProtocolPerformer
  | .print _ => p
  | .execute _ => p
  | .hook .. => p
  | .put _ => p
  | .unhook => p
  | .oscDispatch params _ => p.oscDispatch params
  | .csiDispatch params intermediates ignore action => p.csiDispatch params intermediates ignore action
  | .escDispatch intermediates ignore byte => p.escDispatch intermediates ignore byte

end ProtocolPerformer

structure TerminalProtocolTracker where
  parser : Parser := {}
  protocol : ProtocolState := {}
  alternateScreen : Bool := false
  pendingBytes : List UInt8 := []
  deriving DecidableEq

namespace TerminalProtocolTracker

/-- mirrors packages/terminal-grid/src/parser.rs:443-459; the flag says that the screen was
switched -/
def process (t : TerminalProtocolTracker) (bytes : List UInt8) : TerminalProtocolTracker × Bool :=
  if bytes = [] then (t, false)
  else
    let advanced := t.parser.advance bytes
    let performer := advanced.1.foldl ProtocolPerformer.perform
      { protocol := t.protocol, alternateScreen := t.alternateScreen }
    ({ parser := advanced.2
       protocol := performer.protocol
       alternateScreen := performer.alternateScreen
       pendingBytes := advanced.2.replayPrefix }, performer.toggledAlternate)

def restore (protocol : ProtocolState) (alternateScreen : Bool) (pendingBytes : List UInt8) : TerminalProtocolTracker :=
  { (process {} pendingBytes).1 with protocol, alternateScreen }

end TerminalProtocolTracker

/-! ## One call -/

def Action.Plain : Action → Prop
  | .csiDispatch params intermediates ignore action =>
    ignore = false → intermediates = [0x3f] → action = 'h' ∨ action = 'l' → ∀ group ∈ params, group.length = 1
  | _ => True

namespace TerminalGrid
variable {u : Unicode} {g : TerminalGrid} {p : ProtocolPerformer}

/-- The tracker reports what the grid has. -/
def Agrees (p : ProtocolPerformer) (g : TerminalGrid) : Prop :=
    p.protocol = g.protocol ∧ p.alternateScreen = decide (g.mode = .alternate)

/-- A grid with a size and a screen, so that a reset can make a fresh one. -/
def Sized (g : TerminalGrid) : Prop := g.width ≠ 0 ∧ g.height ≠ 0 ∧ g.mainRows ≠ []

variable {g' : TerminalGrid}

theorem Edits.agrees (h : Edits u g g') (ha : Agrees p g) : Agrees p g' := by
  obtain ⟨_, _, hmode, hprotocol, _⟩ := h.frame
  unfold Agrees
  rw [hmode, hprotocol]
  exact ha

theorem setProtocol_protocol (g : TerminalGrid) (q : ProtocolState) : (g.setProtocol q).protocol = q := by
  unfold setProtocol
  split
  · rename_i h
    exact h.symm
  · rfl

theorem setProtocol_mode (g : TerminalGrid) (q : ProtocolState) : (g.setProtocol q).mode = g.mode := by
  unfold setProtocol
  split <;> rfl

theorem setAlternateMode_frame {mode : Int} (hmode : mode = 47 ∨ mode = 1047 ∨ mode = 1049) (enabled : Bool)
    (g : TerminalGrid) :
    (g.setAlternateMode mode enabled).mode = (if enabled then .alternate else .main) ∧
      (g.setAlternateMode mode enabled).protocol = g.protocol := by
  unfold setAlternateMode
  rw [if_neg (not_not_intro hmode)]
  cases enabled with
  | true | false =>
    simp only [↓reduceIte, Bool.false_eq_true]
    split
    · rename_i h
      exact ⟨h, rfl⟩
    · refine ⟨?_, ?_⟩
      all_goals rcases hmode with rfl | rfl | rfl <;> rfl

/-- A query changes no stack, so it does not matter that the grid only answers it. -/
theorem apply_query (s : PointerShapeState) (alternate : Bool) (names : List UInt8) :
    s.apply alternate (.query names) = s := by
  unfold PointerShapeState.apply
  split <;> rfl

theorem reset_frame (hg : g.Sized) : g.reset.mode = .main ∧ g.reset.protocol = {} ∧ g.reset.Sized := by
  obtain ⟨hw, hh, _⟩ := hg
  have hnew : new (min g.width 65535) (min g.height 65535) g.limits =
      .ok { width := min g.width 65535, height := min g.height 65535, limits := g.limits,
            mainRows := replicate (min g.height 65535) {}, altRows := replicate (min g.height 65535) {} } := by
    unfold new
    rw [if_neg (by omega)]
  unfold reset
  rw [hnew]
  refine ⟨rfl, rfl, show min g.width 65535 ≠ 0 by omega, show min g.height 65535 ≠ 0 by omega, ?_⟩
  show replicate (min g.height 65535) _ ≠ []
  rw [Ne, replicate_eq_nil_iff]
  omega

theorem agrees_reset (hg : g.Sized) (p : ProtocolPerformer) :
    Agrees ({ p with protocol := {} }.setAlternateScreen false) g.reset := by
  obtain ⟨hmode, hprotocol, _⟩ := reset_frame hg
  unfold Agrees ProtocolPerformer.setAlternateScreen
  rw [hmode, hprotocol]
  cases p.alternateScreen <;> exact ⟨rfl, rfl⟩

section
variable (ha : Agrees p g)
include ha

theorem agrees_setProtocol {q : ProtocolState} : Agrees { p with protocol := q } (g.setProtocol q) :=
  ⟨(setProtocol_protocol g q).symm, by rw [setProtocol_mode]; exact ha.2⟩

theorem agrees_setAlternateScreen {mode : Int} (hmode : mode = 47 ∨ mode = 1047 ∨ mode = 1049) (enabled : Bool) :
    Agrees (p.setAlternateScreen enabled) (g.setAlternateMode mode enabled) := by
  obtain ⟨hshown, hprotocol⟩ := setAlternateMode_frame hmode enabled g
  have hset : (p.setAlternateScreen enabled).protocol = p.protocol ∧ (p.setAlternateScreen enabled).alternateScreen =
    enabled := by
    unfold ProtocolPerformer.setAlternateScreen
    split
    · exact ⟨rfl, rfl⟩
    · rename_i h
      exact ⟨rfl, not_not.mp h⟩
  unfold Agrees
  rw [hset.1, hset.2, hshown, hprotocol]
  exact ⟨ha.1, by cases enabled <;> rfl⟩

theorem agrees_setPrivateMode (enabled : Bool) (value : Int) :
    Agrees (ProtocolPerformer.setPrivateMode enabled p value) (setPrivateMode enabled g value) := by
  have hset {q q' : ProtocolState} (hq : q = q') : Agrees { p with protocol := q } (g.setProtocol q') :=
    hq ▸ agrees_setProtocol ha
  unfold setPrivateMode
  split
  case h_2 | h_3 | h_5 => exact ha
  case h_6 => exact agrees_setAlternateScreen ha (.inl rfl) enabled
  case h_7 => exact agrees_setAlternateScreen ha (.inr (.inl rfl)) enabled
  case h_8 => exact agrees_setAlternateScreen ha (.inr (.inr rfl)) enabled
  case h_16 =>
    unfold ProtocolPerformer.setPrivateMode
    split
    all_goals first
      | exact ha
      | contradiction
  all_goals exact hset (by rw [ha.1])

theorem agrees_setPrivateModes (enabled : Bool) (values : List Int) :
    Agrees (values.foldl (ProtocolPerformer.setPrivateMode enabled) p) (values.foldl (setPrivateMode enabled) g) := by
  induction values generalizing p g with
  | nil => exact ha
  | cons value values ih => exact ih (agrees_setPrivateMode ha enabled value)

theorem agrees_applyPointerShape (operation : PointerShapeOperation) :
    Agrees { p with protocol := { p.protocol with
      pointerShapes := p.protocol.pointerShapes.apply p.alternateScreen operation } }
      (g.applyPointerShape operation) := by
  have hshapes : { p.protocol with pointerShapes := p.protocol.pointerShapes.apply p.alternateScreen operation } =
      { g.protocol with pointerShapes := g.protocol.pointerShapes.apply (decide (g.mode = .alternate)) operation } := by
    rw [ha.1, ha.2]
  rw [hshapes]
  exact agrees_setProtocol ha

theorem agrees_oscDispatch (params : List (List UInt8)) : Agrees (p.oscDispatch params) (g.oscDispatch params) := by
  rcases params with _ | ⟨selector, _ | ⟨payload, _ | ⟨_, _⟩⟩⟩
  · exact ha
  · exact ha
  · simp only [ProtocolPerformer.oscDispatch, oscDispatch]
    split
    · cases parsePointerShape payload with
      | none => exact ha
      | some operation =>
        cases operation with
        | query names =>
          simp only [apply_query]
          exact ha
        | set | push | pop => exact agrees_applyPointerShape ha _
    · exact ha
  · exact ha

variable (hg : g.Sized)
include hg

theorem agrees_escDispatch (u : Unicode) (intermediates : List UInt8) (ignore : Bool) (byte : UInt8) :
    Agrees (p.escDispatch intermediates ignore byte) (g.escDispatch intermediates ignore byte) := by
  have hset {q q' : ProtocolState} (hq : q = q') : Agrees { p with protocol := q } (g.setProtocol q') :=
    hq ▸ agrees_setProtocol ha
  have hline : Agrees p g.linefeed := (@edits_linefeed u g hg.2.2).agrees ha
  have hskip (h : ignore = true ∨ intermediates ≠ []) : p.escDispatch intermediates ignore byte = p := by
    exact if_pos h
  unfold escDispatch
  by_cases hignore : ignore = true
  · rw [hskip (.inl hignore), if_pos hignore]
    exact ha
  · rw [if_neg hignore]
    rcases intermediates with _ | ⟨slot, _ | ⟨_, _⟩⟩
    · unfold ProtocolPerformer.escDispatch
      rw [if_neg (by simpa using hignore)]
      dsimp only
      split
      · exact hset (congrArg (fun q : ProtocolState => { q with applicationKeypad := true }) ha.1)
      · exact hset (congrArg (fun q : ProtocolState => { q with applicationKeypad := false }) ha.1)
      · exact agrees_reset hg p
      · split
        · exact ha
        · exact ha
        · exact ha
        · exact hline
        · exact hline
        · exact (@still_reverseIndex u g).edits.agrees ha
        all_goals first
          | exact ha
          | contradiction
    · rw [hskip (.inr (cons_ne_nil _ _))]
      dsimp only
      split
      · exact ha
      · exact ha
    · rw [hskip (.inr (cons_ne_nil _ _))]
      exact ha

/-- The modes that a control sequence sets are the same on both sides. -/
theorem agrees_csiDispatch {params : List (List Nat)} {intermediates : List UInt8} {ignore : Bool}
    {action : Char} (hplain : (Action.csiDispatch params intermediates ignore action).Plain) :
    Agrees (p.csiDispatch params intermediates ignore action)
      (g.perform u (.csiDispatch params intermediates ignore action)) := by
  by_cases hmodes : ignore = false ∧ intermediates = [0x3f] ∧ (action = 'h' ∨ action = 'l')
  · obtain ⟨rfl, rfl, haction⟩ := hmodes
    have hgroups := hplain rfl rfl haction
    have hp : p.csiDispatch params [0x3f] false action =
      (flattenParams params).foldl (ProtocolPerformer.setPrivateMode (decide (action = 'h'))) p := by
      exact if_neg (by simpa using (not_or.mp · |>.elim fun h₁ h₂ => haction.elim h₁ h₂))
    have hperform : g.perform u (.csiDispatch params [0x3f] false action) =
        (flattenParams params).foldl (setPrivateMode (decide (action = 'h'))) g := by
      rcases haction with rfl | rfl
      · simpa [perform, csiDispatch] using fun group hgroup hne => absurd (hgroups group hgroup) hne
      · simpa [perform, csiDispatch] using fun group hgroup hne => absurd (hgroups group hgroup) hne
    rw [hp, hperform]
    exact agrees_setPrivateModes ha _ _
  · have hp : p.csiDispatch params intermediates ignore action = p := by
      exact if_pos (by grind)
    rw [hp]
    rcases perform_csiDispatch_cases hg.2.2 params intermediates ignore action with h | ⟨hignore, hprivate, haction, _⟩
    · exact h.agrees ha
    · exact absurd ⟨hignore, hprivate, haction⟩ hmodes

/-- Every call but a setting with sub-parameters keeps the two in agreement. -/
theorem agrees_perform {a : Action} (hplain : a.Plain) : Agrees (p.perform a) (g.perform u a) := by
  cases a with
  | print c => exact (edits_print hg.2.2 c).agrees ha
  | execute byte => exact (@edits_execute u g hg.2.2 byte).agrees ha
  | hook | put | unhook => exact ha
  | oscDispatch params bell => exact agrees_oscDispatch ha params
  | csiDispatch params intermediates ignore action => exact agrees_csiDispatch ha hg hplain
  | escDispatch intermediates ignore byte => exact agrees_escDispatch ha hg u intermediates ignore byte

end

theorem Edit.sized (h : Edit u g g') (hg : g.Sized) : g'.Sized := by
  obtain ⟨hwidth, hheight, _⟩ := h.frame
  exact ⟨hwidth ▸ hg.1, hheight ▸ hg.2.1, h.rows_ne_nil hg.2.2⟩

theorem Switch.sized (h : Switch g g') (hg : g.Sized) : g'.Sized := by
  cases h with
  | protocol q =>
    unfold setProtocol
    split <;> exact hg
  | alternate mode enabled =>
    unfold setAlternateMode
    split
    · exact hg
    · rename_i hmode
      split <;> split
      all_goals first
        | exact hg
        | rcases not_not.mp hmode with rfl | rfl | rfl <;> exact hg
  | reset => exact (reset_frame hg).2.2

theorem Sized.perform (hg : g.Sized) (a : Action) : (g.perform u a).Sized :=
  (calls_perform hg.2.2 a).induct (fun _ _ => Edit.sized) (fun _ _ => Switch.sized) hg

end TerminalGrid

/-! ## Whole streams -/

/-- The calls of a stream of chunks. An empty chunk does not reach the decoder. -/
def Parser.calls : Parser → List (List UInt8) → List Action
  | _, [] => []
  | p, bytes :: chunks => if bytes = [] then p.calls chunks else (p.advance bytes).1 ++ (p.advance bytes).2.calls chunks

namespace TerminalProtocolTracker
variable {u : Unicode} {t : TerminalProtocolTracker} {s : TerminalGridStream}

/-- The tracker and the stream decode from the same point and report the same. -/
structure Follows (t : TerminalProtocolTracker) (s : TerminalGridStream) : Prop where
  parser : t.parser = s.parser
  protocol : t.protocol = s.grid.protocol
  alternateScreen : t.alternateScreen = decide (s.grid.mode = .alternate)

theorem agrees_foldl {p : ProtocolPerformer} {g : TerminalGrid} (hg : g.Sized) (ha : g.Agrees p) {actions : List Action}
    (hplain : ∀ a ∈ actions, a.Plain) :
    (actions.foldl (TerminalGrid.perform u) g).Agrees (actions.foldl ProtocolPerformer.perform p) ∧
      (actions.foldl (TerminalGrid.perform u) g).Sized := by
  induction actions generalizing p g with
  | nil => exact ⟨ha, hg⟩
  | cons a actions ih =>
    obtain ⟨hhead, htail⟩ := forall_mem_cons.mp hplain
    exact ih (hg.perform a) (TerminalGrid.agrees_perform ha hg hhead) htail

/-- A chunk takes the tracker and the stream on together. -/
theorem follows_process (h : Follows t s) (hg : s.grid.Sized) {bytes : List UInt8} (hne : bytes ≠ [])
    (hplain : ∀ a ∈ (s.parser.advance bytes).1, a.Plain) :
    Follows (t.process bytes).1 (s.process u bytes) ∧ (s.process u bytes).grid.Sized ∧
      (s.process u bytes).parser = (s.parser.advance bytes).2 := by
  unfold process TerminalGridStream.process
  rw [if_neg hne, if_neg hne, h.parser]
  dsimp only
  obtain ⟨hagrees, hsized⟩ := agrees_foldl (u := u) hg
    (show s.grid.Agrees { protocol := t.protocol, alternateScreen := t.alternateScreen } from ⟨h.protocol,
      h.alternateScreen⟩) hplain
  split
  · exact ⟨⟨rfl, hagrees.1, hagrees.2⟩, hsized, rfl⟩
  · exact ⟨⟨rfl, hagrees.1, hagrees.2⟩, hsized, rfl⟩

/-- Fed the same chunks from the same state, the tracker and the stream report the same modes
and the same screen, as long as no setting of private modes has sub-parameters. -/
theorem tracker_agrees (u : Unicode) (h : Follows t s) (hg : s.grid.Sized) {chunks : List (List UInt8)}
    (hplain : ∀ a ∈ s.parser.calls chunks, a.Plain) :
    (chunks.foldl (fun t bytes => (t.process bytes).1) t).protocol =
    (chunks.foldl (TerminalGridStream.process u) s).grid.protocol ∧
      (chunks.foldl (fun t bytes => (t.process bytes).1) t).alternateScreen =
        decide ((chunks.foldl (TerminalGridStream.process u) s).grid.mode = .alternate) := by
  induction chunks generalizing t s with
  | nil => exact ⟨h.protocol, h.alternateScreen⟩
  | cons bytes chunks ih =>
    rw [foldl_cons, foldl_cons]
    by_cases hempty : bytes = []
    · rw [Parser.calls, if_pos hempty] at hplain
      have ht : (t.process bytes).1 = t := by
        rw [process, if_pos hempty]
      have hs : s.process u bytes = s := by
        rw [TerminalGridStream.process, if_pos hempty]
      rw [ht, hs]
      exact ih h hg hplain
    · rw [Parser.calls, if_neg hempty] at hplain
      obtain ⟨hfirst, hrest⟩ := forall_mem_append.mp hplain
      obtain ⟨hnext, hsized, hparser⟩ := follows_process (u := u) h hg hempty hfirst
      exact ih hnext hsized (hparser ▸ hrest)

end TerminalProtocolTracker

namespace Sample

/-- The modes of the mouse and of pasting and the alternate screen, in two chunks. -/
theorem tracker_agrees_on_modes :
    let chunks : List (List UInt8) := [[0x1b, 0x5b, 0x3f, 0x31, 0x30], [0x30, 0x30, 0x3b, 0x31, 0x30, 0x34, 0x39, 0x68]]
    (chunks.foldl (fun t bytes => (TerminalProtocolTracker.process t bytes).1) {}).protocol =
        (chunks.foldl (TerminalGridStream.process (unicode fun _ => false))
          (stream (unicode fun _ => false) 2 1 [])).grid.protocol ∧
      (chunks.foldl (fun t bytes => (TerminalProtocolTracker.process t bytes).1) {}).alternateScreen =
        decide ((chunks.foldl (TerminalGridStream.process (unicode fun _ => false))
          (stream (unicode fun _ => false) 2 1 [])).grid.mode = .alternate) :=
  TerminalProtocolTracker.tracker_agrees _ ⟨rfl, rfl, rfl⟩ ⟨by decide, by decide, by decide⟩ (by
    have hcalls : (stream (unicode fun _ => false) 2 1 []).parser.calls
        [[0x1b, 0x5b, 0x3f, 0x31, 0x30], [0x30, 0x30, 0x3b, 0x31, 0x30, 0x34, 0x39, 0x68]] =
          [.csiDispatch [[1000], [1049]] [0x3f] false 'h'] := by decide +kernel
    rw [hcalls]
    simp [Action.Plain])

/-- `CSI ? 1 : 2 h` sets the mode of the cursor keys in the tracker alone. -/
theorem tracker_disagrees :
    TerminalProtocolTracker.Follows {} (stream (unicode fun _ => false) 2 1 []) ∧
      (TerminalProtocolTracker.process {} [0x1b, 0x5b, 0x3f, 0x31, 0x3a, 0x32, 0x68]).1.protocol.applicationCursor =
        true ∧
      ((stream (unicode fun _ => false) 2 1 []).process (unicode fun _ => false)
        [0x1b, 0x5b, 0x3f, 0x31, 0x3a, 0x32, 0x68]).grid.protocol.applicationCursor = false :=
  ⟨⟨rfl, rfl, rfl⟩, by decide +kernel, by decide +kernel⟩

end Sample
end Bmux.Terminal
