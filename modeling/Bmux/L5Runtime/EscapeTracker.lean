import Bmux.L4Terminal.ParserHandoff
import Bmux.L5Runtime.OutputStream

/-!
# The escape tracker against the terminal's decoder

The tracker's ground phase is meant to be safe for a fresh decoder. A byte is missed when it ends the
tracker's sequence and not the decoder's: a C0 control or a byte past `~` after an ESC, and the BEL of
a string that an ESC has ended for the decoder alone. `ground_iff_none_missed`: the tracker is right
all along a stream when it misses no byte.
-/
namespace Bmux.Output
open Terminal Parser

/-- Where the decoder can be in each phase of the tracker. -/
def Near (phase : EscSeqPhase) (s : ParserState) : Prop :=
  match phase with
  | .ground => s = .text
  | .escape => s = .escape ∨ s = .escapeCollect
  | .csi => s = .text ∨ s = .csiStart ∨ s = .csiNumbers ∨ s = .csiCollect ∨ s = .csiDiscard
  | .oscEsc | .dcsEsc | .sosEsc => s = .escape ∨ s = .oscEscape
  | .osc | .dcs | .sos => True

def Missed (phase : EscSeqPhase) (s : ParserState) (b : UInt8) : Prop :=
  phase = .escape ∧ (b ≤ 0x1f ∧ b ≠ 0x18 ∧ b ≠ 0x1a ∧ b ≠ 0x1b ∨ 0x7e < b) ∨
    phase = .osc ∧ b = 0x07 ∧ s ≠ .osc ∧ s ≠ .text

variable {p : Parser} {b : UInt8}

theorem control_state : (p.control b).2.state =
    if b = 0x18 ∨ b = 0x1a then .text
    else if b = 0x1b then if p.state = .osc ∧ p.isPointerOsc then .oscEscape else .escape
    else if p.state = .oscEscape then if b = 0x5c then .text
      else ({ p with state := .escape }.clearHeader.escape b).2.state
    else (p.dispatch b).2.state := by
  by_cases hs : p.state = .oscEscape
  · rw [control_oscEscape hs, control_plain (by simp [Stringed, clearHeader])]
    simp only [dispatch, clearHeader]
    grind
  · simp only [Parser.control, pointerStringControl, hs]
    grind

theorem text_state (h : p.state = .text) (hb : b ≠ 0x1b) : (p.control b).2.state = .text := by
  rw [control_state]
  simp only [h, dispatch, text]
  grind

/-- A saved sequence makes no difference to the state. -/
theorem consume_state : (p.consume b).2.state = (p.control b).2.state := by
  unfold consume
  split_ifs with h
  · by_cases hb : b = 0x1b
    · simp [hb, continueUtf8, isContinuation, control_state, h.1]
    · rw [text_state h.1 hb]
      have hrest : ({ p with utf8 := [] }.control b).2.state = .text := text_state h.1 hb
      simp only [continueUtf8]
      split_ifs <;> simp_all
  · rfl

/-- The tracker stays near the decoder, unless it misses a byte: then it is in the ground phase too early. -/
theorem step_near {phase : EscSeqPhase} (h : Near phase p.state) :
    (Missed phase p.state b → phase.advance b = .ground ∧ (p.consume b).2.state ≠ .text) ∧
      (¬ Missed phase p.state b → Near (phase.advance b) (p.consume b).2.state) := by
  rw [consume_state, control_state]
  cases phase with
  | ground =>
    grind [Near, Missed, EscSeqPhase.advance, dispatch, text]
  | escape =>
    simp only [dispatch]
    by_cases hb : b ≤ 0x1f ∨ 0x7e < b <;> rcases h with h | h <;> simp only [h, Parser.escape] <;>
      grind [Near, Missed, EscSeqPhase.advance]
  | csi =>
    simp only [dispatch]
    rcases h with h | h | h | h | h <;> simp only [h, text, Parser.header] <;> grind [Near, Missed, EscSeqPhase.advance]
  | osc =>
    by_cases hb : b = 0x07
    · subst hb
      cases hs : p.state <;>
        simp [Missed, Near, EscSeqPhase.advance, dispatch, hs, Parser.escape, Parser.header, text, oscByte, clearHeader]
    · grind [Near, Missed, EscSeqPhase.advance]
  | dcs | sos => grind [Near, Missed, EscSeqPhase.advance]
  | _ =>
    by_cases hb : b = 0x5c
    · subst hb
      rcases h with h | h <;> simp [Missed, Near, EscSeqPhase.advance, dispatch, h, Parser.escape]
    · rcases h with h | h <;> grind [Near, Missed, EscSeqPhase.advance]

/-! ## Along a stream -/

variable {stream : Bytes} {o : Nat}

/-- The state of a decoder fed with some of the stream. -/
def stateAt (stream : Bytes) (o : Nat) : ParserState := (advance {} (stream.take o)).2.state

def NearAt (stream : Bytes) (o : Nat) : Prop := Near (phaseAt stream o) (stateAt stream o)

def MissedAt (stream : Bytes) (o : Nat) : Prop :=
  ∃ b, stream[o]? = some b ∧ Missed (phaseAt stream o) (stateAt stream o) b

theorem step_at (ho : o < stream.length) (h : NearAt stream o) :
    (MissedAt stream o → phaseAt stream (o + 1) = .ground ∧ stateAt stream (o + 1) ≠ .text) ∧
      (¬ MissedAt stream o → NearAt stream (o + 1)) := by
  obtain ⟨b, hb⟩ : ∃ b, stream[o]? = some b := ⟨_, List.getElem?_eq_getElem ho⟩
  have hphase : phaseAt stream (o + 1) = (phaseAt stream o).advance b := by
    simp [phaseAt, List.take_add_one, hb]
  have hstate : stateAt stream (o + 1) = ((after {} (stream.take o)).consume b).2.state := by
    show (after {} (stream.take (o + 1))).state = _
    rw [List.take_add_one, hb, after_append]
    rfl
  simp only [MissedAt, NearAt, hb, hphase, hstate, Option.some.injEq, exists_eq_left']
  exact step_near h

theorem near_at (hs : ∀ o < stream.length, NearAt stream o → ¬ MissedAt stream o) : ∀ o ≤ stream.length, NearAt stream o
  | 0, _ => rfl
  | o + 1, ho => by
    have h := near_at hs o (by omega)
    exact (step_at ho h).2 (hs o ho h)

/-- **The escape tracker.** A ground phase means text at every offset exactly if no byte of the stream is missed. -/
theorem ground_iff_none_missed (stream : Bytes) :
    (∀ o ≤ stream.length, phaseAt stream o = .ground → stateAt stream o = .text) ↔
      ∀ o < stream.length, ¬ MissedAt stream o := by
  constructor
  · intro h
    have hs : ∀ o < stream.length, NearAt stream o → ¬ MissedAt stream o := by
      intro o ho hnear hm
      obtain ⟨hground, htext⟩ := (step_at ho hnear).1 hm
      exact htext (h (o + 1) ho hground)
    exact fun o ho => hs o ho (near_at hs o ho.le)
  · intro h o ho hground
    have hnear := near_at (fun o ho _ => h o ho) o ho
    rwa [NearAt, hground] at hnear

/-- ESC NUL: the tracker is back in its ground phase, the decoder waits for the rest of the sequence. -/
theorem Sample.escape_control :
    ¬ ∀ stream : Bytes, phaseAt stream stream.length = .ground → stateAt stream stream.length = .text :=
  fun h => absurd (h [0x1b, 0x00] rfl) (by decide)

end Bmux.Output
