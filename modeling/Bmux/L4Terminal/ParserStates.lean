import Bmux.L4Terminal.VtParser

/-!
# What a decoder shows of its past

A decoder keeps more than its later calls depend on: the header of a sequence that is over, the
payload of a pointer request that is too long. `Alike` compares what they do depend on.

* `alike_consume`, `alike_advance`: alike decoders make the same calls and stay alike.
  So they make the same calls on any chunks (`alike_feed` in `ParserHandoff`).
* `Sound`: what holds of a decoder between two chunks, by its state (`sound_advance`).
-/
namespace Bmux.Terminal
open List Params

namespace Parser

variable {p q : Parser} {b : UInt8}

/-! ## Alike decoders -/

/-- What a decoder remembers in its state. 32 parameters are as good as too many, and so is any
payload of a pointer request as good as any other once the request is too long. -/
def Remembers (p q : Parser) : Prop :=
  match p.state with
  | .text | .csiDiscard | .dcsDiscard | .dcsData | .stringDiscard => True
  | .escape | .escapeCollect => q.intermediates = p.intermediates ∧ q.ignored = p.ignored
  | .csiStart | .csiNumbers | .csiCollect | .dcsStart | .dcsNumbers | .dcsCollect =>
    q.params = p.params ∧ q.number = p.number ∧ q.intermediates = p.intermediates ∧
      (p.params.used = 32 ∨ q.ignored = p.ignored)
  | .osc | .oscEscape =>
    (q.osc = p.osc ∧ q.oscEnds = p.oscEnds ∧ q.oscOverflow = p.oscOverflow) ∨
      (p.isPointerOsc ∧ p.oscOverflow ∧ q.isPointerOsc ∧ q.oscOverflow)

structure Alike (p q : Parser) : Prop where
  state : q.state = p.state
  utf8 : q.utf8 = p.utf8
  expected : p.utf8 ≠ [] → q.utf8Expected = p.utf8Expected
  remembers : Remembers p q

theorem Alike.of_nil (hs : q.state = p.state) (hp : p.utf8 = []) (hq : q.utf8 = []) (hr : Remembers p q) : Alike p q :=
  ⟨hs, hq.trans hp.symm, fun hne => absurd hp hne, hr⟩

/-- The same calls, and decoders that are alike. -/
def Agree (r r' : List Action × Parser) : Prop := r'.1 = r.1 ∧ Alike r.2 r'.2

/-! ### Headers -/

def Headed (σ : ParserState) : Prop :=
  σ = .csiStart ∨ σ = .csiNumbers ∨ σ = .csiCollect ∨ σ = .dcsStart ∨ σ = .dcsNumbers ∨ σ = .dcsCollect

theorem remembers_header (hs : Headed p.state) : Remembers p q ↔
    q.params = p.params ∧ q.number = p.number ∧ q.intermediates = p.intermediates ∧
      (p.params.used = 32 ∨ q.ignored = p.ignored) := by
  rcases hs with hs | hs | hs | hs | hs | hs <;> simp only [Remembers, hs]

theorem finish_full {ps : Params} (h : ps.used = 32) (value : Nat) : (ps.finish value).1 = false := by
  simp only [finish, append, h, CAPACITY]
  simp
  split <;> rfl

/-! ### OSC strings -/

def Stringed (σ : ParserState) : Prop := σ = .osc ∨ σ = .oscEscape

theorem remembers_osc (hs : Stringed p.state) : Remembers p q ↔
    (q.osc = p.osc ∧ q.oscEnds = p.oscEnds ∧ q.oscOverflow = p.oscOverflow) ∨
      (p.isPointerOsc ∧ p.oscOverflow ∧ q.isPointerOsc ∧ q.oscOverflow) := by
  rcases hs with hs | hs <;> simp only [Remembers, hs]

theorem isPointerOsc_iff : p.isPointerOsc = true ↔ p.oscEnds.head? = some 2 ∧ p.osc.take 2 = [0x32, 0x32] := by
  simp [isPointerOsc]

theorem isPointerOsc_false : p.isPointerOsc = false ↔ ¬ (p.oscEnds.head? = some 2 ∧ p.osc.take 2 = [0x32, 0x32]) := by
  rw [Bool.eq_false_iff, ne_eq, isPointerOsc_iff]

theorem isPointerOsc_store (h : p.isPointerOsc = true) : { p with osc := p.osc ++ [b] }.isPointerOsc = true := by
  rw [isPointerOsc_iff] at h ⊢
  refine ⟨h.1, ?_⟩
  have hlen : 2 ≤ p.osc.length := by
    have := congrArg List.length h.2
    simp at this
    omega
  rw [take_append_of_le_length hlen, h.2]

theorem isPointerOsc_close (h : p.isPointerOsc = true) (n : Nat) :
    { p with oscEnds := p.oscEnds ++ [n] }.isPointerOsc = true := by
  rw [isPointerOsc_iff] at h ⊢
  refine ⟨?_, h.2⟩
  rw [head?_append, h.1]
  rfl

theorem isPointerOsc_congr (hosc : q.osc = p.osc) (hends : q.oscEnds = p.oscEnds) :
    q.isPointerOsc = p.isPointerOsc := by
  rw [isPointerOsc, isPointerOsc, hosc, hends]

theorem endString_osc (hs : Stringed p.state) (bell : Bool) : p.endString bell =
    if p.isPointerOsc && p.oscOverflow then ([], p)
    else ([.oscDispatch (oscArgs p.osc 0 (if p.oscEnds.length < 16 then p.oscEnds ++ [p.osc.length]
      else p.oscEnds)) bell],
      { p with oscEnds := if p.oscEnds.length < 16 then p.oscEnds ++ [p.osc.length] else p.oscEnds }) := by
  unfold endString
  rcases hs with hs | hs <;> simp only [hs] <;> split_ifs <;> simp [← hs]

theorem oscByte_frame (hb : b ≠ 0x07) : (p.oscByte b).1 = [] ∧ (p.oscByte b).2.state = p.state ∧
    (p.oscByte b).2.utf8 = p.utf8 ∧ (p.oscByte b).2.utf8Expected = p.utf8Expected := by
  unfold oscByte
  rw [if_neg hb]
  split_ifs <;> exact ⟨rfl, rfl, rfl, rfl⟩

theorem oscByte_congr (hb : b ≠ 0x07) (hosc : q.osc = p.osc) (hends : q.oscEnds = p.oscEnds)
    (hover : q.oscOverflow = p.oscOverflow) : (q.oscByte b).2.osc = (p.oscByte b).2.osc ∧
      (q.oscByte b).2.oscEnds = (p.oscByte b).2.oscEnds ∧
      (q.oscByte b).2.oscOverflow = (p.oscByte b).2.oscOverflow := by
  unfold oscByte
  rw [if_neg hb, isPointerOsc_congr hosc hends, hosc, hends]
  split_ifs <;> simp [hosc, hends, hover]

theorem oscByte_pointer (hb : b ≠ 0x07) (h : p.isPointerOsc = true) :
    (p.oscByte b).2.isPointerOsc = true ∧ (p.oscOverflow = true → (p.oscByte b).2.oscOverflow = true) := by
  unfold oscByte
  rw [if_neg hb]
  split_ifs
  · exact ⟨h, fun _ => rfl⟩
  · exact ⟨isPointerOsc_close h _, id⟩
  · exact ⟨h, fun _ => rfl⟩
  · exact ⟨isPointerOsc_store h, id⟩
  · exact ⟨h, fun _ => rfl⟩

/-! ### One byte -/

theorem control_plain (hs : ¬ Stringed p.state) : p.control b =
    if b = 0x18 ∨ b = 0x1a then ((if p.state = .dcsData then [.unhook] else []) ++ [.execute b],
      { p with state := .text })
    else if b = 0x1b then (if p.state = .dcsData then [.unhook] else [], { p.clearHeader with state := .escape })
    else p.dispatch b := by
  obtain ⟨hosc, hesc⟩ := not_or.mp hs
  have hpointer : p.pointerStringControl b = (false, [], p) := by simp [pointerStringControl, hosc, hesc]
  have hend : p.endString false = (if p.state = .dcsData then [.unhook] else [], p) := by
    unfold endString
    cases hstate : p.state <;> first | rfl | exact absurd hstate hosc | exact absurd hstate hesc
  simp only [control, hpointer, hend]
  rfl

/-- A pointer request waits for its end. -/
theorem control_pointer (hs : p.state = .osc) (hp : p.isPointerOsc = true) : p.control b =
    if b = 0x1b then ([], { p with state := .oscEscape })
    else if b = 0x18 ∨ b = 0x1a then ([], { p with state := .text })
    else p.oscByte b := by
  simp only [control, pointerStringControl, hs, hp]
  split_ifs <;> simp_all [dispatch]

theorem control_osc (hs : p.state = .osc) (hp : p.isPointerOsc = false) : p.control b =
    if b = 0x18 ∨ b = 0x1a then ((p.endString false).1 ++ [.execute b], { (p.endString false).2 with state := .text })
    else if b = 0x1b then ((p.endString false).1, { (p.endString false).2.clearHeader with state := .escape })
    else p.oscByte b := by
  simp only [control, pointerStringControl, hs, hp]
  split_ifs <;> simp_all [dispatch]

theorem control_oscEscape (hs : p.state = .oscEscape) : p.control b =
    if b = 0x5c then ((p.endString false).1, { (p.endString false).2 with state := .text })
    else { p with state := .escape }.clearHeader.control b := by
  by_cases hb : b = 0x5c
  · simp [control, pointerStringControl, hs, hb]
  · simp [control, pointerStringControl, hs, hb, clearHeader]

/-! ### Two decoders -/

section
variable (h : Alike p q)
include h

theorem Alike.reset {σ : ParserState}
    (hσ : σ = .text ∨ σ = .csiDiscard ∨ σ = .dcsDiscard ∨ σ = .dcsData ∨ σ = .stringDiscard) :
    Alike { p with state := σ } { q with state := σ } := by
  refine ⟨rfl, h.utf8, h.expected, ?_⟩
  rcases hσ with rfl | rfl | rfl | rfl | rfl <;> trivial

theorem Alike.clearHeader {σ : ParserState} (hσ : σ = .escape ∨ σ = .csiStart ∨ σ = .dcsStart) :
    Alike { p.clearHeader with state := σ } { q.clearHeader with state := σ } := by
  refine ⟨rfl, h.utf8, h.expected, ?_⟩
  rcases hσ with rfl | rfl | rfl
  · exact ⟨rfl, rfl⟩
  · exact ⟨rfl, rfl, rfl, .inr rfl⟩
  · exact ⟨rfl, rfl, rfl, .inr rfl⟩

theorem alike_text (hs : p.state = .text) : Agree (p.text b) (q.text b) := by
  unfold text
  -- the length that a saved byte announces is left as it is
  generalize (if b < 0xe0 then 2 else if b < 0xf0 then 3 else 4) = expected
  split_ifs
  · exact ⟨rfl, h⟩
  · exact ⟨rfl, h⟩
  · exact ⟨rfl, h.state, rfl, fun _ => rfl, by simp [Remembers, hs]⟩
  · exact ⟨rfl, h⟩

theorem alike_escape (hs : p.state = .escape ∨ p.state = .escapeCollect) :
    Agree (p.escape b) (q.escape b) := by
  obtain ⟨hi, hig⟩ : q.intermediates = p.intermediates ∧ q.ignored = p.ignored := by
    have hr := h.remembers
    rcases hs with hs | hs <;> simpa only [Remembers, hs] using hr
  unfold escape collect
  rw [h.state, hi, hig]
  split_ifs
  · exact ⟨rfl, h⟩
  · exact ⟨rfl, rfl, h.utf8, h.expected, rfl, rfl⟩
  · exact ⟨rfl, rfl, h.utf8, h.expected, rfl, rfl⟩
  · exact ⟨rfl, h.clearHeader (by simp)⟩
  · exact ⟨rfl, h.clearHeader (by simp)⟩
  · exact ⟨rfl, rfl, h.utf8, h.expected, .inl ⟨rfl, rfl, rfl⟩⟩
  · exact ⟨rfl, rfl, h.utf8, h.expected, trivial⟩
  · exact ⟨rfl, rfl, h.utf8, h.expected, trivial⟩
  · exact ⟨rfl, h⟩

theorem Alike.headed {p' q' : Parser} (hs : Headed p'.state) (hstate : q'.state = p'.state)
    (hp : p'.utf8 = p.utf8 ∧ p'.utf8Expected = p.utf8Expected)
    (hq : q'.utf8 = q.utf8 ∧ q'.utf8Expected = q.utf8Expected)
    (hr : q'.params = p'.params ∧ q'.number = p'.number ∧ q'.intermediates = p'.intermediates ∧
      (p'.params.used = 32 ∨ q'.ignored = p'.ignored)) : Alike p' q' where
  state := hstate
  utf8 := by rw [hq.1, hp.1, h.utf8]
  expected := by rw [hp.1, hq.2, hp.2]; exact h.expected
  remembers := (remembers_header hs).mpr hr

/-- A byte in a header is answered alike. -/
theorem alike_header (hs : Headed p.state) : Agree (p.header b) (q.header b) := by
  obtain ⟨hpar, hnum, hint, hig⟩ := (remembers_header hs).mp h.remembers
  unfold header
  simp only [h.state]
  have hcollect : ∀ σ, Headed σ → Alike { p.collect b with state := σ } { q.collect b with state := σ } := by
    intro σ hσ
    unfold collect
    rw [hint]
    split_ifs
    · exact h.headed hσ rfl ⟨rfl, rfl⟩ ⟨rfl, rfl⟩ ⟨hpar, hnum, rfl, hig⟩
    · exact h.headed hσ rfl ⟨rfl, rfl⟩ ⟨rfl, rfl⟩ ⟨hpar, hnum, rfl, .inr rfl⟩
  have hparameter : ∀ σ, Headed σ → Alike { p.parameter b with state := σ } { q.parameter b with state := σ } := by
    intro σ hσ
    unfold parameter
    rw [hpar, hnum]
    split_ifs with hfull hdigit hsep
    · exact h.headed hσ rfl ⟨rfl, rfl⟩ ⟨rfl, rfl⟩ ⟨rfl, rfl, hint, .inr rfl⟩
    · exact h.headed hσ rfl ⟨rfl, rfl⟩ ⟨rfl, rfl⟩ ⟨rfl, rfl, hint, hig⟩
    · exact h.headed hσ rfl ⟨rfl, rfl⟩ ⟨rfl, rfl⟩ ⟨rfl, rfl, hint, .inr (hig.resolve_left hfull)⟩
    · exact h.headed hσ rfl ⟨rfl, rfl⟩ ⟨rfl, rfl⟩ ⟨hpar, hnum, hint, hig⟩
  -- the sequence is ignored with 32 parameters whatever came before
  have hfinish : q.finishHeader.params = p.finishHeader.params ∧
    q.finishHeader.intermediates = p.finishHeader.intermediates ∧
      q.finishHeader.ignored = p.finishHeader.ignored := by
    unfold finishHeader
    rw [hpar, hnum]
    refine ⟨rfl, hint, ?_⟩
    rcases hig with hfull | hig
    · simp [finish_full hfull]
    · simp [hig]
  obtain ⟨hfp, hfi, hfg⟩ := hfinish
  split_ifs
  all_goals first
    | exact ⟨rfl, h⟩
    | exact ⟨rfl, hcollect _ (by simp [Headed])⟩
    | exact ⟨rfl, hparameter _ (by simp [Headed])⟩
    | exact ⟨rfl, h.reset (by simp)⟩
    | exact ⟨by simp [hfp, hfi, hfg], rfl, h.utf8, h.expected, trivial⟩

theorem alike_endString (hs : Stringed p.state) (bell : Bool) :
    (q.endString bell).1 = (p.endString bell).1 ∧ (q.endString bell).2.utf8 = (p.endString bell).2.utf8 ∧
      ((p.endString bell).2.utf8 ≠ [] → (q.endString bell).2.utf8Expected = (p.endString bell).2.utf8Expected) := by
  have hq : Stringed q.state := by rw [h.state]; exact hs
  rw [endString_osc hs, endString_osc hq]
  rcases (remembers_osc hs).mp h.remembers with ⟨hosc, hends, hover⟩ | ⟨hpp, hpo, hqp, hqo⟩
  · rw [isPointerOsc_congr hosc hends, hosc, hends, hover]
    split_ifs <;> exact ⟨rfl, h.utf8, h.expected⟩
  · rw [hpp, hpo, hqp, hqo]
    exact ⟨rfl, h.utf8, h.expected⟩

theorem alike_oscByte (hs : p.state = .osc) : Agree (p.oscByte b) (q.oscByte b) := by
  by_cases hb : b = 0x07
  · obtain ⟨hcalls, hutf8, hexp⟩ := alike_endString h (.inl hs) true
    unfold oscByte
    rw [if_pos hb, if_pos hb]
    exact ⟨hcalls, rfl, hutf8, hexp, trivial⟩
  obtain ⟨hpc, hps, hpu, hpe⟩ := oscByte_frame (p := p) hb
  obtain ⟨hqc, hqs, hqu, hqe⟩ := oscByte_frame (p := q) hb
  refine ⟨by rw [hpc, hqc], by rw [hqs, hps, h.state], by rw [hqu, hpu, h.utf8],
    by rw [hpu, hqe, hpe]; exact h.expected, ?_⟩
  rw [remembers_osc (.inl (hps.trans hs))]
  rcases (remembers_osc (.inl hs)).mp h.remembers with ⟨hosc, hends, hover⟩ | ⟨hpp, hpo, hqp, hqo⟩
  · exact .inl (oscByte_congr hb hosc hends hover)
  · obtain ⟨hp₁, hp₂⟩ := oscByte_pointer hb hpp
    obtain ⟨hq₁, hq₂⟩ := oscByte_pointer hb hqp
    exact .inr ⟨hp₁, hp₂ hpo, hq₁, hq₂ hqo⟩

theorem alike_dispatch (hs : p.state ≠ .oscEscape) : Agree (p.dispatch b) (q.dispatch b) := by
  have hq := h.state
  unfold dispatch
  rw [hq]
  cases hstate : p.state with
  | text => exact alike_text h hstate
  | escape => exact alike_escape h (.inl hstate)
  | escapeCollect => exact alike_escape h (.inr hstate)
  | osc => exact alike_oscByte h hstate
  | oscEscape => exact absurd hstate hs
  | stringDiscard => exact ⟨rfl, h⟩
  | csiDiscard =>
    dsimp only
    split_ifs
    · exact ⟨rfl, h⟩
    · exact ⟨rfl, h.reset (by simp)⟩
    · exact ⟨rfl, h⟩
  | dcsData =>
    dsimp only
    split_ifs
    · exact ⟨rfl, h.reset (by simp)⟩
    · exact ⟨rfl, h⟩
    · exact ⟨rfl, h⟩
  | dcsDiscard =>
    dsimp only
    split_ifs
    · exact ⟨rfl, h.reset (by simp)⟩
    · exact ⟨rfl, h⟩
  | _ => exact alike_header h (by simp [Headed, hstate])

theorem alike_pointer (hs : Stringed p.state) : q.isPointerOsc = p.isPointerOsc := by
  rcases (remembers_osc hs).mp h.remembers with ⟨hosc, hends, -⟩ | ⟨hpp, -, hqp, -⟩
  · exact isPointerOsc_congr hosc hends
  · rw [hpp, hqp]

/-- A byte outside of a saved sequence is answered alike. -/
theorem alike_control : Agree (p.control b) (q.control b) := by
  have hplain : ∀ {p q : Parser}, Alike p q → ¬ Stringed p.state → Agree (p.control b) (q.control b) := by
    intro p q h hs
    rw [control_plain hs, control_plain (by rwa [h.state]), h.state]
    split_ifs
    · exact ⟨rfl, h.reset (by simp)⟩
    · exact ⟨rfl, h.reset (by simp)⟩
    · exact ⟨rfl, h.clearHeader (by simp)⟩
    · exact ⟨rfl, h.clearHeader (by simp)⟩
    · exact alike_dispatch h (not_or.mp hs).2
  by_cases hs : Stringed p.state
  · obtain ⟨hcalls, hutf8, hexp⟩ := alike_endString h hs false
    have hpointer := alike_pointer h hs
    rcases hs with hs | hs
    · cases hp : p.isPointerOsc with
      | true =>
        rw [control_pointer hs hp, control_pointer (h.state.trans hs) (hpointer.trans hp)]
        split_ifs
        · refine ⟨rfl, rfl, h.utf8, h.expected, ?_⟩
          exact (remembers_osc (.inr rfl)).mpr ((remembers_osc (.inl hs)).mp h.remembers)
        · exact ⟨rfl, h.reset (by simp)⟩
        · exact alike_oscByte h hs
      | false =>
        rw [control_osc hs hp, control_osc (h.state.trans hs) (hpointer.trans hp)]
        split_ifs
        · exact ⟨by rw [hcalls], rfl, hutf8, hexp, trivial⟩
        · exact ⟨hcalls, rfl, hutf8, hexp, rfl, rfl⟩
        · exact alike_oscByte h hs
    · rw [control_oscEscape hs, control_oscEscape (h.state.trans hs)]
      split_ifs
      · exact ⟨hcalls, rfl, hutf8, hexp, trivial⟩
      · apply hplain (h.clearHeader (.inl rfl))
        simp [Stringed]
  · exact hplain h hs

theorem Alike.saved (hs : p.state = .text) (hne : p.utf8 ≠ []) (bytes : List UInt8) :
    Alike { p with utf8 := bytes } { q with utf8 := bytes } :=
  ⟨h.state, rfl, fun _ => h.expected hne, by simp [Remembers, hs]⟩

theorem alike_continueUtf8 (hs : p.state = .text) (hne : p.utf8 ≠ []) :
    (q.continueUtf8 b).1 = (p.continueUtf8 b).1 ∧ Agree (p.continueUtf8 b).2 (q.continueUtf8 b).2 := by
  have hsaved : ∀ bytes, Alike { p with utf8 := bytes } { q with utf8 := bytes } := h.saved hs hne
  have hfull : (p.utf8 ++ [b]).length = q.utf8Expected ↔ (p.utf8 ++ [b]).length = p.utf8Expected := by
    rw [h.expected hne]
  simp only [continueUtf8, h.utf8, hfull]
  split_ifs
  · exact ⟨rfl, rfl, hsaved _⟩
  · exact ⟨rfl, rfl, hsaved _⟩
  · exact ⟨rfl, rfl, hsaved _⟩

theorem alike_consume : Agree (p.consume b) (q.consume b) := by
  by_cases htext : p.state = .text ∧ p.utf8 ≠ []
  · obtain ⟨hdone, hcalls, halike⟩ := alike_continueUtf8 (b := b) h htext.1 htext.2
    simp only [consume, h.state, h.utf8, if_pos htext, hdone]
    split_ifs
    · exact ⟨hcalls, halike⟩
    · obtain ⟨hrest, halike⟩ := alike_control (b := b) halike
      exact ⟨by rw [hcalls, hrest], halike⟩
  · simp only [consume, h.state, h.utf8, if_neg htext]
    exact alike_control h

theorem alike_consumeAll (bytes : List UInt8) : Agree (p.consumeAll bytes) (q.consumeAll bytes) := by
  induction bytes generalizing p q with
  | nil => exact ⟨rfl, h⟩
  | cons b bytes ih =>
    obtain ⟨hcalls, halike⟩ := alike_consume (b := b) h
    obtain ⟨hrest, halike⟩ := ih halike
    exact ⟨by simp only [consumeAll, hcalls, hrest], halike⟩

/-- Saved bytes outlive a chunk only in text. -/
def Settled (p : Parser) : Prop := p.utf8 ≠ [] → p.state = .text

theorem alike_completeSavedUtf8 (hs : p.state = .text) (hne : p.utf8 ≠ []) (added : Nat) :
    (q.completeSavedUtf8 added).1 = (p.completeSavedUtf8 added).1 ∧
      Agree (p.completeSavedUtf8 added).2 (q.completeSavedUtf8 added).2 := by
  simp only [completeSavedUtf8, h.utf8]
  split
  · split
    · exact ⟨rfl, rfl, h.saved hs hne _⟩
    · exact ⟨rfl, rfl, h.saved hs hne _⟩
  · exact ⟨rfl, rfl, h.saved hs hne _⟩
  · exact ⟨rfl, rfl, h⟩

theorem alike_advance (hp : p.Settled) (bytes : List UInt8) : Agree (p.advance bytes) (q.advance bytes) := by
  simp only [advance, h.utf8]
  split_ifs with hne
  · have hs := hp hne
    obtain ⟨hread, hcalls, halike⟩ := alike_completeSavedUtf8
      (h.saved hs hne (p.utf8 ++ bytes.take (min (4 - p.utf8.length) bytes.length))) hs (by simp [hne])
      (min (4 - p.utf8.length) bytes.length)
    rw [hread]
    obtain ⟨hrest, halike⟩ := alike_consumeAll halike _
    exact ⟨by rw [hcalls, hrest], halike⟩
  · exact alike_consumeAll h bytes

end

/-! ## Sound decoders -/

def announced (first : UInt8) : Nat := if first < 0xe0 then 2 else if first < 0xf0 then 3 else 4

/-- The bytes collected so far are a marker and what comes after the parameters. -/
structure Collected (p : Parser) (marker rest : List UInt8) : Prop where
  isMarker : marker = [] ∨ ∃ m, 0x3c ≤ m ∧ m ≤ 0x3f ∧ marker = [m]
  split : p.intermediates = marker ++ rest
  ordinary : ∀ b ∈ rest, 0x20 ≤ b ∧ b ≤ 0x2f
  fits : p.intermediates.length ≤ 2

structure Numeric (p : Parser) : Prop where
  used : p.params.used ≤ 32
  full : p.params.used = 32 → p.number = 0
  number : p.number ≤ 65535
  closed : ∀ group ∈ p.params.closed, group ≠ [] ∧ ∀ v ∈ group, v ≤ 65535
  current : ∀ v ∈ p.params.current, v ≤ 65535

structure Stored (p : Parser) : Prop where
  bytes : ∀ b ∈ p.osc, 0x20 ≤ b ∧ b ≠ 0x3b
  fits : p.osc.length ≤ OSC_RAW_BUF_SIZE
  args : p.oscEnds.length ≤ 16
  sorted : p.oscEnds.Pairwise (· ≤ ·)
  ends : ∀ e ∈ p.oscEnds, e ≤ p.osc.length
  full : p.oscEnds.length = 16 → p.oscEnds.getLast? = some p.osc.length
  overflow : p.oscOverflow = true → p.isPointerOsc = true ∨ p.osc.length = OSC_RAW_BUF_SIZE ∨ p.oscEnds.length = 16

def SoundState (p : Parser) : Prop :=
  match p.state with
  | .text | .csiDiscard | .dcsDiscard | .dcsData | .stringDiscard => True
  | .escape => p.intermediates = [] ∧ p.ignored = false
  | .escapeCollect => ∃ rest, rest ≠ [] ∧ p.Collected [] rest ∧ (p.ignored = true → p.intermediates.length = 2)
  | .csiStart | .dcsStart => p.params = {} ∧ p.number = 0 ∧ p.intermediates = [] ∧ p.ignored = false
  | .csiNumbers | .dcsNumbers =>
    p.Numeric ∧ (∃ marker, p.Collected marker []) ∧ (p.ignored = true → p.params.used = 32)
  | .csiCollect | .dcsCollect =>
    p.Numeric ∧ ∃ marker rest, rest ≠ [] ∧ p.Collected marker rest ∧
      (p.ignored = true → p.params.used = 32 ∨ p.intermediates.length = 2)
  | .osc => p.Stored
  | .oscEscape => p.Stored ∧ p.isPointerOsc = true

structure Sound (p : Parser) : Prop where
  begun : p.utf8 ≠ [] → p.state = .text ∧ utf8Head p.utf8 = .incomplete ∧ p.utf8Expected = announced (p.utf8.headD 0)
  state : p.SoundState

theorem sound_new : Sound {} := ⟨fun h => absurd rfl h, trivial⟩

theorem Sound.of_state (hu : p.utf8 = []) (h : p.SoundState) : p.Sound := ⟨fun hne => absurd hu hne, h⟩

/-- A byte is ignored only if the storage is full, unless bytes are ignored for another reason. -/
theorem Collected.collect {marker rest : List UInt8} (h : p.Collected marker rest) {A : Prop}
    (hig : p.ignored = true → A ∨ p.intermediates.length = 2) (hb : 0x20 ≤ b ∧ b ≤ 0x2f) :
    ∃ rest', rest' ≠ [] ∧ (p.collect b).Collected marker rest' ∧
      ((p.collect b).ignored = true → A ∨ (p.collect b).intermediates.length = 2) := by
  unfold Parser.collect
  have hlen := congrArg List.length h.split
  have hmarker : marker.length ≤ 1 := by
    rcases h.isMarker with rfl | ⟨m, -, -, rfl⟩ <;> simp
  split_ifs with hroom
  · refine ⟨rest ++ [b], by simp, ⟨h.isMarker, ?_, ?_, ?_⟩, fun hi => .inl ((hig hi).resolve_right (by omega))⟩
    · rw [h.split, append_assoc]
    · exact forall_mem_append.mpr ⟨h.ordinary, forall_mem_singleton.mpr hb⟩
    · rw [length_append]
      exact hroom
  · have htwo : p.intermediates.length = 2 := by have := h.fits; omega
    refine ⟨rest, ?_, { h with }, fun _ => .inr htwo⟩
    rintro rfl
    rw [append_nil] at hlen
    omega

theorem Numeric.collect (h : p.Numeric) : (p.collect b).Numeric := by
  unfold Parser.collect
  split_ifs <;> exact { h with }

theorem collect_params : (p.collect b).params = p.params := by
  unfold collect
  split_ifs <;> rfl

theorem collect_utf8 : (p.collect b).utf8 = p.utf8 := by
  unfold collect
  split_ifs <;> rfl

theorem numeric_start (hp : p.params = {}) (hn : p.number = 0) : p.Numeric := by
  refine ⟨?_, fun _ => hn, by omega, ?_, ?_⟩ <;> rw [hp]
  · exact zero_le
  · nofun
  · nofun

theorem used_append {ps : Params} {value : Nat} {close : Bool} (h : ps.used < 32) :
    (ps.append value close).2.used = ps.used + 1 := by
  unfold append
  rw [if_neg (by simp only [CAPACITY]; omega)]
  cases close <;> simp [used] <;> omega

theorem Numeric.parameter (h : p.Numeric) : (p.parameter b).Numeric := by
  unfold Parser.parameter
  split_ifs with hfull hdigit hsep
  · exact { h with }
  · exact ⟨h.used, fun hu => absurd hu hfull, min_le_right _ _, h.closed, h.current⟩
  · have hlt : p.params.used < 32 := by have := h.used; omega
    have hvalues : (∀ group ∈ (p.params.append p.number (decide (b = 0x3b))).2.closed, group ≠ [] ∧
      ∀ v ∈ group, v ≤ 65535) ∧
        ∀ v ∈ (p.params.append p.number (decide (b = 0x3b))).2.current, v ≤ 65535 := by
      have hopen : ∀ v ∈ p.params.current ++ [p.number], v ≤ 65535 :=
        forall_mem_append.mpr ⟨h.current, forall_mem_singleton.mpr h.number⟩
      unfold append
      rw [if_neg (by simp only [CAPACITY]; omega)]
      split_ifs
      · exact ⟨forall_mem_append.mpr ⟨h.closed, forall_mem_singleton.mpr ⟨by simp, hopen⟩⟩, nofun⟩
      · exact ⟨h.closed, hopen⟩
    exact ⟨by rw [used_append hlt]; omega, fun _ => rfl, zero_le, hvalues.1, hvalues.2⟩
  · exact h

/-- A parameter is ignored only after the last one that fits. -/
theorem parameter_ignored (h : p.ignored = true → p.params.used = 32) :
    (p.parameter b).ignored = true → (p.parameter b).params.used = 32 := by
  unfold parameter
  split_ifs with hfull hdigit hsep
  · exact fun _ => hfull
  · exact h
  · exact fun hi => absurd (h hi) hfull
  · exact h

theorem parameter_frame : (p.parameter b).intermediates = p.intermediates ∧ (p.parameter b).utf8 = p.utf8 := by
  unfold parameter
  split_ifs <;> exact ⟨rfl, rfl⟩

structure HeaderParts (p : Parser) (marker rest : List UInt8) : Prop where
  numeric : p.Numeric
  collected : p.Collected marker rest
  ignored : p.ignored = true → p.params.used = 32 ∨ p.intermediates.length = 2
  entry : p.state = .csiStart ∨ p.state = .dcsStart →
    p.params = {} ∧ p.number = 0 ∧ p.intermediates = [] ∧ p.ignored = false
  numbers : ¬ (p.state = .csiCollect ∨ p.state = .dcsCollect) → rest = [] ∧ (p.ignored = true → p.params.used = 32)
  collecting : p.state = .csiCollect ∨ p.state = .dcsCollect → rest ≠ []

theorem SoundState.header (h : p.SoundState) (hs : Headed p.state) : ∃ marker rest, p.HeaderParts marker rest := by
  rcases hs with hs | hs | hs | hs | hs | hs <;> simp only [SoundState, hs] at h
  -- each case for both kinds of sequences
  case inl | inr.inr.inr.inl =>
    obtain ⟨hp, hn, hi, hig⟩ := h
    exact ⟨[], [], numeric_start hp hn, ⟨.inl rfl, hi, nofun, by rw [hi]; exact zero_le⟩, by simp [hig],
      fun _ => ⟨hp, hn, hi, hig⟩, by simp [hig], by simp [hs]⟩
  case inr.inl | inr.inr.inr.inr.inl =>
    obtain ⟨hnum, ⟨marker, hc⟩, hig⟩ := h
    exact ⟨marker, [], hnum, hc, fun hi => .inl (hig hi), by simp [hs], fun _ => ⟨rfl, hig⟩, by simp [hs]⟩
  case inr.inr.inl | inr.inr.inr.inr.inr =>
    obtain ⟨hnum, marker, rest, hne, hc, hig⟩ := h
    exact ⟨marker, rest, hnum, hc, hig, by simp [hs], by simp [hs], fun _ => hne⟩

theorem Stored.close (h : p.Stored) (hroom : p.oscEnds.length < 16) :
    Stored { p with oscEnds := p.oscEnds ++ [p.osc.length] } where
  bytes := h.bytes
  fits := h.fits
  args := by
    rw [length_append]
    exact hroom
  sorted := by
    rw [pairwise_append]
    exact ⟨h.sorted, pairwise_singleton _ _, fun e he => forall_mem_singleton.mpr (h.ends e he)⟩
  ends := forall_mem_append.mpr ⟨h.ends, forall_mem_singleton.mpr le_rfl⟩
  full _ := by
    simp
  overflow ho := by
    rcases h.overflow ho with hp | hlen | hargs
    · exact .inl (isPointerOsc_close hp _)
    · exact .inr (.inl hlen)
    · omega

theorem Stored.store (h : p.Stored) (hb : 0x20 ≤ b ∧ b ≠ 0x3b) (hroom : p.osc.length < OSC_RAW_BUF_SIZE)
    (hargs : p.oscEnds.length < 16) : Stored { p with osc := p.osc ++ [b] } where
  bytes := forall_mem_append.mpr ⟨h.bytes, forall_mem_singleton.mpr hb⟩
  fits := by
    rw [length_append]
    exact hroom
  args := h.args
  sorted := h.sorted
  ends e he := by
    rw [length_append]
    exact (h.ends e he).trans (Nat.le_add_right _ _)
  full hfull := absurd hfull (ne_of_lt hargs)
  overflow ho := by
    rcases h.overflow ho with hp | hlen | hlen
    · exact .inl (isPointerOsc_store hp)
    · omega
    · omega

theorem Stored.overflowed (h : p.Stored)
    (ho : p.isPointerOsc = true ∨ p.osc.length = OSC_RAW_BUF_SIZE ∨ p.oscEnds.length = 16) :
    Stored { p with oscOverflow := true } :=
  ⟨h.bytes, h.fits, h.args, h.sorted, h.ends, h.full, fun _ => ho⟩

theorem endString_utf8 (bell : Bool) : (p.endString bell).2.utf8 = p.utf8 := by
  unfold endString
  split
  · rfl
  · split_ifs <;> rfl
  · split_ifs <;> rfl
  · rfl

/-- A byte that continues a sequence leaves it incomplete, unless it is the last one announced. -/
theorem utf8Head_continue {bytes : List UInt8} (hne : bytes ≠ []) (h : utf8Head bytes = .incomplete)
    (hb : (isContinuation b && (decide (bytes.length ≠ 1) || secondOk (bytes.headD 0) b)) = true)
    (hlen : (bytes ++ [b]).length ≠ announced (bytes.headD 0)) : utf8Head (bytes ++ [b]) = .incomplete := by
  match bytes with
  | [] => exact absurd rfl hne
  | [b₁] =>
    have hsecond : secondOk b₁ b = true := by simpa using (Bool.and_eq_true_iff.mp hb).2
    simp only [utf8Head] at h
    split_ifs at h with h₁ h₂
    have h₃ : ¬ b₁ < 0xe0 := fun h₃ => hlen (by simp [announced, h₃])
    show utf8Head [b₁, b] = _
    simp only [utf8Head]
    rw [if_neg h₁, if_neg h₂, if_neg (not_not.mpr hsecond), if_neg h₃]
  | [b₁, b₂] =>
    have hthird : isContinuation b = true := (Bool.and_eq_true_iff.mp hb).1
    simp only [utf8Head] at h
    split_ifs at h with h₁ h₂ h₃ h₄
    have h₅ : ¬ b₁ < 0xf0 := fun h₅ => hlen (by simp [announced, h₄, h₅])
    show utf8Head [b₁, b₂, b] = _
    simp only [utf8Head]
    rw [if_neg h₁, if_neg h₂, if_neg (not_not.mpr h₃), if_neg h₄, if_neg (not_not.mpr hthird), if_neg h₅]
  | b₁ :: b₂ :: b₃ :: rest =>
    simp only [utf8Head] at h
    split_ifs at h with h₁ h₂ h₃ h₄ h₅ h₆
    cases rest with
    | nil => exact absurd (by simp [announced, h₄, h₆]) hlen
    | cons b₄ rest =>
      dsimp only at h
      split_ifs at h

/-! ### One decoder -/

section
variable (h : p.Sound)
include h

theorem Sound.settled : p.Settled := fun hne => (h.begun hne).1

theorem Sound.utf8_nil (hs : p.state ≠ .text) : p.utf8 = [] := by
  by_contra hne
  exact hs (h.settled hne)

theorem Sound.stored (hs : Stringed p.state) : p.Stored ∧ (p.state = .oscEscape → p.isPointerOsc = true) := by
  have hstate := h.state
  rcases hs with hs | hs <;> simp only [SoundState, hs] at hstate
  · exact ⟨hstate, fun hne => by rw [hs] at hne; cases hne⟩
  · exact ⟨hstate.1, fun _ => hstate.2⟩

theorem sound_text (hs : p.state = .text) : (p.text b).2.Sound := by
  unfold text
  split
  · exact h
  split
  · exact h
  split
  · refine ⟨fun _ => ⟨hs, ?_, rfl⟩, by simp only [SoundState, hs]⟩
    have h₁ : ¬ b < 0x80 := by grind
    have h₂ : ¬ (b < 0xc2 ∨ b > 0xf4) := by grind
    simp [utf8Head, h₁, h₂]
  · exact h

section
variable (hu : p.utf8 = [])
include hu

theorem sound_escape (hs : p.state = .escape ∨ p.state = .escapeCollect) :
    (p.escape b).2.Sound := by
  obtain ⟨rest, hcollected, hignored⟩ : ∃ rest, p.Collected [] rest ∧
    (p.ignored = true → p.intermediates.length = 2) := by
    have hstate := h.state
    rcases hs with hs | hs <;> simp only [SoundState, hs] at hstate
    · obtain ⟨hi, hig⟩ := hstate
      exact ⟨[], ⟨.inl rfl, hi, nofun, by rw [hi]; exact zero_le⟩, fun h => by rw [hig] at h; cases h⟩
    · obtain ⟨rest, -, hc, hig⟩ := hstate
      exact ⟨rest, hc, hig⟩
  unfold escape
  split_ifs with hctl hinter
  · exact h
  · obtain ⟨rest', hne, hc, hig⟩ := hcollected.collect (A := False) (fun hi => .inr (hignored hi))
      ⟨by grind, hinter⟩
    exact .of_state (collect_utf8.trans hu) ⟨rest', hne, { hc with }, fun hi => (hig hi).resolve_left id⟩
  · exact .of_state hu ⟨rfl, rfl, rfl, rfl⟩
  · exact .of_state hu ⟨rfl, rfl, rfl, rfl⟩
  · exact .of_state hu ⟨nofun, zero_le, zero_le, .nil, nofun, nofun, nofun⟩
  · exact .of_state hu trivial
  · exact .of_state hu trivial
  · exact h

theorem sound_header (hs : Headed p.state) : (p.header b).2.Sound := by
  obtain ⟨marker, rest, hparts⟩ := h.state.header hs
  obtain ⟨hnum, hcollected, hignored, hentry, hnumbers, -⟩ := hparts
  -- a state that collects, for either kind of sequence
  have hcollect : ∀ {σ : ParserState}, σ = .csiCollect ∨ σ = .dcsCollect → 0x20 ≤ b ∧ b ≤ 0x2f →
      Sound { p.collect b with state := σ } := by
    intro σ hσ hb
    obtain ⟨rest', hne, hc, hig⟩ := hcollected.collect hignored hb
    rw [← collect_params (b := b)] at hig
    refine Sound.of_state (collect_utf8.trans hu) ?_
    rcases hσ with rfl | rfl <;> exact ⟨{ hnum.collect with }, marker, rest', hne, { hc with }, hig⟩
  have hnumber : ∀ {q : Parser} {σ : ParserState}, σ = .csiNumbers ∨ σ = .dcsNumbers → q.utf8 = [] → q.Numeric →
      (∃ marker, q.Collected marker []) → (q.ignored = true → q.params.used = 32) → Sound { q with state := σ } := by
    rintro q σ hσ hqu hn ⟨marker, hc⟩ hig
    refine Sound.of_state hqu ?_
    rcases hσ with rfl | rfl <;> exact ⟨{ hn with }, ⟨marker, { hc with }⟩, hig⟩
  have hif : ∀ (d : Bool) (σ τ : ParserState), (if d = true then σ else τ) = τ ∨ (if d = true then σ else τ) = σ := by
    intro d σ τ
    cases d <;> simp
  unfold header
  generalize (decide (p.state = .dcsStart ∨ p.state = .dcsNumbers ∨ p.state = .dcsCollect)) = dcs
  split
  · exact h
  split
  · rename_i hinter
    exact hcollect (hif _ _ _) ⟨by grind, hinter⟩
  by_cases hparam : b ≤ 0x3f
  · rw [if_pos hparam]
    simp only [decide_eq_true_eq]
    by_cases hdiscard : (p.state = .csiCollect ∨ p.state = .dcsCollect) ∨
        b ≥ 0x3c ∧ ¬ (p.state = .csiStart ∨ p.state = .dcsStart)
    · rw [if_pos hdiscard]
      refine Sound.of_state hu ?_
      cases dcs <;> trivial
    rw [if_neg hdiscard]
    by_cases hmarker : b ≥ 0x3c
    · rw [if_pos hmarker]
      obtain ⟨-, -, hi, hig⟩ := hentry (not_not.mp fun hne => hdiscard (.inr ⟨hmarker, hne⟩))
      have heq : p.collect b = { p with intermediates := [b] } := by
        rw [collect, hi]
        rfl
      rw [heq]
      exact hnumber (hif _ _ _) hu { hnum with }
        ⟨[b], .inr ⟨b, hmarker, hparam, rfl⟩, rfl, nofun, Nat.le_succ 1⟩ (by simp [hig])
    · rw [if_neg hmarker]
      obtain ⟨rfl, hig⟩ := hnumbers fun hc => hdiscard (.inl hc)
      obtain ⟨hi, hpu⟩ := parameter_frame (p := p) (b := b)
      exact hnumber (hif _ _ _) (hpu.trans hu) hnum.parameter
        ⟨marker, hcollected.isMarker, hi.trans hcollected.split, nofun, by rw [hi]; exact hcollected.fits⟩
        (parameter_ignored hig)
  · rw [if_neg hparam]
    split_ifs
    · exact .of_state hu trivial
    · exact .of_state hu trivial
    · exact h

theorem sound_oscByte (hs : p.state = .osc) : (p.oscByte b).2.Sound := by
  have hstored := (h.stored (.inl hs)).1
  have hgoal : ∀ {q : Parser}, q.state = p.state → q.utf8 = p.utf8 → q.Stored → q.Sound := by
    intro q hqs hqu hq
    refine Sound.of_state (hqu.trans hu) ?_
    simpa only [SoundState, hqs, hs] using hq
  have hargs := hstored.args
  have hfits := hstored.fits
  unfold oscByte
  split_ifs with hbell hctl hpointer hsep hroom hstore
  · exact .of_state ((endString_utf8 true).trans hu) trivial
  · exact hgoal rfl rfl (hstored.overflowed (.inl hpointer))
  · exact h
  · exact hgoal rfl rfl (hstored.close hroom)
  · exact hgoal rfl rfl (hstored.overflowed (.inr (.inr (by omega))))
  · exact hgoal rfl rfl (hstored.store ⟨by grind, hsep⟩ hstore.1 hstore.2)
  · refine hgoal rfl rfl (hstored.overflowed (.inr ?_))
    by_cases hlen : p.osc.length < OSC_RAW_BUF_SIZE
    · exact .inr (by omega)
    · exact .inl (by omega)

theorem sound_dispatch (hs : p.state ≠ .oscEscape) : (p.dispatch b).2.Sound := by
  unfold dispatch
  cases hstate : p.state with
  | text => exact sound_text h hstate
  | escape => exact sound_escape h hu (.inl hstate)
  | escapeCollect => exact sound_escape h hu (.inr hstate)
  | osc => exact sound_oscByte h hu hstate
  | oscEscape => exact absurd hstate hs
  | stringDiscard => exact h
  | csiDiscard =>
    dsimp only
    split_ifs
    · exact h
    · exact .of_state hu trivial
    · exact h
  | dcsData =>
    dsimp only
    split_ifs
    · exact .of_state hu trivial
    · exact h
    · exact h
  | dcsDiscard =>
    dsimp only
    split_ifs
    · exact .of_state hu trivial
    · exact h
  | _ => exact sound_header h hu (by simp [Headed, hstate])

theorem sound_control : (p.control b).2.Sound := by
  have hplain : ∀ {p : Parser}, p.Sound → p.utf8 = [] → ¬ Stringed p.state → (p.control b).2.Sound := by
    intro p h hu hs
    rw [control_plain hs]
    split_ifs
    · exact .of_state hu trivial
    · exact .of_state hu trivial
    · exact .of_state hu ⟨rfl, rfl⟩
    · exact .of_state hu ⟨rfl, rfl⟩
    · exact sound_dispatch h hu (not_or.mp hs).2
  by_cases hs : Stringed p.state
  · have hend : (p.endString false).2.utf8 = [] := (endString_utf8 false).trans hu
    rcases hs with hs | hs
    · have hstored := (h.stored (.inl hs)).1
      cases hp : p.isPointerOsc with
      | true =>
        rw [control_pointer hs hp]
        split_ifs
        · exact .of_state hu ⟨{ hstored with }, hp⟩
        · exact .of_state hu trivial
        · exact sound_oscByte h hu hs
      | false =>
        rw [control_osc hs hp]
        split_ifs
        · exact .of_state hend trivial
        · exact .of_state hend ⟨rfl, rfl⟩
        · exact sound_oscByte h hu hs
    · rw [control_oscEscape hs]
      split_ifs
      · exact .of_state hend trivial
      · exact hplain (Sound.of_state hu ⟨rfl, rfl⟩) hu (by simp [Stringed, clearHeader])
  · exact hplain h hu hs

end

theorem sound_continueUtf8 (hne : p.utf8 ≠ []) : (p.continueUtf8 b).2.2.Sound ∧
    ((p.continueUtf8 b).1 = false → (p.continueUtf8 b).2.2.utf8 = []) := by
  obtain ⟨hs, hhead, hexp⟩ := h.begun hne
  have hover : Sound { p with utf8 := [] } := Sound.of_state rfl (by simp only [SoundState, hs])
  unfold continueUtf8
  dsimp only
  split_ifs with hvalid hfull
  · exact ⟨hover, nofun⟩
  · refine ⟨⟨fun _ => ⟨hs, utf8Head_continue hne hhead hvalid (hexp ▸ hfull), ?_⟩, ?_⟩, nofun⟩
    · rw [hexp]
      cases hb : p.utf8 with
      | nil => exact absurd hb hne
      | cons _ _ => rfl
    · simp only [SoundState, hs]
  · exact ⟨hover, fun _ => rfl⟩

theorem sound_consume : (p.consume b).2.Sound := by
  by_cases htext : p.state = .text ∧ p.utf8 ≠ []
  · obtain ⟨hsound, hempty⟩ := sound_continueUtf8 (b := b) h htext.2
    simp only [consume, if_pos htext]
    split_ifs with hdone
    · exact hsound
    · exact sound_control hsound (hempty (by simpa using hdone))
  · rw [consume, if_neg htext]
    apply sound_control h
    by_contra hne
    exact htext ⟨h.settled hne, hne⟩

theorem sound_consumeAll (bytes : List UInt8) : (p.consumeAll bytes).2.Sound := by
  induction bytes generalizing p with
  | nil => exact h
  | cons b bytes ih => exact ih (sound_consume h)

theorem sound_advance (bytes : List UInt8) : (p.advance bytes).2.Sound := by
  unfold advance
  split_ifs with hne
  · obtain ⟨hs, -, hexp⟩ := h.begun hne
    apply sound_consumeAll
    have hover : Sound { p with utf8 := [] } := Sound.of_state rfl (by simp only [SoundState, hs])
    unfold completeSavedUtf8
    split
    · split
      · exact hover
      · exact hover
    · exact hover
    · rename_i hhead
      refine ⟨fun _ => ⟨hs, hhead, ?_⟩, by simp only [SoundState, hs]⟩
      rw [hexp]
      cases hb : p.utf8 with
      | nil => exact absurd hb hne
      | cons _ _ => rfl
  · exact sound_consumeAll h bytes

end

end Parser
end Bmux.Terminal
