import Bmux.L4Terminal.ParserStates

/-!
# Handing a decoder over

A decoder is saved as its replay prefix, and restored by feeding that to a fresh one
(`Parser.restored`).

* `alike_restored`: the restored decoder is alike, unless the prefix left out a payload.
* `parser_handoff`: it then makes the same calls on any later chunks. Otherwise the calls differ
  in the payload of the string that was open, and in nothing else if the rest of that string does
  not read as a pointer request of its own.
* `Sample.title_becomes_pointer`: if it does, the restored decoder takes the rest of a title for a
  pointer request.
-/
namespace Bmux.Terminal
open List UInt8 Params
namespace Parser

variable {p q : Parser} {b : UInt8}

def after (p : Parser) (bytes : List UInt8) : Parser := (p.consumeAll bytes).2

@[simp] theorem after_nil : p.after [] = p := rfl

theorem after_cons (bytes : List UInt8) : p.after (b :: bytes) = (p.consume b).2.after bytes := rfl

theorem after_append (bytes more : List UInt8) : p.after (bytes ++ more) = (p.after bytes).after more := by
  induction bytes generalizing p with
  | nil => rfl
  | cons b bytes ih => exact ih

/-- A fresh decoder fed with the prefix, its calls discarded. -/
def restored (p : Parser) : Parser := (advance {} p.replayPrefix).2

theorem restored_eq : p.restored = after {} p.replayPrefix := rfl

/-! ## Text -/

theorem printable (hb : 0x20 ≤ b) : ¬ (b = 0x18 ∨ b = 0x1a) ∧ b ≠ 0x1b ∧ ¬ b ≤ 0x1f ∧ b ≠ 0x07 := by
  grind

theorem consume_plain (hu : p.utf8 = []) (hs : ¬ Stringed p.state) (hb : 0x20 ≤ b) : p.consume b = p.dispatch b := by
  obtain ⟨h₁, h₂, -⟩ := printable hb
  rw [consume, if_neg (by simp [hu]), control_plain hs, if_neg h₁, if_neg h₂]

section
variable {bytes marker rest more : List UInt8}

/-- The bytes of an incomplete character are saved, and nothing else happens. -/
theorem after_incomplete (hne : bytes ≠ []) (h : utf8Head bytes = .incomplete) :
    after {} bytes = { utf8 := bytes, utf8Expected := announced (bytes.headD 0) } := by
  have hfirst : ∀ b₁ : UInt8, ¬ b₁ < 0x80 → ¬ (b₁ < 0xc2 ∨ b₁ > 0xf4) →
      (consume {} b₁).2 = { utf8 := [b₁], utf8Expected := announced b₁ } := by
    intro b₁ h₁ h₂
    have hrange : 0x20 ≤ b₁ ∧ ¬ (b₁ ≤ 0x1f ∨ 0x80 ≤ b₁ ∧ b₁ ≤ 0x9f) ∧ ¬ b₁ ≤ 0x7f ∧ (0xc2 ≤ b₁ ∧ b₁ ≤ 0xf4) := by
      grind
    obtain ⟨hb, hctl, hascii, hin⟩ := hrange
    rw [consume_plain rfl (by simp [Stringed]) hb]
    show (text {} b₁).2 = _
    rw [text, if_neg hctl, if_neg hascii, if_pos hin]
    rfl
  have hnext : ∀ (bytes : List UInt8) (b : UInt8), bytes ≠ [] →
      (isContinuation b && (decide (bytes.length ≠ 1) || secondOk (bytes.headD 0) b)) = true →
      (bytes ++ [b]).length ≠ announced (bytes.headD 0) →
      (consume { utf8 := bytes, utf8Expected := announced (bytes.headD 0) } b).2
        = { utf8 := bytes ++ [b], utf8Expected := announced (bytes.headD 0) } := by
    intro bytes b hne hvalid hlen
    rw [consume, if_pos ⟨rfl, hne⟩]
    simp only [continueUtf8, hvalid, not_true_eq_false, if_false, if_neg hlen, if_true]
  rcases bytes with _ | ⟨b₁, _ | ⟨b₂, _ | ⟨b₃, rest⟩⟩⟩
  · exact absurd rfl hne
  · simp only [utf8Head] at h
    split_ifs at h with h₁ h₂
    exact hfirst b₁ h₁ h₂
  · simp only [utf8Head] at h
    split_ifs at h with h₁ h₂ h₃ h₄
    have hcont : isContinuation b₂ = true := (Bool.and_eq_true_iff.mp h₃).1
    rw [after_cons, hfirst b₁ h₁ h₂]
    refine hnext [b₁] b₂ (by simp) (by simp [hcont, h₃]) ?_
    show 2 ≠ announced b₁
    rw [announced]
    split_ifs <;> simp
  · simp only [utf8Head] at h
    split_ifs at h with h₁ h₂ h₃ h₄ h₅ h₆
    have hcont : isContinuation b₂ = true := (Bool.and_eq_true_iff.mp h₃).1
    cases rest with
    | nil =>
      have hfour : announced b₁ = 4 := by simp [announced, h₄, h₆]
      rw [after_cons, hfirst b₁ h₁ h₂, after_cons]
      have htwo := hnext [b₁] b₂ (by simp) (by simp [hcont, h₃]) (by simp [hfour])
      simp only [headD_cons, singleton_append] at htwo
      rw [htwo]
      exact hnext [b₁, b₂] b₃ (by simp) (by simp [h₅]) (by simp [hfour])
    | cons b₄ rest =>
      dsimp only at h
      split_ifs at h

/-! ## Headers -/

variable (dcs : Bool)

def startOf : ParserState := if dcs then .dcsStart else .csiStart

def numbersOf : ParserState := if dcs then .dcsNumbers else .csiNumbers

def collectOf : ParserState := if dcs then .dcsCollect else .csiCollect

structure Entering (p : Parser) : Prop where
  utf8 : p.utf8 = []
  state : p.state = startOf dcs ∨ p.state = numbersOf dcs

variable {dcs : Bool}

theorem headed_plain (hs : Headed p.state) : ¬ Stringed p.state := by
  rcases hs with hs | hs | hs | hs | hs | hs <;> simp [Stringed, hs]

theorem dispatch_header (hs : Headed p.state) : p.dispatch b = p.header b := by
  unfold dispatch
  rcases hs with hs | hs | hs | hs | hs | hs <;> simp only [hs]

theorem consume_collect (dcs : Bool) (hu : p.utf8 = [])
    (hs : p.state = startOf dcs ∨ p.state = numbersOf dcs ∨ p.state = collectOf dcs) (hb : 0x20 ≤ b ∧ b ≤ 0x2f) :
    (p.consume b).2 = { p.collect b with state := collectOf dcs } := by
  have hheaded : Headed p.state := by
    rcases hs with hs | hs | hs <;> rw [hs] <;> cases dcs <;> simp [Headed, startOf, numbersOf, collectOf]
  rw [consume_plain hu (headed_plain hheaded) hb.1, dispatch_header hheaded, header]
  rw [if_neg (printable hb.1).2.2.1, if_pos hb.2]
  rcases hs with hs | hs | hs <;> rw [hs] <;> cases dcs <;> simp [startOf, numbersOf, collectOf]

theorem consume_marker (hu : p.utf8 = []) (hs : p.state = startOf dcs) (hb : 0x3c ≤ b ∧ b ≤ 0x3f) :
    (p.consume b).2 = { p.collect b with state := numbersOf dcs } := by
  obtain ⟨h₁, h₂, h₃⟩ : 0x20 ≤ b ∧ ¬ b ≤ 0x1f ∧ ¬ b ≤ 0x2f := by grind
  have hheaded : Headed p.state := by rw [hs]; cases dcs <;> simp [Headed, startOf]
  rw [consume_plain hu (headed_plain hheaded) h₁, dispatch_header hheaded, header]
  rw [if_neg h₂, if_neg h₃, if_pos hb.2, hs]
  cases dcs <;> simp [startOf, numbersOf, hb.1]

theorem writeNumber_eq (value : Nat) : writeNumber value =
    (if value < 10 then [] else writeNumber (value / 10)) ++ [ofNat (0x30 + value % 10)] := by
  have hdigit : ∀ d < 10, ofNat (Nat.digitChar d).toNat = ofNat (0x30 + d) := by decide
  rw [writeNumber, Nat.toDigits_eq_if (by decide)]
  split_ifs with h
  · simp [hdigit value h, Nat.mod_eq_of_lt h]
  · rw [map_append, map_cons, hdigit _ (Nat.mod_lt _ (by decide))]
    rfl

theorem digit_range : ∀ d < 10, (0x30 : UInt8) ≤ ofNat (0x30 + d) ∧ ofNat (0x30 + d) ≤ 0x39 ∧
    (ofNat (0x30 + d)).toNat = 0x30 + d := by decide

section
variable (h : Entering dcs p)
include h

theorem Entering.headed : Headed p.state := by
  rcases h.state with hs | hs <;> rw [hs] <;> cases dcs <;> simp [Headed, startOf, numbersOf]

theorem Entering.numbers (params : Params) (number : Nat) (ignored : Bool) :
    Entering dcs { p with params, number, ignored, state := numbersOf dcs } :=
  ⟨h.utf8, .inr rfl⟩

theorem consume_parameter (hb : 0x30 ≤ b ∧ b ≤ 0x3b) :
    (p.consume b).2 = { p.parameter b with state := numbersOf dcs } := by
  obtain ⟨h₁, h₂, h₃, h₄, h₅⟩ : 0x20 ≤ b ∧ ¬ b ≤ 0x1f ∧ ¬ b ≤ 0x2f ∧ b ≤ 0x3f ∧ ¬ b ≥ 0x3c := by grind
  rw [consume_plain h.utf8 (headed_plain h.headed) h₁, dispatch_header h.headed, header]
  rw [if_neg h₂, if_neg h₃, if_pos h₄]
  rcases h.state with hs | hs <;> rw [hs] <;> cases dcs <;> simp [startOf, numbersOf, h₅]

/-! ### Numbers -/

variable {d value : Nat}

theorem consume_digit (hd : d < 10) (hroom : p.params.used ≠ 32) :
    (p.consume (ofNat (0x30 + d))).2
      = { p with number := min (min (p.number * 10) 65535 + d) 65535, state := numbersOf dcs } := by
  obtain ⟨hlo, hhi, hval⟩ := digit_range _ hd
  rw [consume_parameter h ⟨hlo, UInt8.le_trans hhi (by decide)⟩, parameter, if_neg hroom, if_pos ⟨hlo, hhi⟩, hval]
  simp

theorem after_writeNumber (hzero : p.number = 0) (hroom : p.params.used ≠ 32) (hv : value ≤ 65535) :
    p.after (writeNumber value) = { p with number := value, state := numbersOf dcs } := by
  induction value using Nat.strong_induction_on with
  | _ value ih =>
    have hd : value % 10 < 10 := Nat.mod_lt _ (by decide)
    rw [writeNumber_eq, after_append]
    split_ifs with hsmall
    · show (p.consume _).2 = _
      rw [consume_digit h hd hroom, hzero, Nat.mod_eq_of_lt hsmall]
      simp [hv]
    · rw [ih (value / 10) (by omega) (by omega)]
      show (consume _ _).2 = _
      rw [consume_digit (h.numbers _ _ _) hd hroom]
      simp only [Parser.mk.injEq, true_and, and_true]
      omega

/-- With 32 parameters, a number only says that there are too many. -/
theorem after_writeNumber_full (hfull : p.params.used = 32) (value : Nat) :
    p.after (writeNumber value) = { p with ignored := true, state := numbersOf dcs } := by
  have hdigit : ∀ {q : Parser}, Entering dcs q → q.params.used = 32 → ∀ d < 10,
      (q.consume (ofNat (0x30 + d))).2 = { q with ignored := true, state := numbersOf dcs } := by
    intro q hq hfull d hd
    obtain ⟨hlo, hhi, -⟩ := digit_range _ hd
    rw [consume_parameter hq ⟨hlo, UInt8.le_trans hhi (by decide)⟩, parameter, if_pos hfull]
  induction value using Nat.strong_induction_on with
  | _ value ih =>
    have hd : value % 10 < 10 := Nat.mod_lt _ (by decide)
    rw [writeNumber_eq, after_append]
    split_ifs with hsmall
    · exact hdigit h hfull _ hd
    · rw [ih (value / 10) (by omega)]
      exact hdigit (h.numbers _ _ _) hfull _ hd

theorem after_value (hzero : p.number = 0) (hroom : p.params.used < 32) (hv : value ≤ 65535) {last : UInt8}
    (hlast : last = 0x3a ∨ last = 0x3b) :
    p.after (writeNumber value ++ [last])
      = { p with params := (p.params.append value (decide (last = 0x3b))).2, number := 0, state := numbersOf dcs } := by
  have hne : p.params.used ≠ 32 := ne_of_lt hroom
  have hrange : (0x30 : UInt8) ≤ last ∧ last ≤ 0x3b ∧ ¬ (0x30 ≤ last ∧ last ≤ 0x39) := by
    rcases hlast with rfl | rfl <;> decide
  rw [after_append, after_writeNumber h hzero hne hv]
  show (consume _ _).2 = _
  rw [consume_parameter (h.numbers _ _ _) ⟨hrange.1, hrange.2.1⟩, parameter, if_neg hne, if_neg hrange.2.2,
    if_pos hlast]

end

/-- One group of parameters, read back value by value. -/
theorem after_writeGroup {last : UInt8} (hlast : last = 0x3a ∨ last = 0x3b) {values : List Nat} :
    ∀ {p : Parser}, Entering dcs p → p.number = 0 → values ≠ [] → p.params.used + values.length ≤ 32 →
      (∀ v ∈ values, v ≤ 65535) → p.after (writeGroup last values) = { p with
          params := if last = 0x3b then ⟨p.params.closed ++ [p.params.current ++ values], []⟩
            else ⟨p.params.closed, p.params.current ++ values⟩
          number := 0, state := numbersOf dcs } := by
  have happend : ∀ (ps : Params) (value : Nat) (close : Bool), ps.used < 32 → (ps.append value close).2 =
      if close = true then ⟨ps.closed ++ [ps.current ++ [value]], []⟩ else ⟨ps.closed, ps.current ++ [value]⟩ := by
    intro ps value close hroom
    rw [append, if_neg (by simp only [CAPACITY]; omega)]
    cases close <;> rfl
  induction values with
  | nil => exact fun _ _ hne => absurd rfl hne
  | cons value values ih =>
    intro p h hzero _ hroom hv
    obtain ⟨hvalue, hvalues⟩ := forall_mem_cons.mp hv
    have hlt : p.params.used < 32 := by simp only [length_cons] at hroom; omega
    cases values with
    | nil =>
      show p.after (writeNumber value ++ [last]) = _
      rw [after_value h hzero hlt hvalue hlast, happend _ _ _ hlt]
      simp
    | cons next values =>
      show p.after (writeNumber value ++ [0x3a] ++ writeGroup last (next :: values)) = _
      rw [after_append, after_value h hzero hlt hvalue (.inl rfl), happend _ _ _ hlt, if_neg (by decide)]
      rw [ih (h.numbers _ _ _) rfl (by simp) ?_ hvalues]
      · simp
      · simp only [used, length_append, length_cons, length_nil] at hroom ⊢
        omega

theorem after_closed (groups : List (List Nat)) :
    ∀ {p : Parser}, Entering dcs p → p.number = 0 → p.params.current = [] →
      p.params.used + groups.flatten.length ≤ 32 → (∀ group ∈ groups, group ≠ [] ∧ ∀ v ∈ group, v ≤ 65535) →
      ∃ σ, (σ = p.state ∨ σ = numbersOf dcs) ∧ p.after (groups.flatMap (writeGroup 0x3b))
        = { p with params := ⟨p.params.closed ++ groups, []⟩, state := σ } := by
  induction groups with
  | nil =>
    intro p _ _ hcur _ _
    refine ⟨p.state, .inl rfl, ?_⟩
    show p = { p with params := ⟨p.params.closed ++ [], []⟩ }
    rw [append_nil, ← hcur]
  | cons group groups ih =>
    intro p h hzero hcur hroom hgroups
    obtain ⟨⟨hne, hv⟩, hrest⟩ := forall_mem_cons.mp hgroups
    simp only [flatten_cons, length_append] at hroom
    rw [flatMap_cons, after_append, after_writeGroup (.inr rfl) h hzero hne (by omega) hv, hcur]
    have hroom' : used ⟨p.params.closed ++ [group], []⟩ + groups.flatten.length ≤ 32 := by
      simp only [used, flatten_append, length_append, flatten_cons, flatten_nil,
        length_nil, hcur] at hroom ⊢
      omega
    obtain ⟨σ, hσ, heq⟩ := ih (h.numbers ⟨p.params.closed ++ [group], []⟩ 0 p.ignored) rfl rfl hroom' hrest
    refine ⟨σ, .inr (hσ.elim id id), heq.trans ?_⟩
    simp [hzero]

def numbered (p : Parser) (marker : List UInt8) (σ : ParserState) : Parser :=
  { state := σ, params := p.params, number := p.number, intermediates := marker,
    ignored := decide (p.params.used = 32) }

def writesNumber (p : Parser) : Prop :=
  p.params.used ≠ 0 ∨ p.number ≠ 0 ∨ p.state = .csiNumbers ∨ p.state = .dcsNumbers

instance (p : Parser) : Decidable p.writesNumber := inferInstanceAs (Decidable (_ ∨ _))

def writeParameters (p : Parser) : List UInt8 :=
  p.params.closed.flatMap (writeGroup 0x3b) ++ writeGroup 0x3a p.params.current ++
    (if p.writesNumber then writeNumber p.number else []) ++ if p.ignored = true ∧ p.params.used = 32 then [0x30]
      else []

/-- The parameters written for a header, read back behind its marker. -/
theorem after_parameters (h : p.Numeric) (marker : List UInt8) {σ : ParserState}
    (hσ : σ = startOf dcs ∨ σ = numbersOf dcs) :
    ∃ τ, (τ = σ ∨ τ = numbersOf dcs) ∧ (p.writesNumber → τ = numbersOf dcs) ∧
      after { state := σ, intermediates := marker } p.writeParameters = p.numbered marker τ := by
  have hused := h.used
  have hsum : p.params.closed.flatten.length + p.params.current.length = p.params.used := rfl
  have hin : ∀ {τ}, τ = σ ∨ τ = numbersOf dcs → τ = startOf dcs ∨ τ = numbersOf dcs := by
    rintro τ (rfl | rfl)
    · exact hσ
    · exact .inr rfl
  have hentering : Entering dcs ({ state := σ, intermediates := marker } : Parser) := ⟨rfl, hσ⟩
  obtain ⟨σ₁, hσ₁, hclosed⟩ := after_closed p.params.closed hentering rfl rfl
    (show 0 + p.params.closed.flatten.length ≤ 32 by omega) h.closed
  rw [writeParameters, after_append, after_append, after_append, hclosed, nil_append]
  have hentering₁ : Entering dcs ({ state := σ₁, params := ⟨p.params.closed, []⟩, intermediates := marker } : Parser) :=
    ⟨rfl, hin hσ₁⟩
  -- the group that is open
  obtain ⟨σ₂, hσ₂, hcurrent⟩ : ∃ σ₂, (σ₂ = σ ∨ σ₂ = numbersOf dcs) ∧
      after { state := σ₁, params := ⟨p.params.closed, []⟩, intermediates := marker } (writeGroup 0x3a p.params.current)
        = { state := σ₂, params := p.params, intermediates := marker } := by
    by_cases hnil : p.params.current = []
    · refine ⟨σ₁, hσ₁, ?_⟩
      rw [hnil]
      show ({ state := σ₁, params := ⟨p.params.closed, []⟩, intermediates := marker } : Parser) = _
      rw [← hnil]
    · refine ⟨numbersOf dcs, .inr rfl, ?_⟩
      rw [after_writeGroup (.inl rfl) hentering₁ rfl hnil (hsum.trans_le hused) h.current]
      rfl
  rw [hcurrent]
  have hentering₂ : Entering dcs ({ state := σ₂, params := p.params, intermediates := marker } : Parser) :=
    ⟨rfl, hin hσ₂⟩
  by_cases hfull : p.params.used = 32
  · have hwrites : p.writesNumber := .inl (by omega)
    refine ⟨numbersOf dcs, .inr rfl, fun _ => rfl, ?_⟩
    rw [if_pos hwrites, after_writeNumber_full hentering₂ hfull]
    have hgoal : ({ state := numbersOf dcs, params := p.params, intermediates := marker, ignored := true } : Parser)
        = p.numbered marker (numbersOf dcs) := by
      simp [numbered, hfull, h.full hfull]
    split_ifs
    · have hlast := consume_parameter (b := 0x30) (hentering₂.numbers p.params 0 true) (by decide)
      rw [parameter, if_pos hfull] at hlast
      exact hlast.trans hgoal
    · exact hgoal
  · by_cases hwrites : p.writesNumber
    · refine ⟨numbersOf dcs, .inr rfl, fun _ => rfl, ?_⟩
      rw [if_pos hwrites, after_writeNumber hentering₂ rfl hfull h.number]
      simp [numbered, hfull]
    · refine ⟨σ₂, hσ₂, fun hw => absurd hw hwrites, ?_⟩
      have hnumber : p.number = 0 := by
        by_contra hne
        exact hwrites (.inr (.inl hne))
      rw [if_neg hwrites]
      simp [numbered, hfull, hnumber]

theorem Collected.parts (h : p.Collected marker rest) :
    p.intermediates.take (if p.intermediates.head?.any (· ≥ 0x3c) then 1 else 0) = marker ∧
    p.intermediates.drop (if p.intermediates.head?.any (· ≥ 0x3c) then 1 else 0) = rest := by
  rw [h.split]
  rcases h.isMarker with rfl | ⟨m, hlo, -, rfl⟩
  · have hnone : ((([] : List UInt8) ++ rest).head?.any (· ≥ 0x3c)) = false := by
      cases rest with
      | nil => rfl
      | cons c rest =>
        have hc := (h.ordinary c (by simp)).2
        simp only [nil_append, head?_cons, Option.any_some, decide_eq_false_iff_not, ge_iff_le]
        intro hle
        exact absurd (UInt8.le_trans hle hc) (by decide)
    rw [hnone]
    exact ⟨rfl, rfl⟩
  · have hsome : ((([m] : List UInt8) ++ rest).head?.any (· ≥ 0x3c)) = true := by simp [hlo]
    rw [hsome]
    exact ⟨rfl, rfl⟩

/-- The intermediate bytes: `S` are the states that collect them, and the first one leads to `σ`. -/
theorem after_collecting {S : ParserState → Prop} {σ : ParserState} (hσ : S σ)
    (hstep : ∀ {p : Parser} {b : UInt8}, p.utf8 = [] → S p.state → 0x20 ≤ b ∧ b ≤ 0x2f →
    (p.consume b).2 = { p.collect b with state := σ }) (hrest : ∀ b ∈ rest, 0x20 ≤ b ∧ b ≤ 0x2f) :
    ∀ {p : Parser}, p.utf8 = [] → S p.state → p.intermediates.length + rest.length ≤ 2 →
      p.after rest = { p with
        intermediates := p.intermediates ++ rest, state := if rest = [] then p.state else σ } := by
  induction rest with
  | nil =>
    intro p _ _ _
    simp
  | cons c rest ih =>
    intro p hu hs hlen
    obtain ⟨hc, hrest⟩ := forall_mem_cons.mp hrest
    simp only [length_cons] at hlen
    rw [after_cons, hstep hu hs hc, collect, if_pos (by omega)]
    have htail := @ih hrest { p with intermediates := p.intermediates ++ [c], state := σ } hu hσ
      (by simp only [length_append, length_cons, length_nil]; omega)
    refine htail.trans ?_
    simp

theorem after_introducer (dcs : Bool) :
    after {} (if dcs then [0x1b, 0x50] else [0x1b, 0x5b]) = ({ state := startOf dcs } : Parser) := by
  cases dcs <;> rfl

theorem after_marker (dcs : Bool) (h : p.Collected marker rest) :
    ∃ σ, (σ = startOf dcs ∨ σ = numbersOf dcs) ∧
      after { state := startOf dcs } marker = ({ state := σ, intermediates := marker } : Parser) := by
  rcases h.isMarker with rfl | ⟨m, hlo, hhi, rfl⟩
  · exact ⟨startOf dcs, .inl rfl, rfl⟩
  · refine ⟨numbersOf dcs, .inr rfl, ?_⟩
    show (consume _ _).2 = _
    rw [consume_marker rfl rfl ⟨hlo, hhi⟩]
    rfl

/-- A whole header, read back. -/
theorem after_header (dcs : Bool) (hnum : p.Numeric) (hc : p.Collected marker rest)
    (htwo : p.ignored = true → p.params.used = 32 ∨ p.intermediates.length = 2) :
    ∃ τ, (p.writesNumber → τ = numbersOf dcs) ∧ after { state := startOf dcs }
      (marker ++ p.writeParameters ++ rest ++ (if p.ignored = true ∧ p.params.used < 32 then [0x20] else [])) =
      { p.numbered (marker ++ rest) (if rest = [] ∧ ¬ (p.ignored = true ∧ p.params.used < 32) then τ
        else collectOf dcs) with
        ignored := p.ignored || decide (p.params.used = 32) } := by
  have hlen : marker.length + rest.length ≤ 2 := by
    have := hc.fits
    rwa [hc.split, length_append] at this
  obtain ⟨σ, hσ, hmarker⟩ := after_marker dcs hc
  obtain ⟨τ, hτ, hwrites, hparams⟩ := after_parameters hnum marker hσ
  refine ⟨τ, hwrites, ?_⟩
  have hstate : τ = startOf dcs ∨ τ = numbersOf dcs ∨ τ = collectOf dcs := by
    rcases hτ with rfl | rfl
    · exact hσ.imp id .inl
    · exact .inr (.inl rfl)
  rw [after_append, after_append, after_append, hmarker, hparams]
  have hrest := after_collecting (S := fun σ => σ = startOf dcs ∨ σ = numbersOf dcs ∨
    σ = collectOf dcs) (.inr (.inr rfl))
    (consume_collect dcs) hc.ordinary (p := p.numbered marker τ) rfl hstate hlen
  rw [hrest]
  by_cases hspace : p.ignored = true ∧ p.params.used < 32
  · -- the storage is full, so another byte is only noted
    have hfull : p.intermediates.length = 2 := (htwo hspace.1).resolve_left (ne_of_lt hspace.2)
    rw [hc.split] at hfull
    rw [if_pos hspace]
    show (consume _ _).2 = _
    rw [consume_collect dcs rfl ?_ (by decide), collect, if_neg ?_]
    · simp [numbered, hspace]
    · show ¬ (marker ++ rest).length < 2
      omega
    · split_ifs
      · exact hstate
      · exact .inr (.inr rfl)
  · have hig : (p.ignored || decide (p.params.used = 32)) = decide (p.params.used = 32) := by
      by_cases hi : p.ignored = true
      · have hused := hnum.used
        have hfull : p.params.used = 32 := by
          by_contra hne
          exact hspace ⟨hi, by omega⟩
        simp [hfull]
      · simp [hi]
    simp [numbered, hspace, hig]

/-- A fresh decoder that reads the header in a prefix is like the one that wrote it. -/
theorem alike_restored_header (h : p.Sound) (hs : Headed p.state) : Alike p (after {} p.writeHeader) := by
  obtain ⟨dcs, hdcs, hintro⟩ : ∃ dcs, (p.state = startOf dcs ∨ p.state = numbersOf dcs ∨ p.state = collectOf dcs) ∧
      (if p.state = .dcsStart ∨ p.state = .dcsNumbers ∨ p.state = .dcsCollect then ([0x1b, 0x50] : List UInt8)
        else [0x1b, 0x5b]) = if dcs = true then [0x1b, 0x50] else [0x1b, 0x5b] := by
    rcases hs with hs | hs | hs | hs | hs | hs <;> rw [hs]
    · exact ⟨false, .inl rfl, rfl⟩
    · exact ⟨false, .inr (.inl rfl), rfl⟩
    · exact ⟨false, .inr (.inr rfl), rfl⟩
    · exact ⟨true, .inl rfl, rfl⟩
    · exact ⟨true, .inr (.inl rfl), rfl⟩
    · exact ⟨true, .inr (.inr rfl), rfl⟩
  have hu := h.utf8_nil (by rcases hs with hs | hs | hs | hs | hs | hs <;> simp [hs])
  have halike : ∀ {q : Parser}, q.state = p.state → q.utf8 = [] → q.params = p.params → q.number = p.number →
      q.intermediates = p.intermediates → (p.params.used = 32 ∨ q.ignored = p.ignored) → Alike p q :=
    fun h₁ h₂ h₃ h₄ h₅ h₆ => .of_nil h₁ hu h₂ ((remembers_header hs).mpr ⟨h₃, h₄, h₅, h₆⟩)
  obtain ⟨marker, rest, hparts⟩ := h.state.header hs
  obtain ⟨hnum, hcollected, hignored, hentry, hnumbers, hcollect⟩ := hparts
  obtain ⟨hmarker, hrest⟩ := hcollected.parts
  have hsplit : p.writeHeader = (if dcs = true then [0x1b, 0x50] else [0x1b, 0x5b]) ++
      (marker ++ p.writeParameters ++ rest ++ (if p.ignored = true ∧ p.params.used < 32 then [0x20] else [])) := by
    rw [← hintro, ← hmarker, ← hrest]
    simp only [writeHeader, writeParameters, writesNumber, append_assoc]
    rfl
  obtain ⟨τ, hwrites, hafter⟩ := after_header dcs hnum hcollected hignored
  have hkept : p.params.used = 32 ∨ (p.ignored || decide (p.params.used = 32)) = p.ignored := by
    by_cases hfull : p.params.used = 32
    · exact .inl hfull
    · exact .inr (by simp [hfull])
  rcases hdcs with hstart | hnumbering | hcollecting
  · -- nothing is written
    have hstate : p.state = .csiStart ∨ p.state = .dcsStart := by
      rw [hstart]
      cases dcs <;> simp [startOf]
    obtain ⟨hp, hn, hi, hig⟩ := hentry hstate
    have hnone : ¬ p.writesNumber := by
      rcases hstate with hs | hs <;> simp [writesNumber, hp, hn, hs, used]
    have hnil : p.writeHeader = if dcs = true then [0x1b, 0x50] else [0x1b, 0x5b] := by
      rw [hi] at hmarker hrest
      rw [hsplit, writeParameters, ← hmarker, ← hrest, if_neg hnone, hp, hig]
      simp [writeGroup]
    rw [hnil, after_introducer]
    exact halike hstart.symm rfl hp.symm hn.symm hi.symm (.inr hig.symm)
  · have hstate : p.state = .csiNumbers ∨ p.state = .dcsNumbers := by
      rw [hnumbering]
      cases dcs <;> simp [numbersOf]
    obtain ⟨hnil, hfull⟩ := hnumbers (by rcases hstate with hs | hs <;> simp [hs])
    have hspace : ¬ (p.ignored = true ∧ p.params.used < 32) := fun hi => by
      have := hfull hi.1
      omega
    rw [hsplit, after_append, after_introducer, hafter, if_pos ⟨hnil, hspace⟩, hwrites (.inr (.inr hstate))]
    exact halike hnumbering.symm rfl rfl rfl hcollected.split.symm hkept
  · have hne := hcollect (by rw [hcollecting]; cases dcs <;> simp [collectOf])
    rw [hsplit, after_append, after_introducer, hafter, if_neg fun hnil => hne hnil.1]
    exact halike hcollecting.symm rfl rfl rfl hcollected.split.symm hkept

/-! ## Escapes -/

theorem consume_escape (hu : p.utf8 = []) (hs : p.state = .escape ∨ p.state = .escapeCollect)
    (hb : 0x20 ≤ b ∧ b ≤ 0x2f) :
    (p.consume b).2 = { p.collect b with state := .escapeCollect } := by
  have hplain : ¬ Stringed p.state := by rcases hs with hs | hs <;> simp [Stringed, hs]
  have hdispatch : p.dispatch b = p.escape b := by
    unfold dispatch
    rcases hs with hs | hs <;> simp only [hs]
  rw [consume_plain hu hplain hb.1, hdispatch, escape, if_neg (printable hb.1).2.2.1, if_pos hb.2]

theorem alike_restored_escape (h : p.Sound) (hs : p.state = .escapeCollect) :
    Alike p (after {} (0x1b :: p.intermediates ++ if p.ignored then [0x20] else [])) := by
  have hu := h.utf8_nil (by simp [hs])
  have hstate := h.state
  simp only [SoundState, hs] at hstate
  obtain ⟨rest, hne, hc, hfull⟩ := hstate
  have hrest : p.intermediates = rest := hc.split
  have hintro : after {} [0x1b] = ({ state := .escape } : Parser) := rfl
  have hread := after_collecting (S := fun σ => σ = .escape ∨ σ = .escapeCollect) (.inr rfl) consume_escape
    (hrest.symm ▸ hc.ordinary : ∀ b ∈ p.intermediates,
      _) (p := { state := .escape }) rfl (.inl rfl) (by simp only [length_nil, zero_add]; exact hc.fits)
  rw [if_neg (by rw [hrest]; exact hne), nil_append] at hread
  rw [← singleton_append, after_append, after_append, hintro, hread]
  cases hig : p.ignored with
  | false =>
    exact .of_nil hs.symm hu rfl (by simp [Remembers, hs, hig])
  | true =>
    have hlast := @consume_escape
      { state := .escapeCollect, intermediates := p.intermediates } 0x20 rfl (.inr rfl) (by decide)
    rw [collect, if_neg (show ¬ p.intermediates.length < 2 by have := hfull hig; omega)] at hlast
    show Alike p (consume _ _).2
    rw [hlast]
    exact .of_nil hs.symm hu rfl (by simp [Remembers, hs, hig])

/-! ## OSC strings -/

theorem consume_osc (hu : p.utf8 = []) (hs : p.state = .osc) (hb : 0x20 ≤ b) : p.consume b = p.oscByte b := by
  obtain ⟨h₁, h₂, -⟩ := printable hb
  rw [consume, if_neg (by simp [hu])]
  cases hp : p.isPointerOsc with
  | true => rw [control_pointer hs hp, if_neg h₂, if_neg h₁]
  | false => rw [control_osc hs hp, if_neg h₁, if_neg h₂]

theorem after_stored (hb : ∀ b ∈ bytes, 0x20 ≤ b ∧ b ≠ 0x3b) :
    ∀ {p : Parser}, p.utf8 = [] → p.state = .osc → p.osc.length + bytes.length ≤ OSC_RAW_BUF_SIZE →
      (p.oscEnds.length < 16 ∨ bytes = []) → p.after bytes = { p with osc := p.osc ++ bytes } := by
  induction bytes with
  | nil =>
    intro p _ _ _ _
    simp
  | cons c bytes ih =>
    intro p hu hs hlen hargs
    obtain ⟨hc, hrest⟩ := forall_mem_cons.mp hb
    obtain ⟨-, -, hctl, hbell⟩ := printable hc.1
    have hargs' : p.oscEnds.length < 16 := hargs.resolve_right (by simp)
    simp only [length_cons] at hlen
    have hstep : (p.consume c).2 = { p with osc := p.osc ++ [c] } := by
      rw [consume_osc hu hs hc.1, oscByte, if_neg hbell, if_neg hctl, if_neg hc.2, if_pos ⟨by omega, hargs'⟩]
    have htail := @ih hrest { p with osc := p.osc ++ [c] } hu hs
      (by simp only [length_append, length_cons, length_nil]; omega) (.inl hargs')
    rw [after_cons, hstep, htail]
    simp

theorem after_separator (hu : p.utf8 = []) (hs : p.state = .osc) (hargs : p.oscEnds.length < 16) :
    (p.consume 0x3b).2 = { p with oscEnds := p.oscEnds ++ [p.osc.length] } := by
  rw [consume_osc hu hs (by decide), oscByte, if_neg (by decide), if_neg (by decide), if_pos rfl, if_pos hargs]

/-- The stored arguments of a string and their separators, read back. -/
theorem after_joinOsc {osc : List UInt8} (hb : ∀ b ∈ osc, 0x20 ≤ b ∧ b ≠ 0x3b) (hfits : osc.length ≤ OSC_RAW_BUF_SIZE)
    {ends : List Nat} : ∀ {p : Parser} {start : Nat}, p.utf8 = [] → p.state = .osc → p.osc = osc.take start →
      (∀ e ∈ ends, start ≤ e) → ends.Pairwise (· ≤ ·) → (∀ e ∈ ends, e ≤ osc.length) → start ≤ osc.length →
      p.oscEnds.length + ends.length ≤ 16 →
      (p.oscEnds.length + ends.length = 16 → (start :: ends).getLast? = some osc.length) →
      p.after (joinOsc osc start ends) = { p with osc, oscEnds := p.oscEnds ++ ends } := by
  induction ends with
  | nil =>
    intro p start hu hs hosc _ _ _ hstart hargs hlast
    have hrest : ∀ b ∈ osc.drop start, 0x20 ≤ b ∧ b ≠ 0x3b := fun b hmem => hb b (mem_of_mem_drop hmem)
    have hsum : osc.take start ++ osc.drop start = osc := take_append_drop _ _
    have hlen : p.osc.length + (osc.drop start).length ≤ OSC_RAW_BUF_SIZE := by
      rw [hosc, ← length_append, hsum]
      exact hfits
    have hroom : p.oscEnds.length < 16 ∨ osc.drop start = [] := by
      by_cases hfull : p.oscEnds.length = 16
      · right
        have hstart : some start = some osc.length := hlast hfull
        cases hstart
        exact drop_length
      · exact .inl (by omega)
    show p.after (osc.drop start) = _
    rw [after_stored hrest hu hs hlen hroom, hosc, hsum, append_nil]
  | cons stop ends ih =>
    intro p start hu hs hosc hge hsorted hle hstart hargs hlast
    obtain ⟨hstop, hge⟩ := forall_mem_cons.mp hge
    obtain ⟨hnext, hsorted⟩ := pairwise_cons.mp hsorted
    obtain ⟨hin, hle⟩ := forall_mem_cons.mp hle
    simp only [length_cons] at hargs
    have hsum : osc.take start ++ (osc.take stop).drop start = osc.take stop := by
      have := take_append_drop start (osc.take stop)
      rwa [take_take, min_eq_left hstop] at this
    have hrest : ∀ b ∈ (osc.take stop).drop start, 0x20 ≤ b ∧ b ≠ 0x3b :=
      fun b hmem => hb b (mem_of_mem_take (mem_of_mem_drop hmem))
    have hlen : p.osc.length + ((osc.take stop).drop start).length ≤ OSC_RAW_BUF_SIZE := by
      rw [hosc, ← length_append, hsum]
      exact (length_take_le _ _).trans (hin.trans hfits)
    have harg : p.after ((osc.take stop).drop start) = { p with osc := osc.take stop } := by
      rw [after_stored hrest hu hs hlen (.inl (by omega)), hosc, hsum]
    have hsep : ({ p with osc := osc.take stop }.consume 0x3b).2
        = { p with osc := osc.take stop, oscEnds := p.oscEnds ++ [stop] } := by
      have hroom : p.oscEnds.length < 16 := by omega
      simp [@after_separator { p with osc := osc.take stop } hu hs hroom, min_eq_left hin]
    have htail := @ih { p with
      osc := osc.take stop, oscEnds := p.oscEnds ++ [stop] } stop hu hs rfl hnext hsorted hle hin
      (by simp only [length_append, length_cons, length_nil]; omega)
      (by
        intro hfull
        simp only [length_append, length_cons, length_nil] at hfull
        have := hlast (by simp only [length_cons]; omega)
        rwa [getLast?_cons_cons] at this)
    show p.after ((osc.take stop).drop start ++ 0x3b :: joinOsc osc stop ends) = _
    rw [after_append, harg, after_cons, hsep, htail]
    simp

/-- A pointer request takes any number of bytes, and is too long after enough of them. -/
theorem after_pointer {c : UInt8} (hc : 0x20 ≤ c ∧ c ≠ 0x3b) (n : Nat) :
    ∀ {p : Parser}, p.utf8 = [] → p.state = .osc → p.isPointerOsc = true → p.osc.length ≤ OSC_RAW_BUF_SIZE →
      (p.oscOverflow = true ∨ OSC_RAW_BUF_SIZE < p.osc.length + n) →
      (p.after (replicate n c)).utf8 = [] ∧ (p.after (replicate n c)).state = .osc ∧
      (p.after (replicate n c)).isPointerOsc = true ∧ (p.after (replicate n c)).oscOverflow = true := by
  induction n with
  | zero =>
    intro p hu hs hp hlen hover
    exact ⟨hu, hs, hp, hover.resolve_right (by omega)⟩
  | succ n ih =>
    intro p hu hs hp hlen hover
    obtain ⟨-, -, hctl, hbell⟩ := printable hc.1
    obtain ⟨-, hs', hu', -⟩ := oscByte_frame (p := p) hbell
    obtain ⟨hp', hover'⟩ := oscByte_pointer hbell hp
    rw [replicate_succ, after_cons, consume_osc hu hs hc.1]
    have hbyte : (p.oscByte c).2 = if p.osc.length < OSC_RAW_BUF_SIZE ∧ p.oscEnds.length < 16 then
      { p with osc := p.osc ++ [c] }
        else { p with oscOverflow := true } := by
      rw [oscByte, if_neg hbell, if_neg hctl, if_neg hc.2]
    apply ih (hu'.trans hu) (hs'.trans hs) hp'
    · rw [hbyte]
      split_ifs with hroom
      · rw [length_append]
        exact hroom.1
      · exact hlen
    · rcases hover with hover | hlong
      · exact .inl (hover' hover)
      · rw [hbyte]
        split_ifs with hroom
        · right
          simp only [length_append, length_cons]
          omega
        · exact .inl rfl

/-- The payload of an OSC string is in the prefix. -/
def Retained (p : Parser) : Prop := p.isPointerOsc = true ∨ p.oscEnds = [] ∧ p.osc <+: [0x32, 0x32]

instance (p : Parser) : Decidable p.Retained := inferInstanceAs (Decidable (_ ∨ _))

theorem writeOscPrefix_eq : p.writeOscPrefix = [0x1b, 0x5d] ++ (if p.Retained then
      (if p.oscOverflow = true then [0x32, 0x32, 0x3b] ++ List.replicate (OSC_RAW_BUF_SIZE + 1) 0x78
        else joinOsc p.osc 0 p.oscEnds)
      else []) ++ if p.state = .oscEscape then [0x1b] else [] := by
  have hretained : (p.isPointerOsc || (p.oscEnds.isEmpty && (p.osc.isEmpty || p.osc.isPrefixOf [0x32, 0x32]))) = true ↔
      p.Retained := by
    simp only [Retained, Bool.or_eq_true, Bool.and_eq_true, List.isEmpty_iff, isPrefixOf_iff_prefix]
    constructor
    · rintro (h | ⟨h, hnil | h'⟩)
      · exact .inl h
      · exact .inr ⟨h, by simp [hnil]⟩
      · exact .inr ⟨h, h'⟩
    · rintro (h | ⟨h, h'⟩)
      · exact .inl h
      · exact .inr ⟨h, .inr h'⟩
  simp only [writeOscPrefix, hretained]

theorem Stored.pointer_of_overflow (h : p.Stored) (hr : p.Retained) (ho : p.oscOverflow = true) :
    p.isPointerOsc = true := by
  rcases hr with hp | ⟨hends, hosc⟩
  · exact hp
  · have hshort := hosc.length_le
    rcases h.overflow ho with hp | hlen | hargs
    · exact hp
    · rw [hlen] at hshort
      exact absurd hshort (by decide)
    · rw [hends] at hargs
      cases hargs

/-- A string whose payload is in the prefix is restored. -/
theorem alike_restored_osc (h : p.Sound) (hs : Stringed p.state) (hr : p.Retained) :
    Alike p (after {} p.writeOscPrefix) := by
  have hu := h.utf8_nil (by rcases hs with hs | hs <;> simp [hs])
  obtain ⟨hstored, hescape⟩ := h.stored hs
  -- the decoder that has read the payload
  obtain ⟨r, hafter, hru, hrs, hrr⟩ : ∃ r : Parser, after {} ([0x1b, 0x5d] ++
      if p.oscOverflow = true then [0x32, 0x32, 0x3b] ++ replicate (OSC_RAW_BUF_SIZE + 1) 0x78
        else joinOsc p.osc 0 p.oscEnds) = r ∧ r.utf8 = [] ∧ r.state = .osc ∧
      ((r.osc = p.osc ∧ r.oscEnds = p.oscEnds ∧ r.oscOverflow = p.oscOverflow) ∨
        (p.isPointerOsc ∧ p.oscOverflow ∧ r.isPointerOsc ∧ r.oscOverflow)) := by
    refine ⟨_, rfl, ?_⟩
    by_cases hover : p.oscOverflow = true
    · have hlong := @after_pointer 0x78 (by decide) (OSC_RAW_BUF_SIZE + 1)
        ({ state := .osc, osc := [0x32, 0x32], oscEnds := [2] } : Parser) rfl rfl rfl (by decide) (.inr (by decide))
      rw [if_pos hover, ← append_assoc, after_append]
      exact ⟨hlong.1, hlong.2.1, .inr ⟨hstored.pointer_of_overflow hr hover, hover, hlong.2.2.1, hlong.2.2.2⟩⟩
    · have hjoin := @after_joinOsc p.osc hstored.bytes hstored.fits p.oscEnds ({ state := .osc } : Parser) 0 rfl rfl rfl
        (fun _ _ => zero_le) hstored.sorted hstored.ends zero_le
        (by simp only [length_nil, zero_add]; exact hstored.args)
        (by
          intro hfull
          simp only [length_nil, zero_add] at hfull
          rw [← hstored.full hfull]
          cases hends : p.oscEnds with
          | nil => rw [hends] at hfull; cases hfull
          | cons e ends => rw [getLast?_cons_cons])
      have hintro : after {} [0x1b, 0x5d] = ({ state := .osc } : Parser) := rfl
      rw [if_neg hover, after_append, hintro, hjoin]
      exact ⟨rfl, rfl, .inl ⟨rfl, rfl, by simpa using hover⟩⟩
  rw [writeOscPrefix_eq, if_pos hr, after_append, hafter]
  rcases hs with hs | hs
  · rw [hs, if_neg (by simp)]
    exact .of_nil (hrs.trans hs.symm) hu hru ((remembers_osc (.inl hs)).mpr hrr)
  · have hpointer : r.isPointerOsc = true := by
      rcases hrr with ⟨hosc, hends, -⟩ | ⟨-, -, hrp, -⟩
      · rw [isPointerOsc_congr hosc hends, hescape hs]
      · exact hrp
    have hstep : r.after [0x1b] = { r with state := .oscEscape } := by
      show (r.consume 0x1b).2 = _
      rw [consume, if_neg (by simp [hru]), control_pointer hrs hpointer, if_pos rfl]
    rw [if_pos hs, hstep]
    exact .of_nil hs.symm hu hru ((remembers_osc (.inr hs)).mpr hrr)

/-! ## Restoring -/

/-- The prefix leaves out the payload of the string that is open. -/
def Dropped (p : Parser) : Prop := p.state = .osc ∧ ¬ p.Retained

instance (p : Parser) : Decidable p.Dropped := inferInstanceAs (Decidable (_ ∧ _))

/-- **Restoring.** The decoder that was fed the prefix is alike, unless a payload was left out. -/
theorem alike_restored (h : p.Sound) (hd : ¬ p.Dropped) : Alike p p.restored := by
  rw [restored_eq, replayPrefix]
  cases hs : p.state with
  | text =>
    by_cases hne : p.utf8 = []
    · rw [hne]
      exact .of_nil hs.symm hne rfl (by simp only [Remembers, hs])
    · obtain ⟨-, hhead, hexp⟩ := h.begun hne
      rw [after_incomplete hne hhead]
      exact ⟨hs.symm, rfl, fun _ => hexp.symm, by simp only [Remembers, hs]⟩
  | escape =>
    have hstate := h.state
    simp only [SoundState, hs] at hstate
    obtain ⟨hi, hig⟩ := hstate
    rw [hi, hig]
    exact .of_nil hs.symm (h.utf8_nil (by simp [hs])) rfl (by simp only [Remembers, hs]; exact ⟨hi.symm, hig.symm⟩)
  | escapeCollect => exact alike_restored_escape h hs
  | osc => exact alike_restored_osc h (.inl hs) (not_not.mp fun hr => hd ⟨hs, hr⟩)
  | oscEscape => exact alike_restored_osc h (.inr hs) (.inl ((h.stored (.inr hs)).2 hs))
  | csiDiscard | dcsDiscard | dcsData | stringDiscard =>
    exact .of_nil hs.symm (h.utf8_nil (by simp [hs])) rfl (by simp only [Remembers, hs])
  | _ => exact alike_restored_header h (by simp [Headed, hs])

/-! ## A payload that was left out -/

/-- The first argument of a string that has read `argument` of it, once the bytes end it. -/
def firstArgument (argument : List UInt8) : List UInt8 → Option (List UInt8)
  | [] => none
  | b :: bytes =>
    if b = 0x07 ∨ b = 0x18 ∨ b = 0x1a ∨ b = 0x1b ∨ b = 0x3b then some argument
    else if b ≤ 0x1f then firstArgument argument bytes
    else firstArgument (argument ++ [b]) bytes

theorem firstArgument_extends {argument : List UInt8} {found : List UInt8}
    (h : firstArgument argument bytes = some found) : argument <+: found := by
  induction bytes generalizing argument with
  | nil => cases h
  | cons b bytes ih =>
    rw [firstArgument] at h
    split_ifs at h
    · cases h
      exact prefix_refl _
    · exact ih h
    · exact (prefix_append _ _).trans (ih h)

/-- The decoder is in an OSC string that is not a pointer request, and does not become one with
these bytes. -/
structure Elsewhere (p : Parser) (bytes : List UInt8) : Prop where
  utf8 : p.utf8 = []
  state : p.state = .osc
  pointer : p.isPointerOsc = false
  ends : ∀ e ∈ p.oscEnds, e ≤ p.osc.length
  selector : p.oscEnds = [] → firstArgument p.osc bytes ≠ some [0x32, 0x32]

/-- A call that says that a string other than a pointer request has ended. -/
def OtherString (call : Action) (bell : Bool) : Prop :=
  ∃ args, call = .oscDispatch args bell ∧ args.head? ≠ some [0x32, 0x32]

/-- Calls that differ in the end of such a string only. -/
def EndsApart (calls calls' : List Action) : Prop :=
  ∃ x y bell rest, calls = x :: rest ∧ calls' = y :: rest ∧ OtherString x bell ∧ OtherString y bell

theorem EndsApart.append {calls calls' : List Action} (h : EndsApart calls calls') (later : List Action) :
    EndsApart (calls ++ later) (calls' ++ later) := by
  obtain ⟨x, y, bell, rest, rfl, rfl, hx, hy⟩ := h
  exact ⟨x, y, bell, rest ++ later, rfl, rfl, hx, hy⟩

/-- The end of such a string is one call, and not that of a pointer request. -/
theorem Elsewhere.ended (h : p.Elsewhere (b :: bytes))
    (hb : b = 0x07 ∨ b = 0x18 ∨ b = 0x1a ∨ b = 0x1b) (bell : Bool) :
    ∃ call, (p.endString bell).1 = [call] ∧ OtherString call bell ∧ (p.endString bell).2.utf8 = [] := by
  have hend := endString_osc (.inl h.state) bell
  rw [h.pointer, if_neg (by simp)] at hend
  refine ⟨_, by rw [hend], ⟨_, rfl, ?_⟩, (endString_utf8 bell).trans h.utf8⟩
  cases hends : p.oscEnds with
  | nil =>
    have hsel := h.selector hends
    rw [firstArgument, if_pos (by tauto)] at hsel
    simp [oscArgs]
    simpa using hsel
  | cons e ends =>
    have hhead : (oscArgs p.osc 0 (if (e :: ends).length < 16 then e :: ends ++ [p.osc.length] else e :: ends)).head?
        = some (p.osc.take e) := by
      split_ifs <;> simp [oscArgs]
    rw [hhead]
    intro heq
    have htake : p.osc.take e = [0x32, 0x32] := Option.some.inj heq
    have hlen := congrArg length htake
    have hle := h.ends e (by simp [hends])
    rw [length_take, min_eq_left hle] at hlen
    have hpointer : p.isPointerOsc = true := by
      rw [isPointerOsc_iff, hends]
      have htwo : e = 2 := hlen
      rw [htwo] at htake
      exact ⟨by rw [htwo]; rfl, htake⟩
    rw [h.pointer] at hpointer
    cases hpointer

/-- A byte that does not end the string is swallowed, and the string is still no pointer request. -/
theorem Elsewhere.next (h : p.Elsewhere (b :: bytes))
    (hb : ¬ (b = 0x07 ∨ b = 0x18 ∨ b = 0x1a ∨ b = 0x1b)) : (p.consume b).1 = [] ∧ (p.consume b).2.Elsewhere bytes := by
  obtain ⟨hbell, h₁, h₂, h₃⟩ : b ≠ 0x07 ∧ b ≠ 0x18 ∧ b ≠ 0x1a ∧ b ≠ 0x1b := by tauto
  have hconsume : p.consume b = p.oscByte b := by
    rw [consume, if_neg (by simp [h.utf8]), control_osc h.state h.pointer, if_neg (by tauto), if_neg h₃]
  obtain ⟨hcalls, hstate, hutf8, -⟩ := oscByte_frame (p := p) hbell
  rw [hconsume]
  suffices hkept : (p.oscByte b).2.isPointerOsc = false ∧
    (∀ e ∈ (p.oscByte b).2.oscEnds, e ≤ (p.oscByte b).2.osc.length) ∧
      ((p.oscByte b).2.oscEnds = [] → firstArgument (p.oscByte b).2.osc bytes ≠ some [0x32, 0x32]) from
    ⟨hcalls, hutf8.trans h.utf8, hstate.trans h.state, hkept.1, hkept.2.1, hkept.2.2⟩
  have hsel := h.selector
  have hp := isPointerOsc_false.mp h.pointer
  simp only [firstArgument] at hsel
  unfold oscByte
  rw [if_neg hbell, h.pointer]
  by_cases hctl : b ≤ 0x1f
  · rw [if_pos hctl]
    have hsep : b ≠ 0x3b := by
      rintro rfl
      exact absurd hctl (by decide)
    refine ⟨h.pointer, h.ends, fun hends => ?_⟩
    have := hsel hends
    rwa [if_neg (by tauto), if_pos hctl] at this
  rw [if_neg hctl]
  by_cases hsep : b = 0x3b
  · rw [if_pos hsep]
    split_ifs with hroom
    · refine ⟨?_, forall_mem_append.mpr ⟨h.ends, forall_mem_singleton.mpr le_rfl⟩, by simp⟩
      · rw [isPointerOsc_false]
        rintro ⟨hhead, htake⟩
        cases hends : p.oscEnds with
        | nil =>
          -- the argument that is closed is all that was stored
          have hlen : p.osc.length = 2 := by simpa [hends] using hhead
          have hfirst := hsel hends
          rw [if_pos (by tauto)] at hfirst
          exact hfirst (by rw [← htake, ← hlen, take_length])
        | cons e ends => exact hp ⟨by simpa [hends] using hhead, htake⟩
    · refine ⟨h.pointer, h.ends, fun hends => absurd ?_ hroom⟩
      rw [show p.oscEnds = [] from hends]
      decide
  rw [if_neg hsep]
  have hgoes : p.oscEnds = [] → firstArgument (p.osc ++ [b]) bytes ≠ some [0x32, 0x32] := by
    intro hends
    have := hsel hends
    rwa [if_neg (by tauto), if_neg hctl] at this
  split_ifs with hroom
  · refine ⟨?_, fun e he => ?_, hgoes⟩
    · rw [isPointerOsc_false]
      rintro ⟨hhead, htake⟩
      have hlen : 2 ≤ p.osc.length := h.ends 2 (mem_of_head? hhead)
      refine hp ⟨hhead, ?_⟩
      rwa [take_append_of_le_length hlen] at htake
    · rw [length_append]
      exact (h.ends e he).trans (Nat.le_add_right _ _)
  · refine ⟨h.pointer, h.ends, fun hends hfirst => ?_⟩
    -- what is stored is longer than the selector
    have hlong : OSC_RAW_BUF_SIZE ≤ p.osc.length := by
      by_contra hlt
      refine hroom ⟨by omega, ?_⟩
      rw [show p.oscEnds = [] from hends]
      decide
    have hshort := (firstArgument_extends hfirst).length_le
    simp only [OSC_RAW_BUF_SIZE, length_cons, length_nil] at hlong hshort
    omega

/-- The string ends, and its payload is all that differs. -/
theorem Elsewhere.last (hp : p.Elsewhere (b :: bytes)) (hq : q.Elsewhere (b :: bytes))
    (hb : b = 0x07 ∨ b = 0x18 ∨ b = 0x1a ∨ b = 0x1b) :
    EndsApart (p.consume b).1 (q.consume b).1 ∧ Alike (p.consume b).2 (q.consume b).2 := by
  have hconsume : ∀ {r : Parser}, r.Elsewhere (b :: bytes) → r.consume b =
      if b = 0x18 ∨ b = 0x1a then ((r.endString false).1 ++ [.execute b], { (r.endString false).2 with state := .text })
      else if b = 0x1b then ((r.endString false).1, { (r.endString false).2.clearHeader with state := .escape })
      else r.oscByte b := by
    intro r hr
    rw [consume, if_neg (by simp [hr.utf8]), control_osc hr.state hr.pointer]
  obtain ⟨x, hx, hox, hxu⟩ := hp.ended hb false
  obtain ⟨y, hy, hoy, hyu⟩ := hq.ended hb false
  rw [hconsume hp, hconsume hq, hx, hy]
  split_ifs with hcan hesc
  · exact ⟨⟨x, y, false, [.execute b], rfl, rfl, hox, hoy⟩, .of_nil rfl hxu hyu trivial⟩
  · exact ⟨⟨x, y, false, [], rfl, rfl, hox, hoy⟩, .of_nil rfl hxu hyu ⟨rfl, rfl⟩⟩
  · have hbell : b = 0x07 := by tauto
    obtain ⟨x, hx, hox, hxu⟩ := hp.ended hb true
    obtain ⟨y, hy, hoy, hyu⟩ := hq.ended hb true
    rw [oscByte, oscByte, if_pos hbell, if_pos hbell]
    exact ⟨⟨x, y, true, [], hx, hy, hox, hoy⟩, .of_nil rfl hxu hyu trivial⟩

/-- Either the string is still open after some bytes, or it has ended. -/
theorem Elsewhere.consumeAll (hp : p.Elsewhere (bytes ++ more)) (hq : q.Elsewhere (bytes ++ more)) :
    ((p.consumeAll bytes).1 = [] ∧ (q.consumeAll bytes).1 = [] ∧
      (p.consumeAll bytes).2.Elsewhere more ∧ (q.consumeAll bytes).2.Elsewhere more) ∨
    (EndsApart (p.consumeAll bytes).1 (q.consumeAll bytes).1 ∧
      Alike (p.consumeAll bytes).2 (q.consumeAll bytes).2) := by
  induction bytes generalizing p q with
  | nil => exact .inl ⟨rfl, rfl, hp, hq⟩
  | cons b bytes ih =>
    by_cases hb : b = 0x07 ∨ b = 0x18 ∨ b = 0x1a ∨ b = 0x1b
    · obtain ⟨hend, halike⟩ := Elsewhere.last hp hq hb
      obtain ⟨hcalls, halike⟩ := alike_consumeAll halike bytes
      refine .inr ⟨?_, halike⟩
      simp only [Parser.consumeAll, hcalls]
      exact hend.append _
    · obtain ⟨hpc, hp'⟩ := hp.next hb
      obtain ⟨hqc, hq'⟩ := hq.next hb
      simp only [Parser.consumeAll, hpc, hqc, nil_append]
      exact ih hp' hq'

/-! ## The hand-off -/

def feed (p : Parser) : List (List UInt8) → List Action × Parser
  | [] => ([], p)
  | bytes :: chunks =>
    let here := p.advance bytes
    let rest := here.2.feed chunks
    (here.1 ++ rest.1, rest.2)

theorem sound_feed (h : p.Sound) (chunks : List (List UInt8)) : (p.feed chunks).2.Sound := by
  induction chunks generalizing p with
  | nil => exact h
  | cons bytes chunks ih => exact ih (sound_advance h bytes)

/-- What a decoder goes on with is within the arrays of the source. -/
structure Bounded (p : Parser) : Prop where
  utf8 : p.utf8.length < 4
  header : Headed p.state → p.Numeric ∧ p.intermediates.length ≤ 2
  string : Stringed p.state → p.Stored

/-- What a decoder remembers stays within the arrays of the source, whatever it has read. -/
theorem reached_bounded (history : List (List UInt8)) : Bounded (feed {} history).2 := by
  have h := sound_feed sound_new history
  generalize (feed {} history).2 = p at h
  refine ⟨?_, fun hs => ?_, fun hs => (h.stored hs).1⟩
  · by_contra hlong
    obtain ⟨-, hincomplete, -⟩ := h.begun (fun he => by simp [he] at hlong)
    match hp : p.utf8 with
    | [] | [_] | [_, _] | [_, _, _] => simp [hp] at hlong
    | _ :: _ :: _ :: _ :: _ =>
      simp only [hp, utf8Head] at hincomplete
      split_ifs at hincomplete
  · obtain ⟨_, _, hparts⟩ := h.state.header hs
    exact ⟨hparts.numeric, hparts.collected.fits⟩

/-- Decoders that are alike make the same calls on every stream of chunks. -/
theorem alike_feed (h : Alike p q) (hp : p.Sound) (chunks : List (List UInt8)) :
    (q.feed chunks).1 = (p.feed chunks).1 := by
  induction chunks generalizing p q with
  | nil => rfl
  | cons bytes chunks ih =>
    obtain ⟨hcalls, halike⟩ := alike_advance h hp.settled bytes
    simp only [feed, hcalls, ih halike (sound_advance hp bytes)]

theorem Elsewhere.advance (h : p.Elsewhere more) : p.advance bytes = p.consumeAll bytes := by
  rw [Parser.advance, if_neg (by simp [h.utf8])]

theorem Elsewhere.feed {chunks : List (List UInt8)} (hp : p.Elsewhere chunks.flatten) (hq : q.Elsewhere chunks.flatten)
    (hsound : p.Sound) : ((p.feed chunks).1 = [] ∧ (q.feed chunks).1 = []) ∨
      EndsApart (p.feed chunks).1 (q.feed chunks).1 := by
  induction chunks generalizing p q with
  | nil => exact .inl ⟨rfl, rfl⟩
  | cons bytes chunks ih =>
    have hsound' := sound_advance hsound bytes
    simp only [Parser.feed]
    rw [hp.advance] at hsound' ⊢
    rw [hq.advance]
    rcases Elsewhere.consumeAll hp hq with ⟨hpc, hqc, hp', hq'⟩ | ⟨hend, halike⟩
    · rw [hpc, hqc]
      exact ih hp' hq' hsound'
    · rw [alike_feed halike hsound']
      exact .inr (hend.append _)

def pointerRequest : Action → Option (List (List UInt8))
  | .oscDispatch (selector :: args) _ => if selector = [0x32, 0x32] then some args else none
  | _ => none

theorem OtherString.pointerRequest {call : Action} {bell : Bool} (h : OtherString call bell) :
    pointerRequest call = none := by
  obtain ⟨args, rfl, hhead⟩ := h
  cases args with
  | nil => rfl
  | cons selector args =>
    rw [Parser.pointerRequest, if_neg]
    rintro rfl
    exact hhead rfl

theorem Dropped.elsewhere (h : p.Sound) (hd : p.Dropped) (bytes : List UInt8) : p.Elsewhere bytes := by
  obtain ⟨hs, hr⟩ := hd
  obtain ⟨hpointer, hpre⟩ := not_or.mp hr
  exact ⟨h.utf8_nil (by simp [hs]), hs, by simpa using hpointer, (h.stored (.inl hs)).1.ends,
    fun hends hfirst => hpre ⟨hends, firstArgument_extends hfirst⟩⟩

theorem restored_dropped (hd : p.Dropped) : p.restored = { state := .osc } := by
  obtain ⟨hs, hr⟩ := hd
  rw [restored_eq, replayPrefix]
  rw [writeOscPrefix_eq, if_neg hr, hs]
  rfl

/-- **Handing a decoder over.** Whatever a decoder has read, the one restored from its prefix makes
the same calls on any later chunks. If the prefix left out the payload of a string that was open,
and the rest of that string does not read as a pointer request by itself, then its end is the only
call that differs. Either way the pointer requests are the same. -/
theorem parser_handoff (history chunks : List (List UInt8))
    (h : (feed {} history).2.Dropped → firstArgument [] chunks.flatten ≠ some [0x32, 0x32]) :
    let p := (feed {} history).2
    (¬ p.Dropped → (p.restored.feed chunks).1 = (p.feed chunks).1) ∧
    ((p.restored.feed chunks).1 = (p.feed chunks).1 ∨
      ∃ x y bell rest, (p.feed chunks).1 = x :: rest ∧ (p.restored.feed chunks).1 = y :: rest ∧
        OtherString x bell ∧ OtherString y bell) ∧
    (p.restored.feed chunks).1.filterMap pointerRequest = (p.feed chunks).1.filterMap pointerRequest := by
  intro p
  have hsound : p.Sound := sound_feed sound_new history
  by_cases hd : p.Dropped
  · have hp : p.Elsewhere chunks.flatten := hd.elsewhere hsound _
    have hq : p.restored.Elsewhere chunks.flatten := by
      rw [restored_dropped hd]
      exact ⟨rfl, rfl, rfl, nofun, fun _ => h hd⟩
    rcases Elsewhere.feed hp hq hsound with ⟨hpc, hqc⟩ | ⟨x, y, bell, rest, hx, hy, hox, hoy⟩
    · rw [hpc, hqc]
      exact ⟨fun hn => absurd hd hn, .inl rfl, rfl⟩
    · refine ⟨fun hn => absurd hd hn, .inr ⟨x, y, bell, rest, hx, hy, hox, hoy⟩, ?_⟩
      rw [hx, hy, filterMap_cons_none hox.pointerRequest, filterMap_cons_none hoy.pointerRequest]
  · have hcalls := alike_feed (alike_restored hsound hd) hsound chunks
    exact ⟨fun _ => hcalls, .inl hcalls, by rw [hcalls]⟩

end

namespace Sample

/-- A cursor position with two parameters, cut in the second one. -/
theorem split_sequence :
    (feed {} [[0x1b, 0x5b, 0x31, 0x32, 0x3b, 0x33]]).2.replayPrefix = [0x1b, 0x5b, 0x31, 0x32, 0x3b, 0x33] ∧
    ((feed {} [[0x1b, 0x5b, 0x31, 0x32, 0x3b, 0x33]]).2.restored.feed [[0x34, 0x48]]).1
      = ((feed {} [[0x1b, 0x5b, 0x31, 0x32, 0x3b, 0x33]]).2.feed [[0x34, 0x48]]).1 :=
  ⟨by decide +kernel, (parser_handoff [[0x1b, 0x5b, 0x31, 0x32, 0x3b, 0x33]] [[0x34, 0x48]]
    fun h => absurd h (by decide +kernel)).1 (by decide +kernel)⟩

def title : List UInt8 := [0x1b, 0x5d, 0x30, 0x3b]

def rest : List UInt8 := [0x32, 0x32, 0x3b, 0x74, 0x65, 0x78, 0x74, 0x07]

/-- The decoder sets a title, the restored one asks for a pointer shape. -/
theorem title_becomes_pointer :
    ((feed {} [title]).2.feed [rest]).1 = [.oscDispatch [[0x30], [0x32, 0x32], [0x74, 0x65, 0x78, 0x74]] true] ∧
    ((feed {} [title]).2.restored.feed [rest]).1 = [.oscDispatch [[0x32, 0x32], [0x74, 0x65, 0x78, 0x74]] true] ∧
    ((feed {} [title]).2.feed [rest]).1.filterMap pointerRequest = [] ∧
    ((feed {} [title]).2.restored.feed [rest]).1.filterMap pointerRequest = [[[0x74, 0x65, 0x78, 0x74]]] := by
  decide +kernel

end Sample

end Parser
end Bmux.Terminal
