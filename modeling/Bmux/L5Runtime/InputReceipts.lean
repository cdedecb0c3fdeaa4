import Bmux.L5Runtime.LaunchOnce

/-!
# Receipts of input

A send commits its receipt as `writing`, hands the bytes to the pane, and then commits the
outcome **from the copy of the receipt it made before**. So the bytes are handed over at most
once (`Sent`), but a resolution that acknowledges the receipt while the send is still in flight
is overwritten: a `rejected` receipt becomes `completed`, at the same revision
(`Sample.acknowledged_overwritten`).

`Patient` rules this out: no resolution stores the acknowledgement of an input whose send is in flight. In runs
of patient steps the copy of a send in flight is what is stored (`Held`), and then a receipt
changes only towards its end and with a higher revision.
-/
namespace Bmux.Reservations
open Canonical (Uuid)
open List Authority ReservationStore Call
open SectionM (Ensures)
open Authority (within_of within_cases)

def Call.copy : Call → Option ((Uuid × Uuid) × StoredInput)
  | .claimed reference mutation _ claim => some ((reference.executionToken, mutation), claim)
  | .written reference mutation claim _ => some ((reference.executionToken, mutation), claim)
  | _ => none

variable (key : Uuid × Uuid)

def Call.sends (call : Call) : Bool := call.copy.any (·.1 = key)

def Call.writesTo : Call → Bool
  | .claimed reference mutation _ _ => (reference.executionToken, mutation) = key
  | _ => false

def Event.writesTo : Event → Bool
  | .wrote reference mutation _ => (reference.executionToken, mutation) = key
  | _ => false

def Authority.writes (s : Authority) (key : Uuid × Uuid) : Nat :=
  s.calls.countP (·.writesTo key) + s.log.countP (·.writesTo key)

/-- At most one send of an input is or was under way, and none without a receipt. -/
structure Sent (s : Authority) : Prop where
  writes : ∀ key, s.writes key ≤ if key ∈ s.store.inputs then 1 else 0
  sends : ∀ key, s.calls.countP (·.sends key) ≤ if key ∈ s.store.inputs then 1 else 0

theorem sent_init : Sent init := ⟨fun _ => zero_le, fun _ => zero_le⟩

/-! ## Steps without input -/

def inputsView : View (Directory (Uuid × Uuid) StoredInput) where
  store s := s.inputs
  calls c := c.copy.isSome
  events
    | .wrote .. => true
    | _ => false

abbrev Still := Same inputsView

section

variable {s t : Authority}

theorem Same.inputs (h : Still s t) : t.store.inputs = s.store.inputs := h.store

theorem Same.copies (h : Still s t) {call : Call} (hc : call ∈ t.calls) (hcopy : call.copy.isSome) : call ∈ s.calls :=
  h.calls call hc hcopy

theorem Same.sends (h : Still s t) (key : Uuid × Uuid) : t.calls.countP (·.sends key) ≤ s.calls.countP (·.sends key) :=
  h.count (·.sends key) fun _ hc => Option.isSome_of_any hc

theorem Same.writes (h : Still s t) (key : Uuid × Uuid) : t.writes key ≤ s.writes key := by
  have hcalls := h.count (·.writesTo key) fun c hc => by cases c <;> first | rfl | cases hc
  have hlog : t.log.countP (·.writesTo key) = s.log.countP (·.writesTo key) :=
    h.countP_log fun e he => by cases e <;> first | rfl | cases he
  simp only [Authority.writes]
  omega

end

/-- A step of a send, or the end of a resolution. -/
def Input.concernsInput : Input → Bool
  | .send .. | .write .. | .completeInput .. | .settle .. => true
  | _ => false

/-- Every step but those of a send and the end of a resolution. -/
theorem still_step {s t : Authority} {input : Input} (hstep : step s input = some t) (h : input.concernsInput = false) :
    Still s t := by
  apply same_step hstep
  cases input with
  | send | write | completeInput | settle => cases h
  | _ => simp [View.Ignores, inputsView, copy]

/-! ## Steps of a send -/

/-- No resolution changes the receipt of an input whose send is in flight; one that is refused or not stored may
name it. -/
def Patient (s : Authority) : Input → Prop
  | .settle host i => ∀ request effect s₁ key, s.resume i = some (.settling request effect, s₁) →
      ((settleResolution host request effect).exec s.store host.publications).2.inputs.lookup key ≠
        s.store.inputs.lookup key →
      ∀ call ∈ s.calls, call.sends key = false
  | _ => True

def Held (s : Authority) : Prop :=
  ∀ call ∈ s.calls, ∀ key claim, call.copy = some (key, claim) →
    s.store.inputs.lookup key = some claim ∧ claim.receipt.phase = .writing

/-- A receipt does not change, or it was open and its revision goes up. -/
def StoredInput.Proceeds (v w : StoredInput) : Prop :=
  w = v ∨ (v.receipt.phase ≠ .completed ∧ v.receipt.phase ≠ .rejected ∧ v.receipt.revision < w.receipt.revision)

/-- What a step does to the receipts of input and to their sends. -/
inductive Sending (s : Authority) (input : Input) : Authority → Prop
  | still {t} (h : Still s t) : Sending s input t
  /-- the first send of a mutation -/
  | claim {t reference mutation data} (hnone : s.store.inputs.lookup (reference.executionToken, mutation) = none)
      (hst : t.store = s.store.setInput (reference.executionToken, mutation) (.new reference mutation data))
      (hlog : t.log = s.log)
      (hcalls : t.calls <+ .claimed reference mutation data (.new reference mutation data) :: s.calls) :
        Sending s input t
  | write {i result reference mutation data claim s₁}
      (hr : s.resume i = some (.claimed reference mutation data claim, s₁)) :
      Sending s input ((s₁.emit (.wrote reference mutation data)).start (.written reference mutation claim result))
  /-- the end of a send, which commits from its copy, or of a resolution that acknowledges a receipt -/
  | commit {t i call s₁ key w} (hr : s.resume i = some (call, s₁)) (hrest : Still s₁ { t with store := s₁.store })
      (hst : t.store.inputs = (s.store.setInput key w).inputs)
      (hfree : Sent s → Patient s input → ∀ other ∈ s₁.calls, other.sends key = false)
      (hproceeds : Held s → ∀ v, s.store.inputs.lookup key = some v → v.Proceeds w) : Sending s input t

section

variable {s t : Authority} {input : Input} {host : Host} {i : Nat} {reference : ExecutionRef} {mutation : Uuid}
  {data : List UInt8} {key : Uuid × Uuid}

theorem sends_of_copy {call : Call} {claim : StoredInput} (h : call.copy = some (key, claim)) :
    call.sends key = true := by
  rw [sends, h]
  simp

theorem still_rest {α : Type} {answer : α → Answer} {st : ReservationStore} (r : Except RecoveryError α) :
    Still s { (s.put st).answer answer r with store := s.store } := by
  cases r with
  | ok a => exact Same.emit s rfl
  | error e => exact Same.refl s

theorem sending_send {current : Except ExecutionError ExecutionStatus} {capture : Capture}
    (hstep : step s (.send host reference mutation data current capture) = some t) : Sending s input t := by
  obtain ⟨r, st, ⟨rfl, hno⟩ | ⟨hnone, -, rfl, hclaim⟩, rfl⟩ := within_cases (Option.some.inj hstep) claimInput_spec
  · apply Sending.still
    match r with
    | .ok (true, claim) => exact absurd rfl (hno claim)
    | .ok (false, _) => exact Same.emit s rfl
    | .error _ => exact Same.refl s
  · match r with
    | .ok (true, claim) =>
      cases hclaim _ rfl
      exact .claim hnone rfl rfl (.refl _)
    | .ok (false, claim) => cases hclaim _ rfl
    | .error _ => exact .claim hnone rfl rfl (sublist_cons_self _ _)

/-- The end of a send commits from the copy, or commits nothing. -/
theorem sending_completeInput (hstep : step s (.completeInput host i) = some t) : Sending s input t := by
  cases stepped hstep with
  | @completeInput host i reference mutation claim result s₁ hr =>
    obtain ⟨hst, -, hperm⟩ := resume_eq hr
    generalize ht : within s₁ _ _ _ = t
    obtain ⟨r, st, rfl | rfl, rfl⟩ := within_cases ht completeInput_spec
    · exact .still ((Same.resume hr).trans (Same.answer _ r fun _ => rfl))
    · refine .commit hr (still_rest r) (by rw [answer_store, ← hst]; rfl) ?_ ?_
      · -- another send of the same input would be a second one
        intro hsent _ call hc
        by_contra hsends
        have hone := hsent.sends (reference.executionToken, mutation)
        have hpos : 0 < s₁.calls.countP (·.sends (reference.executionToken, mutation)) :=
          countP_pos_iff.mpr ⟨call, hc, by simpa using hsends⟩
        rw [← hperm.countP_eq, countP_cons, if_pos (sends_of_copy rfl)] at hone
        split at hone <;> omega
      · intro h v hv
        obtain ⟨hl, hphase⟩ := h (.written reference mutation claim result) (hperm.mem_iff.mp (by simp)) _ claim rfl
        rw [hv] at hl
        cases hl
        refine .inr ⟨by rw [hphase]; simp, by rw [hphase]; simp, ?_⟩
        cases result <;> exact Nat.lt_succ_self _

/-- The end of a resolution acknowledges a receipt, or none. -/
theorem sending_settle (hstep : step s (.settle host i) = some t) : Sending s (.settle host i) t := by
  cases stepped hstep with
  | @settle host i request effect s₁ hr =>
    obtain ⟨hst, -, hperm⟩ := resume_eq hr
    obtain ⟨s₂, hack, hend⟩ := settleResolution_spec (s := s₁.store) host.publications
    have hinputs : ((settleResolution host request effect).exec s₁.store host.publications).2.inputs = s₂.inputs := by
      rcases hend with ⟨hend, -⟩ | ⟨m, a, -, -, -, ⟨hend, -⟩ | ⟨hend, -⟩⟩ <;> rw [hend] <;> rfl
    rcases hack with rfl | ⟨haction, id, v, hid, hl, hphase, rfl⟩
    · exact .still ((Same.resume hr).trans ((Same.put s₁ hinputs).trans (Same.answer _ _ fun _ => rfl)))
    · refine .commit hr (still_rest _) (by rw [within, answer_store, put_store, hinputs, ← hst]) ?_ ?_
      · intro _ hpatient call hc
        refine hpatient request effect s₁ _ hr ?_ call (hperm.mem_iff.mp (mem_cons_of_mem _ hc))
        rw [← hst, hinputs, lookup_setInput, if_pos rfl, hl]
        intro heq
        have hrevision := congrArg (fun w => w.receipt.revision) (Option.some.inj heq)
        exact absurd hrevision (Nat.succ_ne_self _)
      · intro _ w hw
        rw [← hst, hl] at hw
        cases hw
        refine .inr ⟨?_, ?_, Nat.lt_succ_self _⟩ <;>
          (intro heq; rw [heq] at hphase; rcases hphase with hp | hp <;> cases hp)

theorem sending_step (hstep : step s input = some t) : Sending s input t := by
  have hstill := still_step hstep
  cases input with
  | send => exact sending_send hstep
  | write =>
    cases stepped hstep with
    | write hr => exact .write hr
  | completeInput => exact sending_completeInput hstep
  | settle => exact sending_settle hstep
  | _ => exact .still (hstill rfl)

/-! ## At most once -/

theorem mem_setInput {st : ReservationStore} {key k : Uuid × Uuid} {v : StoredInput} :
    k ∈ (st.setInput key v).inputs ↔ k = key ∨ k ∈ st.inputs :=
  AList.mem_insert _

theorem Sent.later (h : Sent s) (hin : ∀ key, key ∈ s.store.inputs → key ∈ t.store.inputs)
    (hwrites : ∀ key, t.writes key ≤ s.writes key)
    (hsends : ∀ key, t.calls.countP (·.sends key) ≤ s.calls.countP (·.sends key)) : Sent t := by
  have hmono : ∀ key, (if key ∈ s.store.inputs then 1 else 0) ≤ if key ∈ t.store.inputs then 1 else 0 := by
    intro key
    by_cases hk : key ∈ s.store.inputs
    · rw [if_pos hk, if_pos (hin key hk)]
    · rw [if_neg hk]
      exact zero_le
  exact ⟨fun key => ((hwrites key).trans (h.writes key)).trans (hmono key),
    fun key => ((hsends key).trans (h.sends key)).trans (hmono key)⟩

theorem Sent.still (h : Sent s) (hstill : Still s t) : Sent t :=
  h.later (fun key hk => by rw [hstill.inputs]; exact hk) hstill.writes hstill.sends

/-- The first send of a mutation is the only one under way. -/
theorem Sent.claim (h : Sent s) (hnone : s.store.inputs.lookup (reference.executionToken, mutation) = none)
    (hst : t.store = s.store.setInput (reference.executionToken, mutation) (.new reference mutation data))
    (hlog : t.log = s.log)
    (hcalls : t.calls <+ .claimed reference mutation data (.new reference mutation data) :: s.calls) : Sent t := by
  have hnew : (reference.executionToken, mutation) ∉ s.store.inputs := AList.lookup_eq_none.mp hnone
  have hw := h.writes (reference.executionToken, mutation)
  have hs := h.sends (reference.executionToken, mutation)
  rw [if_neg hnew] at hw hs
  have hmem : ∀ key, key ∈ t.store.inputs ↔ key = (reference.executionToken, mutation) ∨ key ∈ s.store.inputs := by
    intro key
    rw [hst, mem_setInput]
  have hle : ∀ p : Call → Bool, t.calls.countP p ≤ s.calls.countP p +
      if p (.claimed reference mutation data (.new reference mutation data)) then 1 else 0 := by
    intro p
    rw [← countP_cons]
    exact hcalls.countP_le
  refine ⟨?_, ?_⟩ <;> intro key <;> by_cases hk : key = (reference.executionToken, mutation)
  · have hone := hle (·.writesTo key)
    rw [if_pos ((hmem key).mpr (.inl hk)), Authority.writes, hlog]
    rw [Authority.writes, ← hk] at hw
    split at hone <;> omega
  · have hone := hle (·.writesTo key)
    rw [if_neg (by simpa [Call.writesTo] using Ne.symm hk)] at hone
    simp only [hmem, hk, false_or]
    refine le_trans ?_ (h.writes key)
    rw [Authority.writes, Authority.writes, hlog]
    omega
  · have hone := hle (·.sends key)
    rw [if_pos ((hmem key).mpr (.inl hk))]
    rw [← hk] at hs
    split at hone <;> omega
  · have hone := hle (·.sends key)
    rw [if_neg (by simpa [Call.sends, copy] using Ne.symm hk)] at hone
    simp only [hmem, hk, false_or]
    exact hone.trans (h.sends key)

/-- The step lemma of `Sent`. -/
theorem sent_step (h : Sent s) (hstep : step s input = some t) : Sent t := by
  cases sending_step hstep with
  | still hstill => exact h.still hstill
  | claim hnone hst hlog hcalls => exact h.claim hnone hst hlog hcalls
  | @write i result reference mutation data claim s₁ hr =>
    obtain ⟨hst, hlog, hperm⟩ := resume_eq hr
    refine h.later (fun key hk => by show key ∈ s₁.store.inputs; rw [hst]; exact hk) ?_ ?_
    · intro key
      show List.countP _ (written _ _ _ _ :: s₁.calls) + List.countP _ (Event.wrote _ _ _ :: s₁.log) ≤ _
      rw [writes, ← hperm.countP_eq, ← hlog, countP_cons, countP_cons, countP_cons]
      show _ + 0 + (_ + if decide _ = true then 1 else 0) ≤ _ + (if decide _ = true then 1 else 0) + _
      omega
    · intro key
      show List.countP _ (written _ _ _ _ :: s₁.calls) ≤ _
      rw [← hperm.countP_eq, countP_cons, countP_cons]
      exact le_rfl
  | commit hr hrest hst =>
    have hall := (Same.resume hr).trans hrest
    refine h.later (fun key hk => ?_) hall.writes hall.sends
    rw [hst, mem_setInput]
    exact .inr hk

/-! ## Receipts come to an end -/

theorem Held.still (h : Held s) (hstill : Still s t) : Held t := by
  intro call hc key claim hcopy
  rw [hstill.inputs]
  exact h call (hstill.copies hc (by rw [hcopy]; rfl)) key claim hcopy

/-- A commit of one receipt, which no send in flight is about. -/
theorem Held.commit (h : Held s) (hstill : Still s { t with store := s.store }) {v : StoredInput}
    (hst : t.store.inputs = (s.store.setInput key v).inputs) (hfree : ∀ call ∈ s.calls, call.sends key = false) :
    Held t := by
  intro call hc k claim hcopy
  have hold : call ∈ s.calls := hstill.copies hc (by rw [hcopy]; rfl)
  have hk : k ≠ key := by
    rintro rfl
    exact Bool.false_ne_true ((hfree call hold).symm.trans (sends_of_copy hcopy))
  rw [hst, lookup_setInput, if_neg hk]
  exact h call hold k claim hcopy

/-- The step lemma of `Held`, for a patient step. -/
theorem held_step (hsent : Sent s) (h : Held s) (hpatient : Patient s input) (hstep : step s input = some t) :
    Held t := by
  cases sending_step hstep with
  | still hstill => exact h.still hstill
  | claim hnone hst hlog hcalls =>
    intro call hc key claim hcopy
    rw [hst, lookup_setInput]
    rcases mem_cons.mp (hcalls.mem hc) with rfl | hc
    · cases hcopy
      exact ⟨if_pos rfl, rfl⟩
    · have hh := h call hc key claim hcopy
      rw [if_neg]
      · exact hh
      · rintro rfl
        rw [hnone] at hh
        cases hh.1
  | @write i result reference mutation data claim s₁ hr =>
    obtain ⟨hst, -, hperm⟩ := resume_eq hr
    intro call hc key claim' hcopy
    show s₁.store.inputs.lookup key = _ ∧ _
    rw [hst]
    rcases mem_cons.mp hc with rfl | hc
    · exact h (.claimed reference mutation data claim) (hperm.mem_iff.mp (by simp)) key claim' hcopy
    · exact h call (hperm.mem_iff.mp (mem_cons_of_mem _ hc)) key claim' hcopy
  | commit hr hrest hst hfree =>
    rw [← (resume_eq hr).1] at hst
    exact (h.still (Same.resume hr)).commit hrest hst (hfree hsent hpatient)

theorem proceeds_step (h : Held s) (hstep : step s input = some t) {v : StoredInput}
    (hv : s.store.inputs.lookup key = some v) : ∃ w, t.store.inputs.lookup key = some w ∧ v.Proceeds w := by
  cases sending_step hstep with
  | still hstill => exact ⟨v, by rw [hstill.inputs, hv], .inl rfl⟩
  | claim hnone hst =>
    refine ⟨v, ?_, .inl rfl⟩
    rw [hst, lookup_setInput, if_neg, hv]
    rintro rfl
    rw [hnone] at hv
    cases hv
  | write hr => exact ⟨v, (resume_eq hr).1 ▸ hv, .inl rfl⟩
  | commit hr hrest hst _ hproceeds =>
    rw [hst, lookup_setInput]
    split_ifs with hkey
    · exact ⟨_, rfl, hproceeds h v (hkey ▸ hv)⟩
    · exact ⟨v, hv, .inl rfl⟩

end

/-! ## Retries -/

/-- A retry of a send with the same bytes is answered from the file; with other bytes it is
refused. Nothing else happens. -/
theorem send_retry {s : Authority} (hs : s.Valid) {reference : ExecutionRef} {mutation : Uuid} {v : StoredInput}
    (hl : s.store.inputs.lookup (reference.executionToken, mutation) = some v) (hexec : v.receipt.execution = reference)
    (host : Host) (data : List UInt8) (current : Except ExecutionError ExecutionStatus) (capture : Capture) :
    (data ≠ v.data → step s (.send host reference mutation data current capture) = some s) ∧
    (data = v.data → host.admission = .ok () → host.access = .ok () →
      step s (.send host reference mutation data current capture) = some (s.emit (.answered (.input v.receipt)))) := by
  have hin := hs.store.input _ v hl
  obtain ⟨m, a, ha, haexec, -⟩ := hin.execution
  have hfind : s.store.find reference = .ok a := find_of hs.store ha (haexec.trans hexec)
  have herr : ∀ e : RecoveryError, (data = v.data → host.admission = .ok () → host.access = .ok () → False) →
      s.store = s.store ∧ (∀ x, Except.error e = .ok x → x = (false, v) ∧ data = v.data) ∧
      (data = v.data → host.admission = .ok () → host.access = .ok () → Except.error e = .ok (false, v)) :=
    fun e h => ⟨rfl, fun x hx => by (cases hx), fun h₁ h₂ h₃ => (h h₁ h₂ h₃).elim⟩
  have hspec : Ensures (claimInput host reference mutation data current capture) s.store fun r st =>
      st = s.store ∧ (∀ x, r = .ok x → x = (false, v) ∧ data = v.data) ∧
      (data = v.data → host.admission = .ok () → host.access = .ok () → r = .ok (false, v)) := by
    refine .lift (fun e he => herr e fun _ hadm _ => not_both hadm he) (fun _ _ => ?_)
    refine .refuse (fun hlong => herr _ fun hdata _ _ => not_lt.mpr hin.fits (hdata ▸ hlong)) (fun _ => ?_)
    refine .lift (fun e he => herr e fun _ _ hacc => not_both hacc he) (fun _ _ => ?_)
    refine .load ?_
    refine .lift (fun e he => (not_both hfind he).elim) (fun _ _ => ?_)
    rw [hl]
    refine .refuse (fun hbad => hbad.elim (absurd hin.version) (absurd hexec)) (fun _ => ?_)
    refine .refuse (fun hne => herr _ fun hdata _ _ => hne hdata.symm) (fun hsame => ?_)
    exact .pure ⟨rfl, fun x hx => by cases hx; exact ⟨rfl, (not_not.mp hsame).symm⟩, fun _ _ _ => rfl⟩
  refine ⟨fun hne => congrArg some ?_, fun hdata hadm hacc => congrArg some ?_⟩
  · apply within_of (P := fun t => t = s) hspec
    rintro r st ⟨rfl, hx, -⟩
    match r with
    | .error _ => rfl
    | .ok x => exact absurd (hx x rfl).2 hne
  · apply within_of (P := fun t => t = s.emit (.answered (.input v.receipt))) hspec
    rintro r st ⟨rfl, -, hr⟩
    rw [hr hdata hadm hacc]
    rfl

/-! ## Receipts over runs -/

/-- **Receipts of input.** Over all interleavings and crashes, the bytes of an input are handed
to its pane at most once, and a retry gets what is stored or is refused. If no input was
acknowledged while its send was in flight, then a receipt that is `completed` or `rejected` never
changes, and every change before that raises its revision. -/
theorem input_receipts {s : Authority} (h : Reachable s) :
    (∀ key, s.log.countP (·.writesTo key) ≤ 1) ∧
    (∀ reference mutation v, s.store.inputs.lookup (reference.executionToken, mutation) = some v →
      v.receipt.execution = reference → ∀ host data current capture,
        (data ≠ v.data → step s (.send host reference mutation data current capture) = some s) ∧
        (data = v.data → host.admission = .ok () → host.access = .ok () →
          step s (.send host reference mutation data current capture)
            = some (s.emit (.answered (.input v.receipt))))) ∧
    (Run step Patient init s → ∀ input t, step s input = some t →
      ∀ key v, s.store.inputs.lookup key = some v → ∃ w, t.store.inputs.lookup key = some w ∧ v.Proceeds w) := by
  have hsent : Sent s := Run.invariant (I := Sent) h (fun s input t hs _ hstep => sent_step hs hstep) sent_init
  refine ⟨?_, ?_, ?_⟩
  · intro key
    have hle := hsent.writes key
    simp only [writes] at hle
    split at hle <;> omega
  · intro reference mutation v hl hexec host data current capture
    exact send_retry h.invariant.1 hl hexec host data current capture
  · intro hrun input t hstep key v hv
    have hheld := Run.invariant (I := fun s => Sent s ∧ Held s) hrun ?_ ⟨sent_init, nofun⟩
    · exact proceeds_step hheld.2 hstep hv
    · rintro s input t ⟨hs, hh⟩ hpatient hstep
      exact ⟨sent_step hs hstep, held_step hs hh hpatient hstep⟩

namespace Sample

def running : ExecutionStatus := ⟨execution, .running, false, .capturing, none, none, false, none⟩

def send : List Input := launch ++ [.send host execution 6 [104, 105] (.ok running) none]

def sent : List Input := send ++ [.write 0 (.ok ()), .completeInput host 0]

theorem sent_once : (after sent).log.countP (·.writesTo (4, 6)) = 1 ∧
    (∀ key, (after sent).log.countP (·.writesTo key) ≤ 1) ∧
    ∀ input t, step (after sent) input = some t →
      ∀ key v, (after sent).store.inputs.lookup key = some v → ∃ w, t.store.inputs.lookup key = some w ∧
        v.Proceeds w := by
  have hall := input_receipts (s := after sent) (run_after (by decide +kernel) fun _ _ _ => trivial)
  refine ⟨by decide +kernel, hall.1, hall.2.2 (run_after (by decide +kernel) ?_)⟩
  simp [sent, send, launch, admission, Patient]

def race : List Input :=
  send ++ [.resolve host ⟨execution, 7, 3, .acknowledgeUncertainInput, some 6, 0⟩, .act host 0 (.ok ()), .settle host 0,
    .write 0 (.ok ())]

/-- The end of the send makes the `rejected` receipt `completed`, at the revision it had. -/
theorem acknowledged_overwritten : Reachable (after race) ∧
    ((after race).store.inputs.lookup (4, 6)).map (fun v => (v.receipt.phase, v.receipt.revision)) =
      some (.rejected, 2) ∧
    ((step (after race) (.completeInput host 0)).bind fun t => t.store.inputs.lookup (4, 6)).map
      (fun v => (v.receipt.phase, v.receipt.revision)) = some (.completed, 2) :=
  ⟨run_after (by decide +kernel) fun _ _ _ => trivial, by decide +kernel, by decide +kernel⟩

end Sample

end Bmux.Reservations
