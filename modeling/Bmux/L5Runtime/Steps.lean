import Bmux.L5Runtime.Admission

/-!
# Steps of the execution authority

`stepped` inverts `step`, one case per kind of step. Two facts follow for all of them.

* `step_leads`: a step takes a valid state to a valid one, and every launch file to a later
  version of itself.
* `same_step`: what a step leaves alone. A `View` selects a part of the store, some calls and
  some events; a step that is not about them (`View.Ignores`) keeps that part of the store and
  those events, and starts none of those calls.
-/
namespace Bmux.Reservations
open ReservationStore StoredReservation Authority List
open Canonical (Uuid)
open SectionM (Ensures)

/-- What `step` does, with the call that goes on. -/
inductive Stepped (s : Authority) : Input → Authority → Prop where
  | reserve {host mutation options environment authorize} {drawn : Drawn} (h : s.store.Unused drawn.executionToken) :
      Stepped s (.reserve host mutation options environment authorize drawn)
        (s.within host (reserveWith host mutation options environment authorize drawn) fun r s =>
          s.answer .reservation r)
  | launch {host reservation authorize} : Stepped s (.launch host reservation authorize)
      (s.within host (admitLaunch host reservation authorize) (afterAdmission reservation))
  | prepare {host i reservation s₁} (h : s.resume i = some (.admitted reservation, s₁)) :
      Stepped s (.prepare host i) (s₁.within host (launchEnvironment host reservation) (afterPreparation reservation))
  | create {i result reservation environment s₁} (h : s.resume i = some (.prepared reservation environment, s₁)) :
      Stepped s (.create i result) ((s₁.emit (.created reservation environment)).start (.launched reservation result))
  | completeLaunch {host i reservation result s₁} (h : s.resume i = some (.launched reservation result, s₁)) :
      Stepped s (.completeLaunch host i)
        (s₁.within host (completeLaunch host reservation result) fun r s => s.answer .launch r)
  | reconcile {host reference current capture} : Stepped s (.reconcile host reference current capture)
      (s.within host (reconcile host reference current capture) fun r s => s.answer .reconciliation r)
  | send {host reference mutation data current capture} : Stepped s (.send host reference mutation data current capture)
      (s.within host (claimInput host reference mutation data current capture) (afterClaim reference mutation data))
  | write {i result reference mutation data claim s₁}
      (h : s.resume i = some (.claimed reference mutation data claim, s₁)) :
      Stepped s (.write i result)
        ((s₁.emit (.wrote reference mutation data)).start (.written reference mutation claim result))
  | completeInput {host i reference mutation claim result s₁}
      (h : s.resume i = some (.written reference mutation claim result, s₁)) :
      Stepped s (.completeInput host i)
        (s₁.within host (completeInput host reference mutation claim result) fun r s => s.answer .input r)
  | retire {host reference mutation expected capture} : Stepped s (.retire host reference mutation expected capture)
      (s.within host (retire host reference mutation expected capture) fun r s =>
        s.answer (.retirement mutation expected) r)
  | resolve {host request} : Stepped s (.resolve host request)
      (s.within host (claimResolution host request) (afterIntent request))
  | act {host i terminated request s₁} (h : s.resume i = some (.resolving request, s₁)) :
      Stepped s (.act host i terminated)
        ((s₁.emitAction request).start (.settling request (resolutionEffect host request terminated)))
  | settle {host i request effect s₁} (h : s.resume i = some (.settling request effect, s₁)) :
      Stepped s (.settle host i)
        (s₁.within host (settleResolution host request effect) fun r s => s.answer .resolution r)
  | crash : Stepped s .crash { s with calls := [] }

variable {s t : Authority} {input : Input}

theorem stepped (h : step s input = some t) : Stepped s input t := by
  unfold step at h
  split at h
  case h_2 | h_6 | h_7 | h_10 | h_11 | h_14 =>
    cases h
    constructor
  -- those with a guard, and the phases that have to find their call
  all_goals
    split at h
    · rename_i hfound
      cases h
      constructor
      exact hfound
    · cases h

/-- The copy of an input that a send keeps while it writes could be its file. -/
def Call.Sound (s : ReservationStore) : Call → Prop
  | .claimed reference mutation _ claim => s.AdmittedInput (reference.executionToken, mutation) claim
  | .written reference mutation claim _ => s.AdmittedInput (reference.executionToken, mutation) claim
  | _ => True

structure Authority.Valid (s : Authority) : Prop where
  store : s.store.Valid
  calls : ∀ call ∈ s.calls, call.Sound s.store

theorem Call.Sound.grows {s t : ReservationStore} {call : Call} (h : call.Sound s) (hg : s.Grows t) : call.Sound t := by
  cases call with
  | claimed | written => exact AdmittedInput.grows h hg
  | _ => trivial

namespace Authority

variable {α : Type} {s t : Authority}

theorem valid_init : init.Valid := ⟨valid_empty, nofun⟩

theorem Valid.put (h : s.Valid) {store : ReservationStore} (hv : store.Valid) (hg : s.store.Grows store) :
    (s.put store).Valid :=
  ⟨hv, fun call hc => (h.calls call hc).grows hg⟩

theorem Valid.emit (h : s.Valid) (event : Event) : (s.emit event).Valid := ⟨h.store, h.calls⟩

theorem Valid.answer (h : s.Valid) (f : α → Answer) (r : Except RecoveryError α) : (s.answer f r).Valid := by
  cases r with
  | ok a => exact h.emit _
  | error e => exact h

theorem Valid.start (h : s.Valid) {call : Call} (hc : call.Sound s.store) : (s.start call).Valid :=
  ⟨h.store, forall_mem_cons.mpr ⟨hc, h.calls⟩⟩

theorem Valid.resume (h : s.Valid) {i : Nat} {call : Call} (hr : s.resume i = some (call, t)) :
    t.Valid ∧ call.Sound t.store ∧ t.store = s.store := by
  obtain ⟨hst, -, hperm⟩ := resume_eq hr
  have hcalls : ∀ c ∈ call :: t.calls, c.Sound t.store := by
    intro c hc
    rw [hst]
    exact h.calls c (hperm.mem_iff.mp hc)
  refine ⟨⟨by rw [hst]; exact h.store, fun c hc => hcalls c (by simp [hc])⟩, hcalls call (by simp), hst⟩

@[simp] theorem put_store (store : ReservationStore) : (s.put store).store = store := rfl

variable (request : ResolutionRequest) (f : α → Answer) (r : Except RecoveryError α)

@[simp] theorem answer_store : (s.answer f r).store = s.store := by
  cases r <;> rfl

@[simp] theorem answer_calls : (s.answer f r).calls = s.calls := by
  cases r <;> rfl

@[simp] theorem emitAction_store : (s.emitAction request).store = s.store := by
  unfold emitAction
  split <;> rfl

@[simp] theorem emitAction_calls : (s.emitAction request).calls = s.calls := by
  unfold emitAction
  split <;> rfl

end Authority

open Authority (Valid within_of)

namespace ReservationStore

variable {s t : ReservationStore} {request : ResolutionRequest}

theorem Acknowledges.grows (h : s.Acknowledges request t) : s.Grows t := by
  rcases h with rfl | ⟨-, id, v, -, -, -, rfl⟩
  · exact .refl _
  · exact .of_eq rfl

theorem Acknowledges.launches (h : s.Acknowledges request t) : t.launches = s.launches := by
  rcases h with rfl | ⟨-, id, v, -, -, -, rfl⟩ <;> rfl

theorem Acknowledges.valid (h : s.Acknowledges request t) (hv : s.Valid) : t.Valid := by
  rcases h with rfl | ⟨-, id, v, -, hl, -, rfl⟩
  · exact hv
  · have hin := hv.input _ v hl
    exact valid_setInput hv { hin with }

theorem Grows.trans {u : ReservationStore} (h : s.Grows t) (h' : t.Grows u) : s.Grows u := by
  intro m a ha
  obtain ⟨b, hb, hab⟩ := h m a ha
  obtain ⟨c, hc, hbc⟩ := h' m b hb
  refine ⟨c, hc, ?_⟩
  rcases hab with rfl | hab
  · exact hbc
  · rcases hbc with rfl | hbc
    · exact .inr hab
    · exact .inr (hab.trans hbc)

end ReservationStore

/-- A section leaves a valid store, with later versions of the launch files. -/
def Keeps {α : Type} (m : StoreM α) (s : ReservationStore) : Prop :=
  Ensures m s fun _ s' => s'.Valid ∧ s.Grows s'

section

variable {s : ReservationStore} {host : Host} (hv : s.Valid)
include hv

variable {mutation : Uuid}

theorem keeps_reserve {options : ProgramOptions} {environment : Option (List EnvironmentEntry)}
    {authorize : Uuid → Except RecoveryError Unit} {drawn : Drawn} (hfresh : s.Unused drawn.executionToken) :
    Keeps (reserveWith host mutation options environment authorize drawn) s := by
  refine reserveWith_spec.mono ?_
  rintro r s' (rfl | ⟨hnone, henv, rfl⟩)
  · exact ⟨hv, .refl _⟩
  · have hnew : (new (.new mutation options drawn) environment).Admitted mutation :=
      admitted_new henv
    exact ⟨valid_new hv hnone hnew hfresh, grows_new hnone hnew⟩

theorem keeps_setLaunch {m : Uuid} {a b : StoredReservation} (h : s.launches.lookup m = some a) (hab : a.Advances b) :
    (s.setLaunch b).Valid ∧ s.Grows (s.setLaunch b) :=
  ⟨valid_setLaunch hv h hab, grows_setLaunch hv h hab⟩

variable {reservation : LaunchReservation}

theorem keeps_admitLaunch {authorize : Uuid → Except String Unit} :
    Keeps (admitLaunch host reservation authorize) s := by
  refine admitLaunch_spec.mono ?_
  rintro r s' (⟨rfl, -⟩ | ⟨a, ha, -, -, rfl, -⟩)
  · exact ⟨hv, .refl _⟩
  · exact keeps_setLaunch hv ha (advances_moved (by simp))

theorem keeps_completeLaunch {result : Except ExecutionError ExecutionRef} :
    Keeps (completeLaunch host reservation result) s := by
  refine completeLaunch_spec.mono ?_
  rintro r s' (rfl | ⟨a, ha, rfl⟩)
  · exact ⟨hv, .refl _⟩
  · exact keeps_setLaunch hv ha (advances_launched _ _ _)

variable {reference : ExecutionRef} {capture : Capture}

variable {current : Except ExecutionError ExecutionStatus}

theorem keeps_reconcile : Keeps (reconcile host reference current capture) s := by
  refine reconcile_spec.mono ?_
  rintro r s' (rfl | ⟨status, -, m, a, ha, -, rfl⟩)
  · exact ⟨hv, .refl _⟩
  · exact keeps_setLaunch hv ha (advances_reconciled _)

theorem keeps_claimInput {data : List UInt8} :
    Keeps (claimInput host reference mutation data current capture) s := by
  refine claimInput_spec.mono ?_
  rintro r s' (⟨rfl, -⟩ | ⟨-, hnew, rfl, -⟩)
  · exact ⟨hv, .refl _⟩
  · exact ⟨valid_setInput hv hnew, .of_eq rfl⟩

theorem keeps_completeInput {claim : StoredInput}
    {result : Except ExecutionError Unit} (h : s.AdmittedInput (reference.executionToken, mutation) claim) :
    Keeps (completeInput host reference mutation claim result) s := by
  refine completeInput_spec.mono ?_
  rintro r s' (rfl | rfl)
  · exact ⟨hv, .refl _⟩
  · refine ⟨valid_setInput hv ?_, .of_eq rfl⟩
    cases result <;> exact { h with }

theorem keeps_retire {expected : Nat} :
    Keeps (retire host reference mutation expected capture) s := by
  refine retire_spec.mono ?_
  rintro r s' ⟨rfl | ⟨retained, hl, rfl, -, m, a, ha, -, hrev, rfl⟩ | ⟨-, m, a, ha, hexec, hrev, hphase, h⟩, -⟩
  · exact ⟨hv, .refl _⟩
  · apply keeps_setLaunch hv ha
    apply advances_retiredAt
    rw [(hv.retirement _ _ hl).revision, hrev]
    exact Nat.lt_succ_self _
  · have hintent : s.AdmittedRetirement ⟨4, expected, ⟨reference, mutation, expected + 1, true⟩⟩ :=
      ⟨rfl, m, a, ha, hexec, hrev.ge, fun _ => hphase⟩
    have hv' : (s.setRetirement (reference.executionToken, mutation) _).Valid :=
      valid_setRetirement hv hintent
    rcases h with rfl | rfl
    · exact ⟨hv', .of_eq rfl⟩
    · have ha' : (s.setRetirement (reference.executionToken, mutation)
          ⟨4, expected, ⟨reference, mutation, expected + 1, true⟩⟩).launches.lookup m = some a := ha
      have hadv : a.Advances (a.retiredAt (expected + 1)) := advances_retiredAt (by omega)
      have hk := keeps_setLaunch hv' ha' hadv
      exact ⟨hk.1, Grows.trans (.of_eq rfl) hk.2⟩

variable {request : ResolutionRequest}

theorem keeps_claimResolution : Keeps (claimResolution host request) s := by
  refine claimResolution_spec.mono ?_
  rintro r s' (⟨rfl, -⟩ | ⟨-, rfl, -⟩)
  · exact ⟨hv, .refl _⟩
  · exact ⟨valid_setResolution hv _, .of_eq rfl⟩

theorem keeps_settleResolution {effect : Except String Unit} :
    Keeps (settleResolution host request effect) s := by
  refine settleResolution_spec.mono ?_
  rintro r s' ⟨s₁, hack, h⟩
  have hv₁ := hack.valid hv
  rcases h with ⟨rfl, -⟩ | ⟨m, a, ha, -, -, h⟩
  · exact ⟨hv₁, hack.grows⟩
  · rw [← hack.launches] at ha
    have hk := keeps_setLaunch hv₁ ha (advances_settled request.action effect)
    rcases h with ⟨rfl, -⟩ | ⟨rfl, -⟩
    · exact ⟨hk.1, hack.grows.trans hk.2⟩
    · exact ⟨valid_setResolution hk.1 _, hack.grows.trans (hk.2.trans (.of_eq rfl))⟩

end

/-- A valid system with later versions of the launch files. -/
def Authority.Leads (s t : Authority) : Prop := t.Valid ∧ s.store.Grows t.store

/-- A step from a valid system leads on: the system stays valid, and launch files only move forward. -/
theorem step_leads (hv : s.Valid) (h : step s input = some t) : s.Leads t := by
  have hput : ∀ {s₁ : Authority} {st : ReservationStore}, s₁.Valid → s₁.store = s.store →
      st.Valid ∧ s₁.store.Grows st → s.Leads (s₁.put st) := by
    intro s₁ st hv₁ hst hk
    exact ⟨hv₁.put hk.1 hk.2, hst ▸ hk.2⟩
  -- a section whose end is the answer
  have hanswer : ∀ {α : Type} {s₁ : Authority} {host : Host} {m : StoreM α} {f : α → Answer}, s₁.Valid →
    s₁.store = s.store →
      Keeps m s₁.store → s.Leads (s₁.within host m fun r s => s.answer f r) := by
    intro α s₁ host m f hv₁ hst hkeeps
    apply within_of hkeeps
    intro r st hk
    have hp := hput hv₁ hst hk
    exact ⟨hp.1.answer _ _, by simpa using hp.2⟩
  cases stepped h with
  | reserve hfresh => exact hanswer hv rfl (keeps_reserve hv.store hfresh)
  | launch =>
    apply within_of (keeps_admitLaunch hv.store)
    intro r st hk
    have hp := hput hv rfl hk
    match r with
    | .ok (true, _) => exact ⟨hp.1.start trivial, hp.2⟩
    | .ok (false, _) => exact ⟨hp.1.answer _ _, by simpa [afterAdmission] using hp.2⟩
    | .error _ => exact hp
  | prepare hr =>
    obtain ⟨hv₁, -, hst⟩ := hv.resume hr
    apply within_of launchEnvironment_spec
    rintro r st rfl
    have hp := hput hv₁ hst ⟨hv₁.store, .refl _⟩
    match r with
    | .ok _ => exact ⟨hp.1.start trivial, hp.2⟩
    | .error _ => exact hp
  | create hr =>
    obtain ⟨hv₁, -, hst⟩ := hv.resume hr
    exact ⟨(hv₁.emit _).start trivial, .of_eq (by rw [← hst]; rfl)⟩
  | completeLaunch hr =>
    obtain ⟨hv₁, -, hst⟩ := hv.resume hr
    exact hanswer hv₁ hst (keeps_completeLaunch hv₁.store)
  | reconcile => exact hanswer hv rfl (keeps_reconcile hv.store)
  | send =>
    apply within_of (SectionM.Ensures.and claimInput_spec (keeps_claimInput hv.store))
    rintro r st ⟨hspec, hk⟩
    have hp := hput hv rfl hk
    match r with
    | .ok (true, claim) =>
      rcases hspec with ⟨-, hno⟩ | ⟨-, hnew, rfl, hclaim⟩
      · exact absurd rfl (hno claim)
      · have hc := hclaim _ rfl
        cases hc
        exact ⟨hp.1.start (hnew.grows hk.2), hp.2⟩
    | .ok (false, _) => exact ⟨hp.1.emit _, hp.2⟩
    | .error _ => exact hp
  | write hr =>
    obtain ⟨hv₁, hc, hst⟩ := hv.resume hr
    exact ⟨(hv₁.emit _).start hc, .of_eq (by rw [← hst]; rfl)⟩
  | completeInput hr =>
    obtain ⟨hv₁, hc, hst⟩ := hv.resume hr
    exact hanswer hv₁ hst (keeps_completeInput hv₁.store hc)
  | retire => exact hanswer hv rfl (keeps_retire hv.store)
  | resolve =>
    apply within_of (keeps_claimResolution hv.store)
    intro r st hk
    have hp := hput hv rfl hk
    match r with
    | .ok (some _) => exact ⟨hp.1.emit _, hp.2⟩
    | .ok none => exact ⟨hp.1.start trivial, hp.2⟩
    | .error _ => exact hp
  | act hr =>
    obtain ⟨hv₁, -, hst⟩ := hv.resume hr
    refine ⟨?_, .of_eq (by rw [← hst]; simp [start])⟩
    refine Valid.start ⟨by simpa using hv₁.store, ?_⟩ trivial
    simpa using hv₁.calls
  | settle hr =>
    obtain ⟨hv₁, -, hst⟩ := hv.resume hr
    exact hanswer hv₁ hst (keeps_settleResolution hv₁.store)
  | crash => exact ⟨⟨hv.store, nofun⟩, .refl _⟩

/-! ## What a step leaves alone -/

/-- Some of the store, of the calls, and of the events. -/
structure View (β : Type) where
  store : ReservationStore → β
  calls : Call → Bool
  events : Event → Bool

/-- Between `s` and `t` nothing happened that the view shows, but calls may have ended. -/
structure Same {β : Type} (v : View β) (s t : Authority) : Prop where
  store : v.store t.store = v.store s.store
  calls : ∀ c ∈ t.calls, v.calls c = true → c ∈ s.calls
  count : ∀ p : Call → Bool, (∀ c, p c = true → v.calls c = true) → t.calls.countP p ≤ s.calls.countP p
  events : t.log.filter v.events = s.log.filter v.events

namespace Same

variable {α β : Type} {v : View β} {s t u : Authority}

theorem refl (s : Authority) : Same v s s := ⟨rfl, fun _ h _ => h, fun _ _ => le_rfl, rfl⟩

theorem trans (h : Same v s t) (h' : Same v t u) : Same v s u where
  store := h'.store.trans h.store
  calls c hc hv := h.calls c (h'.calls c hc hv) hv
  count p hp := (h'.count p hp).trans (h.count p hp)
  events := h'.events.trans h.events

theorem put (s : Authority) {store : ReservationStore} (h : v.store store = v.store s.store) : Same v s (s.put store) :=
  { refl s with store := h }

theorem emit (s : Authority) {event : Event} (h : v.events event = false) : Same v s (s.emit event) :=
  { refl s with events := by simp [Authority.emit, h] }

theorem answer (s : Authority) {f : α → Answer} (r : Except RecoveryError α)
    (h : ∀ a, v.events (.answered (f a)) = false) : Same v s (s.answer f r) := by
  cases r with
  | ok a => exact emit s (h a)
  | error e => exact refl s

theorem start (s : Authority) {call : Call} (h : v.calls call = false) : Same v s (s.start call) where
  store := rfl
  calls c hc hv := by
    rcases mem_cons.mp hc with rfl | hc
    · rw [h] at hv; cases hv
    · exact hc
  count p hp := by
    have hcall : p call = false := by
      by_contra hne
      have := hp call (by simpa using hne)
      rw [h] at this
      cases this
    simp [Authority.start, hcall]
  events := rfl

theorem resume {i : Nat} {call : Call} (hr : s.resume i = some (call, t)) : Same v s t := by
  obtain ⟨hst, hlog, hperm⟩ := resume_eq hr
  refine ⟨by rw [hst], fun c hc _ => hperm.mem_iff.mp (by simp [hc]), ?_, by rw [hlog]⟩
  intro p _
  rw [← hperm.countP_eq, countP_cons]
  exact Nat.le_add_right _ _

theorem mem_log (h : Same v s t) {event : Event} (hin : event ∈ t.log) (hv : v.events event = true) :
    event ∈ s.log := by
  have hfilter := mem_filter.mpr ⟨hin, hv⟩
  rw [h.events] at hfilter
  exact (mem_filter.mp hfilter).1

theorem countP_log (h : Same v s t) {q : Event → Bool} (hq : ∀ e, q e = true → v.events e = true) :
    t.log.countP q = s.log.countP q := by
  have hfilter : ∀ l : List Event, (l.filter v.events).countP q = l.countP q := by
    intro l
    rw [countP_filter]
    apply countP_congr
    intro e _
    constructor
    · intro h
      exact (Bool.and_eq_true_iff.mp h).1
    · intro h
      exact Bool.and_eq_true_iff.mpr ⟨h, hq e h⟩
  rw [← hfilter t.log, h.events, hfilter]

end Same

/-- The view shows nothing of what such a step does. -/
def View.Ignores {β : Type} (v : View β) (s : ReservationStore) : Input → Prop
  | .reserve .. => (∀ l, v.store { s with launches := l } = v.store s) ∧ ∀ x, v.events (.answered (.reservation x)) =
      false
  | .launch .. => (∀ l, v.store { s with launches := l } = v.store s) ∧ (∀ r, v.calls (.admitted r) = false) ∧
      ∀ x, v.events (.answered (.launch x)) = false
  | .prepare .. => ∀ r e, v.calls (.prepared r e) = false
  | .create .. => (∀ r x, v.calls (.launched r x) = false) ∧ ∀ r e, v.events (.created r e) = false
  | .completeLaunch .. => (∀ l, v.store { s with launches := l } = v.store s) ∧
      ∀ x, v.events (.answered (.launch x)) = false
  | .reconcile .. => (∀ l, v.store { s with launches := l } = v.store s) ∧
      ∀ x, v.events (.answered (.reconciliation x)) = false
  | .send .. => (∀ l, v.store { s with inputs := l } = v.store s) ∧ (∀ r m d c, v.calls (.claimed r m d c) = false) ∧
      ∀ x, v.events (.answered (.input x)) = false
  | .write .. => (∀ r m c x, v.calls (.written r m c x) = false) ∧ ∀ r m d, v.events (.wrote r m d) = false
  | .completeInput .. => (∀ l, v.store { s with inputs := l } = v.store s) ∧
      ∀ x, v.events (.answered (.input x)) = false
  | .retire .. => (∀ l k, v.store { s with launches := l, retirements := k } = v.store s) ∧
      ∀ m n x, v.events (.answered (.retirement m n x)) = false
  | .resolve .. => (∀ l, v.store { s with resolutions := l } = v.store s) ∧ (∀ q, v.calls (.resolving q) = false) ∧
      ∀ x, v.events (.answered (.resolution x)) = false
  | .act .. => (∀ q x, v.calls (.settling q x) = false) ∧ ∀ r n, v.events (.terminated r n) = false
  | .settle .. => (∀ l k j, v.store { s with launches := l, inputs := k, resolutions := j } = v.store s) ∧
      ∀ x, v.events (.answered (.resolution x)) = false
  | .crash => True

/-- A view that ignores a step shows nothing of it. -/
theorem same_step {β : Type} {v : View β} (hstep : step s input = some t)
    (h : v.Ignores s.store input) : Same v s t := by
  cases stepped hstep with
  | reserve _ =>
    apply within_of reserveWith_spec
    rintro r st (rfl | ⟨-, -, rfl⟩)
    · exact .answer _ r h.2
    · exact (Same.put s (h.1 _)).trans (Same.answer _ r h.2)
  | launch =>
    apply within_of admitLaunch_spec
    intro r st hspec
    have hput : Same v s (s.put st) := by
      rcases hspec with ⟨rfl, -⟩ | ⟨a, -, -, -, rfl, -⟩
      · exact .refl s
      · exact .put s (h.1 _)
    match r with
    | .ok (true, _) => exact hput.trans (Same.start _ (h.2.1 _))
    | .ok (false, receipt) => exact hput.trans (Same.answer _ (replayLaunch receipt) h.2.2)
    | .error _ => exact hput
  | prepare hr =>
    refine (Same.resume hr).trans ?_
    apply within_of launchEnvironment_spec
    rintro r st rfl
    match r with
    | .ok _ => exact .start _ (h _ _)
    | .error _ => exact .refl _
  | create hr => exact (Same.resume hr).trans ((Same.emit _ (h.2 _ _)).trans (Same.start _ (h.1 _ _)))
  | completeLaunch hr =>
    obtain ⟨hst, -, -⟩ := resume_eq hr
    refine (Same.resume hr).trans ?_
    apply within_of completeLaunch_spec
    rintro r st (rfl | ⟨a, -, rfl⟩)
    · exact .answer _ r h.2
    · refine (Same.put _ ?_).trans (Same.answer _ r h.2)
      rw [hst]
      exact h.1 _
  | reconcile =>
    apply within_of reconcile_spec
    rintro r st (rfl | ⟨status, -, m, a, -, -, rfl⟩)
    · exact .answer _ r h.2
    · exact (Same.put s (h.1 _)).trans (Same.answer _ r h.2)
  | send =>
    apply within_of claimInput_spec
    intro r st hspec
    have hput : Same v s (s.put st) := by
      rcases hspec with ⟨rfl, -⟩ | ⟨-, -, rfl, -⟩
      · exact .refl s
      · exact .put s (h.1 _)
    match r with
    | .ok (true, _) => exact hput.trans (Same.start _ (h.2.1 _ _ _ _))
    | .ok (false, _) => exact hput.trans (Same.emit _ (h.2.2 _))
    | .error _ => exact hput
  | write hr => exact (Same.resume hr).trans ((Same.emit _ (h.2 _ _ _)).trans (Same.start _ (h.1 _ _ _ _)))
  | completeInput hr =>
    obtain ⟨hst, -, -⟩ := resume_eq hr
    refine (Same.resume hr).trans ?_
    apply within_of completeInput_spec
    rintro r st (rfl | rfl)
    · exact .answer _ r h.2
    · refine (Same.put _ ?_).trans (Same.answer _ r h.2)
      rw [hst]
      exact h.1 _
  | retire =>
    apply within_of retire_spec
    rintro r st ⟨rfl | ⟨retained, -, -, -, m, a, -, -, -, rfl⟩ | ⟨-, m, a, -, -, -, -, rfl | rfl⟩, -⟩
    · exact .answer _ r (h.2 _ _)
    all_goals exact (Same.put s (h.1 _ _)).trans (Same.answer _ r (h.2 _ _))
  | resolve =>
    apply within_of claimResolution_spec
    intro r st hspec
    have hput : Same v s (s.put st) := by
      rcases hspec with ⟨rfl, -⟩ | ⟨-, rfl, -⟩
      · exact .refl s
      · exact .put s (h.1 _)
    match r with
    | .ok (some _) => exact hput.trans (Same.emit _ (h.2.2 _))
    | .ok none => exact hput.trans (Same.start _ (h.2.1 _))
    | .error _ => exact hput
  | @act host i terminated request s₁ hr =>
    have haction : Same v s₁ (s₁.emitAction request) := by
      unfold emitAction
      split
      · exact .emit _ (h.2 _ _)
      · exact .refl _
    exact (Same.resume hr).trans (haction.trans (Same.start _ (h.1 _ _)))
  | settle hr =>
    obtain ⟨hst, -, -⟩ := resume_eq hr
    refine (Same.resume hr).trans ?_
    apply within_of settleResolution_spec
    rw [hst]
    rintro r st ⟨s₂, hack, hend⟩
    refine (Same.put _ ?_).trans (Same.answer _ r h.2)
    rw [hst]
    rcases hack with rfl | ⟨-, id, w, -, -, -, rfl⟩ <;>
      rcases hend with ⟨rfl, -⟩ | ⟨m, a, -, -, -, ⟨rfl, -⟩ | ⟨rfl, -⟩⟩ <;> exact h.1 _ _ _
  | crash => exact ⟨rfl, nofun, fun _ _ => zero_le, rfl⟩

/-! ## A concrete run -/

namespace Sample

def host : Host where
  admission := .ok ()
  access := .ok ()
  publications := []
  isDir _ := true
  debug _ := "error"

def options : ProgramOptions := ⟨"/bin/sh", [], none, [], 80, 24⟩

def execution : ExecutionRef := ⟨2, 3, 4⟩

def reservation : LaunchReservation := .new 1 options ⟨2, 3, 4, 5⟩

def admission : List Input :=
  [.reserve host 1 options none (fun _ => .ok ()) ⟨2, 3, 4, 5⟩, .launch host reservation fun _ => .ok ()]

def launch : List Input :=
  admission ++ [.prepare host 0, .create 0 (.ok execution), .completeLaunch host 0]

def after (inputs : List Input) : Authority := (inputs.foldlM step init).getD init

theorem run_after {inputs : List Input} {ok : Authority → Input → Prop} (h : (inputs.foldlM step init).isSome = true)
    (hok : ∀ input ∈ inputs, ∀ s, ok s input) : Run step ok init (after inputs) := by
  obtain ⟨s, hs⟩ := Option.isSome_iff_exists.mp h
  rw [after, hs]
  exact Run.of_foldlM_mem hs hok

theorem step_after {inputs : List Input} {input : Input}
    (h : ((inputs ++ [input]).foldlM step init).isSome = true) :
    step (after inputs) input = some (after (inputs ++ [input])) := by
  obtain ⟨t, ht⟩ := Option.isSome_iff_exists.mp h
  rw [after, after, ht]
  rw [foldlM_append] at ht
  obtain ⟨s, hs, hinput⟩ := Option.bind_eq_some_iff.mp ht
  rw [hs]
  simpa using hinput

end Sample

end Bmux.Reservations
