import Bmux.L5Runtime.Steps

/-!
# A launch runs at most once

A launch holds a claim on its mutation from the commit of its intent to the create effect, and
the effect is a claim for good. `Once` is the invariant: a mutation has at most one claim, and
none while its receipt is still `reserved`. The receipt leaves `reserved` with the first claim
and never comes back, across crashes too, so no second one is made.

A cancellation commits its intent while the receipt is `reserved`, and settles only if the
revision has not moved since. As every commit moves the revision, the receipt is still
`reserved` then, and nothing claims it afterwards.
-/
namespace Bmux.Reservations
open Authority ReservationStore StoredReservation List
open Canonical (Uuid)
open SectionM (Ensures)
open Authority (within_of)

/-! ## Claims -/

variable (s : Authority) (receipt : ResolutionReceipt) (m : Uuid)

def Call.launches : Call → Bool
  | .admitted reservation => reservation.launchMutationId = m
  | .prepared reservation _ => reservation.launchMutationId = m
  | _ => false

def Event.creates : Event → Bool
  | .created reservation _ => reservation.launchMutationId = m
  | _ => false

def Call.request : Call → Option ResolutionRequest
  | .resolving request => some request
  | .settling request _ => some request
  | _ => none

def Authority.claims : Nat :=
  s.calls.countP (·.launches m) + s.log.countP (·.creates m)

def Authority.Resolved : Prop :=
  (∃ key v, s.store.resolutions.lookup key = some v ∧ v.receipt = some receipt) ∨
    .answered (.resolution receipt) ∈ s.log

def ReservationStore.Unstarted (s : ReservationStore) (m : Uuid) : Prop :=
  ∀ a, s.launches.lookup m = some a → a.receipt.phase = .reserved

/-- As long as the launch is at the revision that the cancellation expects, it has not started. -/
def ReservationStore.Cancellable (s : ReservationStore) (request : ResolutionRequest) : Prop :=
  s.Has request.reference fun _ a => request.expected ≤ a.receipt.revision ∧
    (a.receipt.revision = request.expected → a.receipt.phase = .reserved)

/-- The launch of the execution has not run, and is not going to. -/
def Authority.Cancelled (reference : ExecutionRef) : Prop :=
  s.store.Has reference fun m a => a.receipt.phase ≠ .reserved ∧ s.claims m = 0

def ResolutionReceipt.Cancels : Prop :=
  receipt.action = .cancelUnstarted ∧ receipt.recoveryRequired = false

structure Once : Prop where
  once : ∀ m, s.claims m ≤ 1
  unclaimed : ∀ m, s.store.Unstarted m → s.claims m = 0
  cancelling : ∀ call ∈ s.calls, ∀ request, call.request = some request → request.action = .cancelUnstarted →
    s.store.Cancellable request
  cancelled : ∀ receipt, s.Resolved receipt → receipt.Cancels → s.Cancelled receipt.execution

theorem once_init : Once init where
  once _ := zero_le
  unclaimed _ _ := rfl
  cancelling := nofun
  cancelled := by
    rintro receipt (⟨key, v, h, -⟩ | h)
    · cases h
    · cases h

/-! ## Steps that claim and resolve nothing -/

/-- Later states in which nothing was claimed or resolved. -/
structure Quiet (s t : Authority) : Prop where
  claims : ∀ m, t.claims m ≤ s.claims m
  requests : ∀ call ∈ t.calls, ∀ request, call.request = some request →
    ∃ call' ∈ s.calls, call'.request = some request
  resolved : ∀ receipt, t.Resolved receipt → s.Resolved receipt

/-- What the invariant is about: resolutions, launches on their way, and their effects. -/
def claimsView : View (Directory (Uuid × Uuid) StoredResolution) where
  store s := s.resolutions
  calls
    | .admitted _ | .prepared .. | .resolving _ | .settling .. => true
    | _ => false
  events
    | .created .. | .answered (.resolution _) => true
    | _ => false

namespace Quiet

variable {s t u : Authority} {call : Call}

theorem of_same (h : Same claimsView s t) : Quiet s t where
  claims m := by
    have hcalls := h.count (·.launches m) fun c hc => by cases c <;> first | rfl | cases hc
    have hlog : t.log.countP (·.creates m) = s.log.countP (·.creates m) :=
      h.countP_log fun e he => by cases e <;> first | rfl | cases he
    simp only [Authority.claims]
    omega
  requests c hc request hq := ⟨c, h.calls c hc (by cases c <;> first | rfl | cases hq), hq⟩
  resolved receipt hr := by
    have hres : t.store.resolutions = s.store.resolutions := h.store
    rcases hr with ⟨key, v, hl, hv⟩ | hr
    · exact .inl ⟨key, v, hres ▸ hl, hv⟩
    · exact .inr (h.mem_log hr rfl)

theorem trans (h : Quiet s t) (h' : Quiet t u) : Quiet s u where
  claims m := (h'.claims m).trans (h.claims m)
  requests call hc request hq := by
    obtain ⟨c, hc, hq⟩ := h'.requests call hc request hq
    exact h.requests c hc request hq
  resolved receipt hr := h.resolved receipt (h'.resolved receipt hr)

/-- A call goes on, and what it has claimed becomes an event. -/
theorem exchange {i : Nat} {call' : Call} (hr : s.resume i = some (call, t)) (hst : u.store = t.store)
    (hcalls : u.calls = call' :: t.calls) (hreq : call'.request = call.request)
    (hclaims : ∀ m, (if call'.launches m then 1 else 0) + u.log.countP (·.creates m)
      = (if call.launches m then 1 else 0) + t.log.countP (·.creates m))
    (hlog : ∀ receipt, .answered (.resolution receipt) ∈ u.log → .answered (.resolution receipt) ∈ t.log) :
    Quiet s u := by
  obtain ⟨hst', hlog', hperm⟩ := Authority.resume_eq hr
  refine ⟨?_, ?_, ?_⟩
  · intro m
    have h := hclaims m
    have hcount := hperm.countP_eq (·.launches m)
    simp only [Authority.claims, hcalls, countP_cons] at hcount ⊢
    rw [← hlog']
    omega
  · intro c hc request hq
    rw [hcalls] at hc
    rcases mem_cons.mp hc with rfl | hc
    · exact ⟨call, hperm.mem_iff.mp (by simp), by rw [← hreq, hq]⟩
    · exact ⟨c, hperm.mem_iff.mp (by simp [hc]), hq⟩
  · rintro receipt (⟨key, v, hl, hv⟩ | h)
    · exact .inl ⟨key, v, by rw [← hst', ← hst]; exact hl, hv⟩
    · exact .inr (hlog' ▸ hlog receipt h)

end Quiet

namespace ReservationStore

variable {s t : ReservationStore} {request : ResolutionRequest} {m : Uuid}

theorem Unstarted.of_grows (h : t.Unstarted m) (hg : s.Grows t) : s.Unstarted m := by
  intro a ha
  obtain ⟨b, hb, hab⟩ := hg m a ha
  rcases hab with rfl | hab
  · exact h b hb
  · exact hab.started (h b hb)

theorem Cancellable.grows (h : s.Cancellable request) (hg : s.Grows t) : t.Cancellable request :=
  Has.grows h hg fun m a b _ _ hP hab => by
    rcases hab with rfl | hab
    · exact hP
    · have hlt := hab.revision
      exact ⟨by omega, fun h => by omega⟩

end ReservationStore

variable {s t : Authority}

theorem Authority.Cancelled.later {reference : ExecutionRef} (h : s.Cancelled reference) (hg : s.store.Grows t.store)
    (hclaims : ∀ m, ¬ s.store.Unstarted m → t.claims m ≤ s.claims m) : t.Cancelled reference :=
  h.grows hg fun m a b ha _ hP hab => by
    have hle := hclaims m fun h => hP.1 (h a ha)
    refine ⟨?_, by omega⟩
    rcases hab with rfl | hab
    · exact hP.1
    · exact fun h => hP.1 (hab.started h)

/-- A step that claims nothing keeps the invariant, if no cancellation is answered but those that hold. -/
theorem Once.later (h : Once s) (hg : s.store.Grows t.store) (hclaims : ∀ m, t.claims m ≤ s.claims m)
    (hrequests : ∀ call ∈ t.calls, ∀ request, call.request = some request → ∃ call' ∈ s.calls,
      call'.request = some request)
    (hresolved : ∀ receipt, t.Resolved receipt → receipt.Cancels → s.Resolved receipt ∨ t.Cancelled receipt.execution) :
    Once t where
  once m := (hclaims m).trans (h.once m)
  unclaimed m hm := by
    have := hclaims m
    have := h.unclaimed m (hm.of_grows hg)
    omega
  cancelling call hc request hreq haction := by
    obtain ⟨c, hc, hreq⟩ := hrequests call hc request hreq
    exact (h.cancelling c hc request hreq haction).grows hg
  cancelled receipt hr hcancels := by
    rcases hresolved receipt hr hcancels with hold | hnew
    · exact (h.cancelled receipt hold hcancels).later hg fun m _ => hclaims m
    · exact hnew

theorem Once.quiet (h : Once s) (hg : s.store.Grows t.store) (hq : Quiet s t) : Once t :=
  h.later hg hq.claims hq.requests fun receipt hr _ => .inl (hq.resolved receipt hr)

/-! ## The steps that are not quiet -/

section
variable (h : Once s) (hv : s.Valid)
include h hv

variable {reservation : LaunchReservation}

/-- A launch is admitted: the first claim, with which the receipt leaves `reserved`. -/
theorem Once.admit {a : StoredReservation}
    (ha : s.store.launches.lookup reservation.launchMutationId = some a) (hphase : a.receipt.phase = .reserved) :
    Once ((s.put (s.store.setLaunch (a.moved .launching))).start (.admitted reservation)) := by
  have hadv : a.Advances (a.moved .launching) := advances_moved (by simp)
  have hg := grows_setLaunch hv.store ha hadv
  have hmut : (a.moved .launching).receipt.reservation.launchMutationId = reservation.launchMutationId :=
    (hv.store.launch _ a ha).mutation
  have hzero := h.unclaimed reservation.launchMutationId fun b hb => by
    rw [ha] at hb
    cases hb
    exact hphase
  have hclaims : ∀ m, ((s.put (s.store.setLaunch (a.moved .launching))).start (.admitted reservation)).claims m
      = s.claims m + if reservation.launchMutationId = m then 1 else 0 := by
    intro m
    have hl : (Call.admitted reservation).launches m = decide (reservation.launchMutationId = m) := rfl
    simp only [claims, start, put, countP_cons, hl, decide_eq_true_eq]
    omega
  refine ⟨?_, ?_, ?_, ?_⟩
  · intro m
    rw [hclaims]
    split
    · rename_i hm
      rw [← hm, hzero]
    · exact h.once m
  · intro m hm
    rw [hclaims, h.unclaimed m (hm.of_grows hg)]
    split
    · rename_i hm'
      have hlaunching := hm (a.moved .launching) (by
        show (s.store.setLaunch _).launches.lookup m = _
        rw [lookup_setLaunch, hmut, if_pos hm'.symm])
      cases hlaunching
    · rfl
  · intro call hc request hq haction
    rcases mem_cons.mp hc with rfl | hc
    · cases hq
    · exact (h.cancelling call hc request hq haction).grows hg
  · intro receipt hr hcancels
    refine (h.cancelled receipt hr hcancels).later hg ?_
    intro m hm
    rw [hclaims]
    split
    · rename_i hm'
      exact absurd (fun b hb => by rw [← hm', ha] at hb; cases hb; exact hphase) hm
    · exact le_rfl

variable {request : ResolutionRequest} {effect : Except String Unit}

variable {i : Nat} {s₁ : Authority} (hr : s.resume i = some (.settling request effect, s₁)) {m : Uuid}
    {a : StoredReservation}
  (ha : s.store.launches.lookup m = some a) (hexec : a.receipt.reservation.execution = request.reference)
  (hrev : a.receipt.revision = request.expected)
include hr

section
include ha hexec hrev

/-- A cancellation that settles at the revision it expects finds the launch `reserved`. -/
theorem Once.reserved (haction : request.action = .cancelUnstarted) : a.receipt.phase = .reserved := by
  have hcall : Call.settling request effect ∈ s.calls := (resume_eq hr).2.2.mem_iff.mp (by simp)
  obtain ⟨n, b, hb, hbexec, -, hreserved⟩ := h.cancelling _ hcall request rfl haction
  have hnm : n = m := hv.store.token n b m a hb ha (by rw [hbexec, hexec])
  rw [hnm, ha] at hb
  cases hb
  exact hreserved hrev

theorem Once.cancel (hcancels : (ResolutionReceipt.new request (a.settled request.action effect) effect).Cancels) :
    s.claims m = 0 ∧ (a.settled request.action effect).receipt.phase ≠ .reserved := by
  obtain ⟨hact, hok⟩ := hcancels
  have haction : request.action = .cancelUnstarted := hact
  have hphase := h.reserved hv hr ha hexec hrev haction
  refine ⟨h.unclaimed m ?_, ?_⟩
  · intro c hc
    rw [ha] at hc
    cases hc
    exact hphase
  · cases effect with
    | error e => cases hok
    | ok u =>
      rw [haction]
      show LaunchPhase.failed ≠ .reserved
      simp

end

/-- The last section of a resolution, whose receipt may be that of a cancellation. -/
theorem Once.settle {host : Host} :
    Once (s₁.within host (settleResolution host request effect) fun r s => s.answer .resolution r) := by
  have hv₁ := (hv.resume hr).1
  obtain ⟨hst, hlog, -⟩ := resume_eq hr
  have hquiet := Quiet.of_same (Same.resume hr)
  apply within_of (settleResolution_spec.and (keeps_settleResolution hv₁.store))
  rintro r st ⟨⟨s₂, hack, hend⟩, -, hg⟩
  have hg : s.store.Grows st := hst ▸ hg
  have hres : s₂.resolutions = s.store.resolutions := by
    rw [← hst]
    rcases hack with rfl | ⟨-, id, v, -, -, -, rfl⟩ <;> rfl
  -- without a receipt nothing is resolved
  have hplain : st.resolutions = s.store.resolutions → (∀ x, r ≠ .ok x) →
      Once (answer (s₁.put st) .resolution r) := by
    intro hsame hno
    match r with
    | .ok x => exact absurd rfl (hno x)
    | .error _ => exact h.quiet hg (hquiet.trans (Quiet.of_same (Same.put s₁ (by rw [hst]; exact hsame))))
  have hclaims : ∀ n, claims ((s₁.put st).answer Answer.resolution r) n = s₁.claims n := by
    intro n
    cases r <;> rfl
  rcases hend with ⟨rfl, hno⟩ | ⟨m, a, ha, hexec, hrev, ⟨rfl, hno⟩ | ⟨rfl, hok⟩⟩
  · exact hplain hres hno
  · exact hplain hres hno
  · rw [hst] at ha
    have hmut : (a.settled request.action effect).receipt.reservation.launchMutationId = m :=
      ((hv.store.launch m a ha).advances (advances_settled _ _)).mutation
    refine h.later (by rw [answer_store]; exact hg) ?_ ?_ ?_
    · intro n
      rw [hclaims]
      exact hquiet.claims n
    · rw [answer_calls]
      exact hquiet.requests
    · intro receipt hreceipt hcancels
      have hnew : receipt = .new request (a.settled request.action effect) effect ∨ s.Resolved receipt := by
        rcases hreceipt with ⟨key, v, hl, hv⟩ | hin
        · rw [answer_store] at hl
          rw [put_store, lookup_setResolution] at hl
          split at hl
          · cases hl
            exact .inl (Option.some.inj hv).symm
          · exact .inr (.inl ⟨key, v, hres ▸ hl, hv⟩)
        · match r with
          | .error _ => exact .inr (.inr (hlog ▸ hin))
          | .ok x =>
            rcases mem_cons.mp hin with heq | hin
            · cases heq
              exact .inl (hok _ rfl)
            · exact .inr (.inr (hlog ▸ hin))
      rcases hnew with rfl | hold
      · obtain ⟨hzero, hphase⟩ := h.cancel hv hr ha hexec hrev hcancels
        have hle := hquiet.claims m
        refine .inr ⟨m, a.settled request.action effect, ?_, ?_, hphase, by rw [hclaims]; omega⟩
        · rw [answer_store]
          show (s₂.setLaunch _).launches.lookup m = _
          rw [lookup_setLaunch, if_pos hmut.symm]
        · rw [(advances_settled _ _).reservation, hexec]
          rfl
      · exact .inl hold

omit hr

theorem Once.launch {host : Host} {authorize : Uuid → Except String Unit} :
    Once (s.within host (admitLaunch host reservation authorize) (afterAdmission reservation)) := by
  apply within_of admitLaunch_spec
  rintro r st (⟨rfl, hno⟩ | ⟨a, ha, -, hphase, rfl, hyes⟩)
  · match r with
    | .ok (true, x) => exact absurd rfl (hno x)
    | .ok (false, receipt) =>
      refine h.quiet ?_ (Quiet.of_same (Same.answer s (replayLaunch receipt) fun _ => rfl))
      show s.store.Grows ((s.put s.store).answer Answer.launch (replayLaunch receipt)).store
      rw [answer_store]
      exact .refl _
    | .error _ => exact h
  · match r with
    | .ok (true, _) => exact h.admit hv ha hphase
    | .ok (false, x) => cases hyes _ rfl
    | .error _ =>
      exact h.quiet (grows_setLaunch hv.store ha (advances_moved (by simp)))
        (Quiet.of_same (Same.put s rfl))

end

/-- The first section of a resolution commits its intent, or answers from a settled one. -/
theorem Once.resolve (h : Once s) {host : Host} {request : ResolutionRequest} :
    Once (s.within host (claimResolution host request) (afterIntent request)) := by
  apply within_of claimResolution_spec
  rintro r st (⟨rfl, hsettled⟩ | ⟨hhas, hst, hnone⟩)
  · match r with
    | .ok none =>
      obtain ⟨v, receipt, -, -, heq⟩ := hsettled none rfl
      cases heq
    | .ok (some receipt) =>
      obtain ⟨v, receipt', hl, hv, heq⟩ := hsettled _ rfl
      cases heq
      -- the answer was in the file
      refine h.quiet (.refl _) ⟨fun _ => le_rfl, fun c hc _ hq => ⟨c, hc, hq⟩, ?_⟩
      rintro receipt' (hin | hin)
      · exact .inl hin
      · rcases mem_cons.mp hin with heq | hin
        · cases heq
          exact .inl ⟨_, v, hl, hv⟩
        · exact .inr hin
    | .error _ => exact h
  · have hput : Quiet s (s.put st) := by
      refine ⟨fun _ => le_rfl, fun call hc _ hq => ⟨call, hc, hq⟩, ?_⟩
      rintro receipt (⟨key, v, hl, hv⟩ | hr)
      · rw [put_store, hst, lookup_setResolution] at hl
        split at hl
        · cases hl
          cases hv
        · exact .inl ⟨key, v, hl, hv⟩
      · exact .inr hr
    have hlaunches : st.launches = s.store.launches := by rw [hst]; rfl
    have hq : Once (s.put st) := h.quiet (.of_eq hlaunches) hput
    match r with
    | .ok (some receipt) => cases hnone _ rfl
    | .error _ => exact hq
    | .ok none =>
      refine ⟨hq.once, hq.unclaimed, ?_, hq.cancelled⟩
      intro call hc request' hreq haction
      rcases mem_cons.mp hc with rfl | hc
      · cases hreq
        obtain ⟨m, a, ha, hexec, hrev, hphase⟩ := hhas
        exact ⟨m, a, hlaunches ▸ ha, hexec, hrev.ge, fun _ => hphase haction⟩
      · exact hq.cancelling call hc request' hreq haction

/-- What `Once` says is kept by every step. -/
theorem once_step {input : Input} (hv : s.Valid) (h : Once s) (hstep : step s input = some t) : Once t := by
  obtain ⟨-, hg⟩ := step_leads hv hstep
  -- the steps that the invariant does not notice
  have hquiet : claimsView.Ignores s.store input → Once t :=
    fun hignored => h.quiet hg (Quiet.of_same (same_step hstep hignored))
  cases stepped hstep with
  | launch => exact h.launch hv
  | prepare hr =>
    refine h.quiet hg ?_
    apply within_of launchEnvironment_spec
    rintro r st rfl
    match r with
    | .ok _ => exact Quiet.exchange hr rfl rfl rfl (fun _ => rfl) (fun _ h => h)
    | .error _ => exact Quiet.of_same (Same.resume hr)
  | create hr =>
    refine h.quiet hg (Quiet.exchange hr rfl rfl rfl ?_ ?_)
    · intro m
      show 0 + countP (·.creates m) (Event.created _ _ :: _) = (if decide _ = true then 1 else 0) + _
      rw [countP_cons]
      show 0 + (_ + if decide _ = true then 1 else 0) = _
      omega
    · intro receipt hin
      rcases mem_cons.mp hin with heq | hin
      · cases heq
      · exact hin
  | resolve => exact h.resolve
  | act hr =>
    refine h.quiet hg ?_
    unfold emitAction
    split
    · refine Quiet.exchange hr rfl rfl rfl (fun m => ?_) (fun receipt hin => ?_)
      · rfl
      · simpa [emit, start] using hin
    · exact Quiet.exchange hr rfl rfl rfl (fun _ => rfl) (fun _ h => h)
  | settle hr => exact h.settle hv hr
  | _ => exact hquiet (by simp [View.Ignores, claimsView])

/-- The states that calls, effects and crashes lead to from an empty store. -/
def Reachable (s : Authority) : Prop := Run step (fun _ _ => True) init s

theorem Reachable.invariant (h : Reachable s) : s.Valid ∧ Once s := by
  refine Run.invariant (I := fun s => s.Valid ∧ Once s) h ?_ ⟨valid_init, once_init⟩
  rintro s input t ⟨hv, hs⟩ - hstep
  exact ⟨(step_leads hv hstep).1, once_step hv hs hstep⟩

/-- The reservation and the environment of a mutation stay what was committed first. -/
theorem reservation_kept (hs : s.Valid) (h : Run step (fun _ _ => True) s t) {m : Uuid} {a : StoredReservation}
    (ha : s.store.launches.lookup m = some a) :
    ∃ b, t.store.launches.lookup m = some b ∧ b.receipt.reservation = a.receipt.reservation ∧
      b.environment = a.environment := by
  have hrel := Run.invariant (I := fun t => t.Valid ∧ s.store.Grows t.store) h ?_ ⟨hs, .refl _⟩
  · obtain ⟨b, hb, hab⟩ := hrel.2 m a ha
    refine ⟨b, hb, ?_⟩
    rcases hab with rfl | hab
    · exact ⟨rfl, rfl⟩
    · exact ⟨hab.reservation, hab.environment⟩
  · rintro u input u' ⟨hu, hg⟩ - hstep
    have hl := step_leads hu hstep
    exact ⟨hl.1, hg.trans hl.2⟩

/-! ## Retries -/

section

variable {st : ReservationStore} {m : Uuid} {a : StoredReservation} {host : Host} {options : ProgramOptions}
  {environment : Option (List EnvironmentEntry)} {authorize : Uuid → Except RecoveryError Unit} {drawn : Drawn}

/-- How a retry of a reservation ends: with what the file says, if it asks for the same and may
ask at all, and in any case with the store as it was. -/
def Retried (st : ReservationStore) (a : StoredReservation) (host : Host) (options : ProgramOptions)
    (environment : Option (List EnvironmentEntry)) (authorize : Uuid → Except RecoveryError Unit)
    (r : Except RecoveryError LaunchReservation) (st' : ReservationStore) : Prop :=
  st' = st ∧
    (options = a.receipt.reservation.options → environment = a.environment →
      host.admission = .ok () → host.access = .ok () →
      authorize a.receipt.reservation.execution.sessionId = .ok () → r = .ok a.receipt.reservation) ∧
    (options ≠ a.receipt.reservation.options ∨ environment ≠ a.environment → ∃ e, r = .error e)

/-- An error is the right answer to a request that differs. -/
theorem retried_error {e : RecoveryError} (h : options = a.receipt.reservation.options → environment = a.environment →
    host.admission = .ok () → host.access = .ok () →
    authorize a.receipt.reservation.execution.sessionId = .ok () → False) :
    Retried st a host options environment authorize (.error e) st :=
  ⟨rfl, fun h₁ h₂ h₃ h₄ h₅ => (h h₁ h₂ h₃ h₄ h₅).elim, fun _ => ⟨e, rfl⟩⟩

theorem reserveIn_retry (hv : st.Valid) (ha : st.launches.lookup m = some a) :
    Ensures (reserveIn host m options environment authorize drawn) st
      (Retried st a host options environment authorize) := by
  have hin : m ∈ st.launches := AList.lookup_isSome.mp (by rw [ha]; rfl)
  have hread := read_of ha (hv.launch m a ha)
  refine .load ?_
  refine .ite (fun _ => ?_) (fun hno => absurd hin hno)
  refine .lift (fun e he => (not_both hread he).elim) fun b hb => ?_
  rw [hread] at hb
  cases hb
  refine .lift (fun e he => retried_error fun _ _ _ _ hauth => not_both hauth he) fun _ _ => ?_
  refine .refuse (fun hne => retried_error fun _ henv _ _ _ => hne henv) fun henv => ?_
  refine .refuse (fun hne => retried_error fun hopt _ _ _ _ => hne hopt) fun hopt => ?_
  exact .pure ⟨rfl, fun _ _ _ _ _ => rfl, fun hne => hne.elim (absurd · hopt) (absurd · henv)⟩

/-- Both ways to reserve answer a retry from the launch file. -/
theorem reserve_retry (hv : st.Valid) (ha : st.launches.lookup m = some a) :
    Ensures (reserveWith host m options environment authorize drawn) st
      (Retried st a host options environment authorize) := by
  have hadmitted := hv.launch m a ha
  cases environment with
  | none =>
    refine .lift (fun e he => retried_error fun _ _ hadm _ _ => not_both hadm he) fun _ _ => ?_
    exact .lift (fun e he => retried_error fun _ _ _ hacc _ => not_both hacc he) fun _ _ => reserveIn_retry hv ha
  | some environment =>
    have hkept (henv : some environment = a.environment) := hadmitted.environment _ henv.symm
    refine .lift (fun e he => retried_error fun _ henv _ _ _ =>
      not_both (congrArg (Except.mapError _) (hkept henv).1) he) fun _ _ => ?_
    refine .refuse (fun hne => retried_error fun hopt henv _ _ _ => hne (hopt ▸ (hkept henv).2)) fun _ => ?_
    exact .lift (fun e he => retried_error fun _ _ _ hacc _ => not_both hacc he) fun _ _ => reserveIn_retry hv ha

end

/-- A launch whose outcome is open is refused, and nothing happens. -/
theorem launch_refused (hv : s.Valid) {m : Uuid} {a : StoredReservation} (ha : s.store.launches.lookup m = some a)
    (hopen : a.receipt.phase = .launching ∨ a.receipt.phase = .uncertain) (host : Host)
    (reservation : LaunchReservation)
    (authorize : Uuid → Except String Unit) (hm : reservation.launchMutationId = m) :
    step s (.launch host reservation authorize) = some s := by
  have hread := read_of ha (hv.store.launch m a ha)
  have hspec : Ensures (admitLaunch host reservation authorize) s.store fun r st =>
      st = s.store ∧ ∀ x, r = .ok x → x = (false, a.receipt) := by
    refine .lift (by simp) fun _ _ => ?_
    refine .lift (by simp) fun _ _ => ?_
    refine .load ?_
    refine .lift (by simp) fun b hb => ?_
    rw [hm, hread] at hb
    cases hb
    refine .lift (by simp) fun _ _ => ?_
    refine .refuse (by simp) fun _ => ?_
    refine .ite (fun _ => ?_) (fun hres => ?_)
    · exact .pure ⟨rfl, fun x hx => by cases hx; rfl⟩
    · rw [not_not.mp hres] at hopen
      rcases hopen with h | h <;> cases h
  refine congrArg some ?_
  apply within_of (P := fun t => t = s) hspec
  rintro r st ⟨rfl, hr⟩
  match r with
  | .error _ => rfl
  | .ok x =>
    rw [hr x rfl]
    show answer _ Answer.launch (replayLaunch a.receipt) = s
    rw [replayLaunch, if_pos hopen]
    rfl

/-- **At most once.** Whatever the order of calls, effects and crashes: the create effect of a
mutation runs at most once; a retry of its reservation is answered with what was committed,
which stays the same from then on, and a different request is refused; a launch that is
`launching` or `uncertain` is not started again; and no effect comes before or after a
cancellation that was answered. -/
theorem launch_at_most_once (h : Reachable s) : (∀ m, s.log.countP (·.creates m) ≤ 1) ∧
    (∀ m a, s.store.launches.lookup m = some a → (∀ host options environment authorize drawn,
        Ensures (reserveWith host m options environment authorize drawn) s.store
          (Retried s.store a host options environment authorize)) ∧
      (∀ t, Run step (fun _ _ => True) s t → ∃ b, t.store.launches.lookup m = some b ∧
        b.receipt.reservation = a.receipt.reservation ∧ b.environment = a.environment) ∧
      (a.receipt.phase = .launching ∨ a.receipt.phase = .uncertain →
        ∀ host reservation authorize, reservation.launchMutationId = m →
          step s (.launch host reservation authorize) = some s) ∧
      ∀ receipt, receipt.execution = a.receipt.reservation.execution → receipt.Cancels →
        .answered (.resolution receipt) ∈ s.log → s.log.countP (·.creates m) = 0) := by
  obtain ⟨hv, hs⟩ := h.invariant
  refine ⟨?_, ?_⟩
  · intro m
    have := hs.once m
    simp only [claims] at this
    omega
  · intro m a ha
    refine ⟨fun _ _ _ _ _ => reserve_retry hv.store ha, fun t ht => reservation_kept hv ht ha,
      fun hopen host reservation authorize hm => launch_refused hv ha hopen host reservation authorize hm, ?_⟩
    intro receipt hexec hcancels hin
    obtain ⟨n, b, hb, hbexec, -, hzero⟩ := hs.cancelled receipt (.inr hin) hcancels
    have hnm : n = m := hv.store.token n b m a hb ha (by rw [hbexec, hexec])
    rw [hnm] at hzero
    simp only [claims] at hzero
    omega

def Sample.relaunch : List Input :=
  admission ++ [.prepare host 0, .create 0 (.ok execution), .crash, .launch host reservation fun _ => .ok ()]

theorem Sample.created_once : (after relaunch).log.countP (·.creates 1) = 1 ∧
    ∀ m, (after relaunch).log.countP (·.creates m) ≤ 1 :=
  ⟨by decide +kernel, (launch_at_most_once (run_after (by decide +kernel) fun _ _ _ => trivial)).1⟩

end Bmux.Reservations
