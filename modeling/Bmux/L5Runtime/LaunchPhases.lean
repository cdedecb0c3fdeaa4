import Bmux.L5Runtime.LaunchOnce

/-!
# The life cycle of a launch receipt

`Changes` lists what a step can do to a launch file. Every change raises the revision, but the
phase does not always move forward:

* `reconcile` sets `exited` whenever the runtime says that the session has ended, so it takes a
  `retired` receipt back to `exited`, and the retirement cannot be retried any more
  (`Sample.retirement_undone`);
* a launch sets `running` when its effect returns, whatever the receipt has become, so it takes
  an `exited` receipt back to `running` (`Sample.overtaken`).

`Timely` leaves these steps out, and with them any commit to a `retired` receipt: then the launch
in flight of a receipt still finds it `launching` (`Flying`), every phase moves forward, and a
retirement that was answered is answered the same way again.
-/
namespace Bmux.Reservations
open Authority StoredReservation ReservationStore
open Canonical (Uuid)
open SectionM (Ensures)
open Authority (within_of)

variable {s t : Authority} {input : Input} {m : Uuid} {a b : StoredReservation}

/-! ## What a step does to a launch file -/

/-- How a step takes the launch file `a` of the mutation to `b`. -/
inductive Changes (s : Authority) (m : Uuid) (a : StoredReservation) : Input → StoredReservation → Prop where
  | admitted {host reservation authorize} (hphase : a.receipt.phase = .reserved) :
      Changes s m a (.launch host reservation authorize) (a.moved .launching)
  | completed {host : Host} {i reservation result s₁} (hr : s.resume i = some (.launched reservation result, s₁))
      (hm : reservation.launchMutationId = m) :
      Changes s m a (.completeLaunch host i) (a.launched host.debug reservation result)
  | observed {host capture status} :
      Changes s m a (.reconcile host a.receipt.reservation.execution (.ok status) capture) (a.reconciled status)
  | settled {host i request effect s₁} (hr : s.resume i = some (.settling request effect, s₁))
      (hexec : a.receipt.reservation.execution = request.reference) (hrev : a.receipt.revision = request.expected) :
      Changes s m a (.settle host i) (a.settled request.action effect)
  | retired {host reference mutation expected capture} {revision : Nat} (hphase : a.receipt.phase = .exited)
      (hrev : a.receipt.revision < revision) :
      Changes s m a (.retire host reference mutation expected capture) (a.retiredAt revision)

theorem Changes.advances (h : Changes s m a input b) : a.Advances b := by
  cases h with
  | admitted _ => exact advances_moved (by simp)
  | completed _ _ => exact advances_launched _ _ _
  | observed => exact advances_reconciled _
  | settled _ _ _ => exact advances_settled _ _
  | retired _ hrev => exact advances_retiredAt hrev

theorem lookup_after_commit {st : ReservationStore} (hv : st.Valid) {n : Uuid} {c d : StoredReservation}
    (hc : st.launches.lookup n = some c) (hcd : c.Advances d) (ha : st.launches.lookup m = some a) :
    (st.setLaunch d).launches.lookup m = some a ∨ (n = m ∧ c = a ∧ (st.setLaunch d).launches.lookup m = some d) := by
  have hmut : d.receipt.reservation.launchMutationId = n := ((hv.launch n c hc).advances hcd).mutation
  rw [lookup_setLaunch, hmut]
  by_cases hm : m = n
  · subst hm
    rw [ha] at hc
    cases hc
    exact .inr ⟨rfl, rfl, if_pos rfl⟩
  · rw [if_neg hm]
    exact .inl ha

/-- The launch file `a` of the mutation is kept by the step to `t`, or changed. -/
def Kept (s : Authority) (m : Uuid) (a : StoredReservation) (input : Input) (t : Authority) : Prop :=
  ∃ b, t.store.launches.lookup m = some b ∧ (b = a ∨ Changes s m a input b)

def launchesView : View (Directory Uuid StoredReservation) := ⟨(·.launches), fun _ => false, fun _ => false⟩

/-- Every step leaves a launch file as it is, or changes it in one of these ways. -/
theorem kept_step (hv : s.Valid) (hstep : step s input = some t) (ha : s.store.launches.lookup m = some a) :
    Kept s m a input t := by
  have hsame : launchesView.Ignores s.store input → Kept s m a input t := by
    intro hignored
    have hlaunches : t.store.launches = s.store.launches := (same_step hstep hignored).store
    exact ⟨a, by rw [hlaunches, ha], .inl rfl⟩
  have hanswer : ∀ {α : Type} {s₁ : Authority} {st : ReservationStore} {f : α → Answer} {r : Except RecoveryError α},
      (∃ b, st.launches.lookup m = some b ∧ (b = a ∨ Changes s m a input b)) →
      Kept s m a input ((s₁.put st).answer f r) := by
    rintro α s₁ st f r ⟨b, hb, hab⟩
    exact ⟨b, by rw [answer_store]; exact hb, hab⟩
  -- a commit to some launch file, which may be that of the mutation
  have hcommit : ∀ {n c d}, s.store.launches.lookup n = some c → c.Advances d → (n = m → Changes s m c input d) →
      ∃ b, (s.store.setLaunch d).launches.lookup m = some b ∧ (b = a ∨ Changes s m a input b) := by
    intro n c d hc hcd hch
    rcases lookup_after_commit hv.store hc hcd ha with h | ⟨hm, rfl, h⟩
    · exact ⟨a, h, .inl rfl⟩
    · exact ⟨d, h, .inr (hch hm)⟩
  cases stepped hstep with
  | @reserve host mutation options environment authorize drawn hfresh =>
    apply within_of reserveWith_spec
    rintro r st (rfl | ⟨hnone, -, rfl⟩)
    · exact hanswer ⟨a, ha, .inl rfl⟩
    · refine hanswer ⟨a, ?_, .inl rfl⟩
      rw [lookup_setLaunch, if_neg, ha]
      rintro rfl
      rw [show s.store.launches.lookup _ = none from hnone] at ha
      cases ha
  | @launch host reservation authorize =>
    apply within_of admitLaunch_spec
    intro r st hspec
    have hgoal : Kept s m a (.launch host reservation authorize) (s.put st) := by
      rcases hspec with ⟨rfl, -⟩ | ⟨c, hc, -, hphase, rfl, -⟩
      · exact ⟨a, ha, .inl rfl⟩
      · exact hcommit hc (advances_moved (by simp)) fun _ => .admitted hphase
    match r with
    | .ok (true, _) => exact hgoal
    | .ok (false, receipt) => exact hanswer hgoal
    | .error _ => exact hgoal
  | completeLaunch hr =>
    obtain ⟨hst, -, -⟩ := resume_eq hr
    apply within_of completeLaunch_spec
    rw [hst]
    rintro r st (rfl | ⟨c, hc, rfl⟩) <;> apply hanswer
    · exact ⟨a, ha, .inl rfl⟩
    · exact hcommit hc (advances_launched _ _ _) (.completed hr)
  | reconcile =>
    apply within_of reconcile_spec
    rintro r st (rfl | ⟨status, rfl, n, c, hc, rfl, rfl⟩) <;> apply hanswer
    · exact ⟨a, ha, .inl rfl⟩
    · exact hcommit hc (advances_reconciled _) fun _ => .observed
  | @retire host reference mutation expected capture =>
    apply within_of retire_spec
    rintro r st ⟨rfl | ⟨retained, hl, hexpected, hexec, n, c, hc, hcexec, hrev, rfl⟩
        | ⟨-, n, c, hc, -, hrev, hphase, rfl | rfl⟩, -⟩ <;> apply hanswer
    · exact ⟨a, ha, .inl rfl⟩
    · have hret := hv.store.retirement _ _ hl
      have hlt : c.receipt.revision < retained.receipt.revision := by rw [hret.revision]; omega
      -- the launch is at the revision of the intent, so it is still over
      have hphase : c.receipt.phase = .exited := by
        obtain ⟨k, d, hd, hdexec, -, hexited⟩ := hret.execution
        have hkn : k = n := hv.store.token k d n c hd hc (by rw [hdexec, hexec, hcexec])
        rw [hkn, hc] at hd
        cases hd
        exact hexited (hrev.trans hexpected.symm)
      exact hcommit hc (advances_retiredAt hlt) fun _ => .retired hphase hlt
    · exact ⟨a, ha, .inl rfl⟩
    · have hlt : c.receipt.revision < expected + 1 := by omega
      exact hcommit hc (advances_retiredAt hlt) fun _ => .retired hphase hlt
  | @settle host i request effect s₁ hr =>
    obtain ⟨hst, -, -⟩ := resume_eq hr
    apply within_of settleResolution_spec
    rw [hst]
    rintro r st ⟨s₂, hack, hend⟩
    apply hanswer
    rcases hend with ⟨rfl, -⟩ | ⟨n, c, hc, hexec, hrev, hend⟩
    · exact ⟨a, by rw [hack.launches, ha], .inl rfl⟩
    · have hst' : st.launches = (s.store.setLaunch (c.settled request.action effect)).launches := by
        rcases hend with ⟨rfl, -⟩ | ⟨rfl, -⟩ <;>
          exact congrArg (AList.insert _ _) hack.launches
      rw [hst']
      exact hcommit hc (advances_settled _ _) fun _ => .settled hr hexec hrev
  | _ => exact hsame (by simp [View.Ignores, launchesView])

/-! ## Launches in flight -/

def Call.flies (m : Uuid) : Call → Bool
  | .admitted reservation => reservation.launchMutationId = m
  | .prepared reservation _ => reservation.launchMutationId = m
  | .launched reservation _ => reservation.launchMutationId = m
  | _ => false

def Authority.flights (s : Authority) (m : Uuid) : Nat := s.calls.countP (·.flies m)

variable {s₁ : Authority}

theorem flights_resume {i : Nat} {call : Call} (hr : s.resume i = some (call, s₁)) :
    s.flights m = s₁.flights m + if call.flies m then 1 else 0 := by
  obtain ⟨-, -, hperm⟩ := resume_eq hr
  rw [flights, ← hperm.countP_eq, List.countP_cons]
  rfl

theorem flights_start {call : Call} : (s.start call).flights m = s.flights m + if call.flies m then 1 else 0 :=
  List.countP_cons

@[simp] theorem flights_answer {α : Type} (f : α → Answer) (r : Except RecoveryError α) :
    (s.answer f r).flights m = s.flights m := by
  rw [flights, answer_calls]
  rfl

def flightsView : View Unit where
  store _ := ()
  calls
    | .admitted _ | .prepared .. | .launched .. => true
    | _ => false
  events _ := false

theorem Same.flights (h : Same flightsView s t) (m : Uuid) : t.flights m ≤ s.flights m :=
  h.count (·.flies m) fun c hc => by cases c <;> first | rfl | cases hc

/-- Only a launch that finds its receipt `reserved` takes off. -/
theorem flights_step (hstep : step s input = some t) (m : Uuid) :
    t.flights m ≤ s.flights m ∨ (∃ host reservation authorize a, input = .launch host reservation authorize ∧
      reservation.launchMutationId = m ∧ s.store.launches.lookup m = some a ∧ a.receipt.phase = .reserved ∧
      t.store = s.store.setLaunch (a.moved .launching) ∧ t.flights m = s.flights m + 1) := by
  have hsame : flightsView.Ignores s.store input → t.flights m ≤ s.flights m :=
    fun hignored => (same_step hstep hignored).flights m
  cases stepped hstep with
  | @launch host reservation authorize =>
    generalize ht : within s _ _ _ = t
    obtain ⟨r, st, ⟨rfl, hno⟩ | ⟨a, ha, -, hphase, rfl, hyes⟩, rfl⟩ := within_cases ht admitLaunch_spec
    · left
      match r with
      | .ok (true, x) => exact absurd rfl (hno x)
      | .ok (false, receipt) =>
        show flights (answer _ _ _) m ≤ _
        rw [flights_answer]
        exact le_rfl
      | .error _ => exact le_rfl
    · match r with
      | .ok (true, _) =>
        by_cases hm : reservation.launchMutationId = m
        · right
          refine ⟨host, reservation, authorize, a, rfl, hm, hm ▸ ha, hphase, rfl, ?_⟩
          show flights (start _ _) m = _
          rw [flights_start, if_pos (show (Call.admitted reservation).flies m = true from decide_eq_true hm)]
          rfl
        · left
          show flights (start _ _) m ≤ _
          rw [flights_start, if_neg (by simpa [Call.flies] using hm)]
          exact le_rfl
      | .ok (false, x) => cases hyes _ rfl
      | .error _ => exact .inl le_rfl
  | @prepare host i reservation s₁ hr =>
    left
    rw [flights_resume hr]
    apply within_of (P := fun t => t.flights m ≤ s₁.flights m + _) launchEnvironment_spec
    rintro r st rfl
    match r with
    | .ok environment =>
      show flights (start _ _) m ≤ _
      rw [flights_start]
      exact le_rfl
    | .error _ => exact Nat.le_add_right _ _
  | create hr =>
    left
    rw [flights_resume hr, flights_start]
    exact le_rfl
  | _ => exact .inl (hsame (by simp [View.Ignores, flightsView]))

/-! ## Timely steps -/

/-- The step changes the launch file of the mutation: it is not refused, and its commit is stored. -/
def Rewrites (s : Authority) (input : Input) (m : Uuid) : Prop :=
  (step s input).map (·.store.launches.lookup m) ≠ some (s.store.launches.lookup m)

theorem kept_rewrites (hv : s.Valid) (hstep : step s input = some t) (ha : s.store.launches.lookup m = some a) :
    ∃ b, t.store.launches.lookup m = some b ∧ (b = a ∨ Changes s m a input b ∧ Rewrites s input m) := by
  obtain ⟨b, hb, rfl | hch⟩ := kept_step hv hstep ha
  · exact ⟨b, hb, .inl rfl⟩
  · refine ⟨b, hb, or_iff_not_imp_left.mpr fun hne => ⟨hch, ?_⟩⟩
    rw [Rewrites, hstep, Option.map_some, hb, ha]
    simpa using hne

/-- No reconciliation changes a receipt that is `retired`, or applies the end of a session to a receipt that is
`failed` or whose launch is in flight; and no resolution changes a receipt that is `retired`. -/
def Timely (s : Authority) : Input → Prop
  | .reconcile host reference (.ok status) capture => ∀ entry ∈ s.store.launches.entries,
      entry.2.receipt.reservation.execution = reference →
      Rewrites s (.reconcile host reference (.ok status) capture) entry.1 → entry.2.receipt.phase ≠ .retired ∧
        (status.terminalSessionEnded = true → entry.2.receipt.phase ≠ .failed ∧ s.flights entry.1 = 0)
  | .settle host i => ∀ request effect s₁, s.resume i = some (.settling request effect, s₁) →
      ∀ entry ∈ s.store.launches.entries, entry.2.receipt.reservation.execution = request.reference →
        Rewrites s (.settle host i) entry.1 → entry.2.receipt.phase ≠ .retired
  | _ => True

theorem Timely.reconcile {host : Host} {status : ExecutionStatus} {capture : Capture}
    (h : Timely s (.reconcile host a.receipt.reservation.execution (.ok status) capture))
    (hrewrites : Rewrites s (.reconcile host a.receipt.reservation.execution (.ok status) capture) m)
    (ha : s.store.launches.lookup m = some a) :
    a.receipt.phase ≠ .retired ∧ (status.terminalSessionEnded = true → a.receipt.phase ≠ .failed ∧ s.flights m = 0) :=
  h ⟨m, a⟩ (AList.mem_lookup_iff.mp ha) rfl hrewrites

variable {request : ResolutionRequest} {effect : Except String Unit}

theorem Timely.settle {host : Host} {i : Nat} (h : Timely s (.settle host i))
    (hr : s.resume i = some (.settling request effect, s₁)) (hrewrites : Rewrites s (.settle host i) m)
    (ha : s.store.launches.lookup m = some a) (hexec : a.receipt.reservation.execution = request.reference) :
    a.receipt.phase ≠ .retired :=
  h request effect s₁ hr ⟨m, a⟩ (AList.mem_lookup_iff.mp ha) hexec hrewrites

/-- The launch in flight of a mutation is the only one, and its receipt is `launching`. -/
def Flying (s : Authority) : Prop :=
  ∀ m, s.flights m ≤ 1 ∧ (0 < s.flights m → ∃ a, s.store.launches.lookup m = some a ∧ a.receipt.phase = .launching)

def LaunchPhase.rank : LaunchPhase → Nat
  | .reserved => 0
  | .launching => 1
  | .running => 2
  | .uncertain => 2
  | .exited => 3
  | .retired => 4
  | .failed => 4

/-- The phase stays, or moves forward from one that is not final. -/
def LaunchPhase.Forward (p q : LaunchPhase) : Prop :=
  p = q ∨ (p ≠ .retired ∧ p ≠ .failed ∧ p.rank < q.rank)

/-- A change by a timely step moves forward, and leaves a receipt that is `retired` alone. -/
theorem Changes.forward (h : Changes s m a input b) (hrewrites : Rewrites s input m) (hv : s.Valid) (honce : Once s)
    (hfly : Flying s)
    (htimely : Timely s input) (ha : s.store.launches.lookup m = some a) :
    a.receipt.phase ≠ .retired ∧ a.receipt.phase.Forward b.receipt.phase := by
  cases h with
  | admitted hphase =>
    rw [hphase]
    exact ⟨by simp, .inr ⟨by simp, by simp, Nat.zero_lt_one⟩⟩
  | @completed host i reservation result s₁ hr hm =>
    have hflight : 0 < s.flights m := by
      simp [flights_resume hr, if_pos (show (Call.launched reservation result).flies m = true from decide_eq_true hm)]
    obtain ⟨c, hc, hphase⟩ := (hfly m).2 hflight
    rw [ha] at hc
    cases hc
    rw [hphase]
    refine ⟨by simp, .inr ⟨by simp, by simp, ?_⟩⟩
    rcases launched_phase host.debug reservation result with h | h <;> rw [h] <;> decide
  | @observed host capture status =>
    obtain ⟨hretired, hended⟩ := htimely.reconcile hrewrites ha
    refine ⟨hretired, ?_⟩
    show a.receipt.phase.Forward (if status.terminalSessionEnded then .exited else a.receipt.phase)
    split
    · rename_i hend
      have hfailed := (hended hend).1
      by_cases hexited : a.receipt.phase = .exited
      · exact .inl hexited
      · refine .inr ⟨hretired, hfailed, ?_⟩
        cases hp : a.receipt.phase <;> simp_all [LaunchPhase.rank]
    · exact .inl rfl
  | @settled host i request effect s₁ hr hexec hrev =>
    have hretired := htimely.settle hr hrewrites ha hexec
    refine ⟨hretired, ?_⟩
    unfold StoredReservation.settled
    split
    · rename_i u haction
      rw [honce.reserved hv hr ha hexec hrev haction]
      exact .inr ⟨by simp, by simp, Nat.succ_pos _⟩
    · exact .inl rfl
  | retired hphase hrev =>
    rw [hphase]
    exact ⟨by simp, .inr ⟨by simp, by simp, Nat.lt_succ_self 3⟩⟩

/-- After a timely step the launch in flight is still the only one, with a receipt that is `launching`. -/
theorem flying_step (hv : s.Valid) (honce : Once s) (hfly : Flying s) (htimely : Timely s input)
    (hstep : step s input = some t) : Flying t := by
  intro m
  rcases flights_step hstep m with hle | ⟨host, reservation, authorize, a, rfl, hm, ha, hphase, hst, hcount⟩
  · refine ⟨hle.trans (hfly m).1, fun hpos => ?_⟩
    obtain ⟨a, ha, hphase⟩ := (hfly m).2 (by omega)
    obtain ⟨b, hb, rfl | ⟨hch, hrewrites⟩⟩ := kept_rewrites hv hstep ha
    · exact ⟨b, hb, hphase⟩
    refine ⟨b, hb, ?_⟩
    cases hch with
    | admitted hres => rw [hphase] at hres; cases hres
    | @completed host i reservation result s₁ hr hm =>
      -- the flight that ended was the only one
      have hone := (hfly m).1
      rw [flights_resume hr, if_pos (show (Call.launched reservation result).flies m =
        true from decide_eq_true hm)] at hone
      have hend : t.flights m = s₁.flights m := by
        cases stepped hstep with
        | completeLaunch hr' =>
          rw [hr] at hr'
          cases hr'
          show flights (answer _ _ _) m = _
          rw [flights_answer]
          rfl
      omega
    | @observed host capture status =>
      obtain ⟨-, hended⟩ := htimely.reconcile hrewrites ha
      show (if status.terminalSessionEnded then LaunchPhase.exited else a.receipt.phase) = .launching
      split
      · rename_i hend
        have := (hended hend).2
        omega
      · exact hphase
    | @settled host i request effect s₁ hr hexec hrev =>
      unfold settled
      split
      · rename_i u haction
        rw [honce.reserved hv hr ha hexec hrev haction] at hphase
        cases hphase
      · exact hphase
    | retired hexited hrev => rw [hphase] at hexited; cases hexited
  · have hzero : s.flights m = 0 := by
      by_contra hne
      obtain ⟨c, hc, hlaunching⟩ := (hfly m).2 (pos_of_ne_zero hne)
      rw [ha] at hc
      cases hc
      rw [hphase] at hlaunching
      cases hlaunching
    refine ⟨by omega, fun _ => ⟨a.moved .launching, ?_, rfl⟩⟩
    rw [hst, lookup_setLaunch, if_pos]
    exact (hv.store.launch m a ha).mutation.symm

/-! ## Retirement -/

/-- A retirement that was answered is committed. -/
def Retirements (s : Authority) : Prop :=
  ∀ mutation expected receipt, .answered (.retirement mutation expected receipt) ∈ s.log →
    s.store.Retired receipt.execution mutation expected receipt

def retirementsView : View (Directory (Uuid × Uuid) StoredRetirement) where
  store s := s.retirements
  calls _ := false
  events
    | .answered (.retirement ..) => true
    | _ => false

def Input.concernsRetirement : Input → Bool
  | .retire .. => true
  | _ => false

theorem retirements_same (hstep : step s input = some t) (h : input.concernsRetirement = false) :
    Same retirementsView s t := by
  apply same_step hstep
  cases input with
  | retire => cases h
  | _ => simp [View.Ignores, retirementsView]

/-- Intents stay what they are, and a new answer is that of a retirement that is committed. -/
def Retires (s t : Authority) : Prop :=
  (∀ key v, s.store.retirements.lookup key = some v → t.store.retirements.lookup key = some v) ∧
  ∀ mutation expected receipt, .answered (.retirement mutation expected receipt) ∈ t.log →
    .answered (.retirement mutation expected receipt) ∈ s.log ∨
      t.store.Retired receipt.execution mutation expected receipt

theorem retires_step (hstep : step s input = some t) : Retires s t := by
  cases input with
  | retire host reference mutation expected capture =>
    cases stepped hstep
    apply within_of retire_spec
    rintro r st ⟨hst, hanswer⟩
    refine ⟨?_, ?_⟩
    · intro key v hk
      rw [answer_store]
      -- the intent that is new has a key of its own
      have hnew : s.store.retirements.lookup (reference.executionToken, mutation) = none →
          ∀ w, (s.store.setRetirement (reference.executionToken, mutation) w).retirements.lookup key = some v := by
        intro hnone w
        rw [lookup_setRetirement, if_neg, hk]
        rintro rfl
        rw [hnone] at hk
        cases hk
      rcases hst with rfl | ⟨-, -, -, -, -, -, -, -, -, rfl⟩ | ⟨hnone, -, -, -, -, -, -, rfl | rfl⟩
      · exact hk
      · exact hk
      · exact hnew hnone _
      · exact hnew hnone _
    · intro mutation' expected' receipt hin
      match r with
      | .error _ => exact .inl hin
      | .ok answer =>
        rcases List.mem_cons.mp hin with heq | hin
        · cases heq
          have hretired := hanswer receipt rfl
          rw [← hretired.2.1] at hretired
          exact .inr hretired
        · exact .inl hin
  | _ =>
    have hsame := retirements_same hstep rfl
    have hstore : t.store.retirements = s.store.retirements := hsame.store
    exact ⟨fun _ _ hk => hstore ▸ hk, fun _ _ _ hin => .inl (hsame.mem_log hin rfl)⟩

/-- A timely step leaves a launch that is `retired` as it is, and so what was answered. -/
theorem retirements_step (hv : s.Valid) (honce : Once s) (hfly : Flying s) (h : Retirements s)
    (htimely : Timely s input) (hstep : step s input = some t) : Retirements t := by
  obtain ⟨hintents, hanswers⟩ := retires_step hstep
  intro mutation expected receipt hin
  rcases hanswers mutation expected receipt hin with hin | hnew
  · obtain ⟨hintent, hexec, m, a, ha, haexec, hretired, hrev⟩ := h mutation expected receipt hin
    obtain ⟨b, hb, rfl | ⟨hch, hrewrites⟩⟩ := kept_rewrites hv hstep ha
    · exact ⟨hintents _ _ hintent, hexec, m, b, hb, haexec, hretired, hrev⟩
    · exact absurd hretired (hch.forward hrewrites hv honce hfly htimely ha).1
  · exact hnew

/-- A retirement that is committed is answered with its receipt, and nothing is written. -/
theorem retire_retry (hv : s.Valid) {mutation : Uuid} {expected : Nat} {receipt : RetirementReceipt}
    (h : s.store.Retired receipt.execution mutation expected receipt) (host : Host) (capture : Capture)
    (hadmission : host.admission = .ok ()) (haccess : host.access = .ok ()) :
    step s (.retire host receipt.execution mutation expected capture)
      = some (s.emit (.answered (.retirement mutation expected receipt))) := by
  obtain ⟨hintent, -, m, a, ha, hexec, hretired, hrev⟩ := h
  have hfind := find_of hv.store ha hexec
  have hnext : receipt.revision = expected + 1 := (hv.store.retirement _ _ hintent).revision
  have hspec : Ensures (retire host receipt.execution mutation expected capture) s.store fun r st =>
      st = s.store ∧ r = .ok receipt := by
    refine .lift (fun e he => (not_both hadmission he).elim) (fun _ _ => ?_)
    refine .lift (fun e he => (not_both haccess he).elim) (fun _ _ => ?_)
    refine .load ?_
    rw [hintent]
    refine .refuse (fun hbad => by simp at hbad) (fun _ => ?_)
    refine .lift (fun e he => (not_both hfind he).elim) (fun b hb => ?_)
    rw [hfind] at hb
    cases hb
    refine .ite (fun heq => by omega) (fun _ => ?_)
    refine .refuse (fun hbad => ?_) (fun _ => .pure ⟨rfl, rfl⟩)
    rcases hbad with hbad | hbad
    · exact absurd hrev hbad
    · exact absurd hretired hbad
  refine congrArg some ?_
  apply within_of (P := fun t => t = s.emit (.answered (.retirement mutation expected receipt))) hspec
  rintro r st ⟨rfl, rfl⟩
  rfl

/-! ## The life cycle -/

/-- What holds after every timely run. -/
structure Orderly (s : Authority) : Prop where
  valid : s.Valid
  once : Once s
  flying : Flying s
  retirements : Retirements s

theorem orderly_init : Orderly init where
  valid := valid_init
  once := once_init
  flying m := ⟨zero_le, fun h => absurd h (lt_irrefl 0)⟩
  retirements _ _ _ h := by cases h

theorem orderly_step (h : Orderly s) (htimely : Timely s input) (hstep : step s input = some t) : Orderly t where
  valid := (step_leads h.valid hstep).1
  once := once_step h.valid h.once hstep
  flying := flying_step h.valid h.once h.flying htimely hstep
  retirements := retirements_step h.valid h.once h.flying h.retirements htimely hstep

/-- **The life cycle of a launch receipt.** Every step keeps a launch file or raises its
revision. After a timely run, the next timely step also moves the phase forward, and a retirement
that was answered is answered with the same receipt again. -/
theorem launch_life_cycle (h : Reachable s) :
    (∀ input t, step s input = some t → ∀ m a, s.store.launches.lookup m = some a →
      ∃ b, t.store.launches.lookup m = some b ∧ (b = a ∨ a.receipt.revision < b.receipt.revision)) ∧
    (Run step Timely init s →
      (∀ input t, Timely s input → step s input = some t → ∀ m a, s.store.launches.lookup m = some a →
        ∃ b, t.store.launches.lookup m = some b ∧ a.receipt.phase.Forward b.receipt.phase) ∧
      ∀ mutation expected receipt, .answered (.retirement mutation expected receipt) ∈ s.log →
        ∀ host capture, host.admission = .ok () → host.access = .ok () →
          step s (.retire host receipt.execution mutation expected capture)
            = some (s.emit (.answered (.retirement mutation expected receipt)))) := by
  refine ⟨?_, fun hrun => ?_⟩
  · intro input t hstep m a ha
    obtain ⟨b, hb, hab⟩ := kept_step h.invariant.1 hstep ha
    exact ⟨b, hb, hab.imp id fun hch => hch.advances.revision⟩
  have horderly : Orderly s :=
    Run.invariant (I := Orderly) hrun (fun s input t hs htimely hstep => orderly_step hs htimely hstep) orderly_init
  refine ⟨?_, ?_⟩
  · intro input t htimely hstep m a ha
    obtain ⟨b, hb, rfl | ⟨hch, hrewrites⟩⟩ := kept_rewrites horderly.valid hstep ha
    · exact ⟨b, hb, .inl rfl⟩
    · exact ⟨b, hb, (hch.forward hrewrites horderly.valid horderly.once horderly.flying htimely ha).2⟩
  · intro mutation expected receipt hin host capture hadmission haccess
    exact retire_retry horderly.valid (horderly.retirements mutation expected receipt hin) host capture hadmission
      haccess

namespace Sample

def ended : ExecutionStatus := ⟨execution, .exited, true, .complete, some 0, none, true, none⟩

def observation : Input := .reconcile host execution (.ok ended) none

def retirement : Input := .retire host execution 8 4 (some (.ok ⟨0, true, none⟩))

def retired : List Input := launch ++ [observation, retirement]

def phaseOf (s : Authority) : Option (LaunchPhase × Nat) :=
  (s.store.launches.lookup 1).map fun a => (a.receipt.phase, a.receipt.revision)

/-- A retirement and its retry are answered alike. -/
theorem retired_twice : phaseOf (after retired) = some (.retired, 5) ∧
    step (after retired) retirement
      = some ((after retired).emit (.answered (.retirement 8 4 ⟨execution, 8, 5, true⟩))) := by
  have hlaunch : Run step Timely init (after launch) := by
    apply run_after (by decide +kernel)
    simp [launch, admission, Timely]
  have hobserved : Run step Timely init (after (launch ++ [observation])) := by
    refine hlaunch.tail (i := observation) ?_ (step_after (by decide +kernel))
    have htimely : ∀ entry ∈ (after launch).store.launches.entries, entry.2.receipt.phase ≠ .retired ∧
        (ended.terminalSessionEnded = true → entry.2.receipt.phase ≠ .failed ∧ (after launch).flights entry.1 = 0) := by
      decide +kernel
    exact fun entry hentry _ _ => htimely entry hentry
  have hretired : Run step Timely init (after retired) :=
    hobserved.tail (i := retirement) trivial (step_after (by decide +kernel))
  refine ⟨by decide +kernel, ?_⟩
  exact ((launch_life_cycle (hretired.mono fun _ _ _ => trivial)).2 hretired).2 8 4 ⟨execution, 8, 5, true⟩
    (by decide +kernel) host _ rfl rfl

/-- The runtime reports the end again, the receipt goes back to `exited`, and a retry of the
retirement is not answered. -/
theorem retirement_undone : Reachable (after (retired ++ [observation])) ∧
    phaseOf (after retired) = some (.retired, 5) ∧
    .answered (.retirement 8 4 ⟨execution, 8, 5, true⟩) ∈ (after retired).log ∧
    phaseOf (after (retired ++ [observation])) = some (.exited, 6) ∧
    (step (after (retired ++ [observation])) retirement).map (·.log) = some (after (retired ++ [observation])).log :=
  ⟨run_after (by decide +kernel) fun _ _ _ => trivial, by decide +kernel, by decide +kernel, by decide +kernel,
    by decide +kernel⟩

def overtaken : List Input := admission ++ [.prepare host 0, .create 0 (.ok execution), observation]

/-- The end of the launch takes the receipt from `exited` back to `running`. -/
example : phaseOf (after overtaken) = some (.exited, 3) ∧
    phaseOf (after (overtaken ++ [.completeLaunch host 0])) = some (.running, 4) := by
  decide +kernel

end Sample

end Bmux.Reservations
