import Bmux.Core.Run
import Bmux.L5Runtime.Reservations

/-!
# The execution authority as a system

A `Authority` is the store, the calls that are between two of their critical sections, and the
history: every effect that was run and every answer that was given. `step` is one critical
section, one effect, or a crash, which loses the calls and keeps the store; any call in flight
may go next. `Run step` are all interleavings.

For each section there is a lemma `_spec` that says what it can do to the store. `Valid` holds
of every store the sections make, and `find_of` and `read_of` say that in such a store
looking for a launch finds it.
-/
namespace Bmux.Reservations
open ReservationStore AList
open Canonical (Uuid)
open SectionM (load refuse lift publish Ensures)

/-! ## Calls, history and steps -/

inductive Call where
  /-- A launch that has committed its intent. -/
  | admitted (reservation : LaunchReservation)
  /-- The same with the environment it is to run in. -/
  | prepared (reservation : LaunchReservation) (environment : Option (List EnvironmentEntry))
  /-- A launch after its effect. -/
  | launched (reservation : LaunchReservation) (result : Except ExecutionError ExecutionRef)
  /-- A send that has committed its intent. -/
  | claimed (reference : ExecutionRef) (mutation : Uuid) (data : List UInt8) (claim : StoredInput)
  /-- A send after its effect. -/
  | written (reference : ExecutionRef) (mutation : Uuid) (claim : StoredInput) (result : Except ExecutionError Unit)
  /-- A resolution that has committed its intent. -/
  | resolving (request : ResolutionRequest)
  /-- A resolution after its effect. -/
  | settling (request : ResolutionRequest) (effect : Except String Unit)

inductive Answer where
  | reservation (reservation : LaunchReservation)
  | launch (receipt : LaunchReceipt)
  | reconciliation (reconciliation : Reconciliation)
  | input (receipt : InputReceipt)
  | resolution (receipt : ResolutionReceipt)
  | retirement (mutation : Uuid) (expected : Nat) (receipt : RetirementReceipt)
  deriving DecidableEq

inductive Event where
  /-- The runtime was asked to create the process of a reservation. -/
  | created (reservation : LaunchReservation) (environment : Option (List EnvironmentEntry))
  /-- Bytes were handed to a pane. -/
  | wrote (reference : ExecutionRef) (mutation : Uuid) (data : List UInt8)
  /-- The runtime was asked to terminate an execution. -/
  | terminated (reference : ExecutionRef) (grace : Nat)
  | answered (answer : Answer)
  deriving DecidableEq

structure Authority where
  store : ReservationStore
  calls : List Call
  log : List Event

def Authority.init : Authority := ⟨.empty, [], []⟩

namespace Authority

variable {α : Type} (s : Authority)

def resume (i : Nat) : Option (Call × Authority) :=
  s.calls[i]?.map fun call => (call, { s with calls := s.calls.eraseIdx i })

def start (call : Call) : Authority := { s with calls := call :: s.calls }

def emit (event : Event) : Authority := { s with log := event :: s.log }

def put (store : ReservationStore) : Authority := { s with store }

def answer (f : α → Answer) : Except RecoveryError α → Authority
  | .ok a => s.emit (.answered (f a))
  | .error _ => s

def within (host : Host) (m : StoreM α) (next : Except RecoveryError α → Authority → Authority) : Authority :=
  next (m.exec s.store host.publications).1 (s.put (m.exec s.store host.publications).2)

end Authority

variable (reservation : LaunchReservation) (s : ReservationStore)

/-- `Uuid::new_v4` does not draw an execution token twice. -/
def ReservationStore.Unused (token : Uuid) : Prop :=
  ∀ entry ∈ s.launches.entries, entry.2.receipt.reservation.execution.executionToken ≠ token

instance (token : Uuid) : Decidable (s.Unused token) :=
  inferInstanceAs (Decidable (∀ entry ∈ _, _))

/-- One step: `host` is what the process answers to the section, `i` picks a call in flight. -/
inductive Input where
  | reserve (host : Host) (mutation : Uuid) (options : ProgramOptions) (environment : Option (List EnvironmentEntry))
      (authorize : Uuid → Except RecoveryError Unit) (drawn : Drawn)
  | launch (host : Host) (reservation : LaunchReservation) (authorize : Uuid → Except String Unit)
  | prepare (host : Host) (i : Nat)
  | create (i : Nat) (result : Except ExecutionError ExecutionRef)
  | completeLaunch (host : Host) (i : Nat)
  | reconcile (host : Host) (reference : ExecutionRef) (current : Except ExecutionError ExecutionStatus)
      (capture : Capture)
  | send (host : Host) (reference : ExecutionRef) (mutation : Uuid) (data : List UInt8)
      (current : Except ExecutionError ExecutionStatus) (capture : Capture)
  | write (i : Nat) (result : Except ExecutionError Unit)
  | completeInput (host : Host) (i : Nat)
  | retire (host : Host) (reference : ExecutionRef) (mutation : Uuid) (expected : Nat) (capture : Capture)
  | resolve (host : Host) (request : ResolutionRequest)
  | act (host : Host) (i : Nat) (terminated : Except ExecutionError Unit)
  | settle (host : Host) (i : Nat)
  | crash

/-- Both requests that reserve: with the environment of the runtime, or a complete one. -/
def reserveWith (host : Host) (mutation : Uuid) (options : ProgramOptions)
    (environment : Option (List EnvironmentEntry)) (authorize : Uuid → Except RecoveryError Unit) (drawn : Drawn) :
    StoreM LaunchReservation :=
  match environment with
  | none => reserve host mutation options authorize drawn
  | some environment => reserveEnvironment host mutation options environment authorize drawn

def afterAdmission : Except RecoveryError (Bool × LaunchReceipt) → Authority → Authority
  | .ok (true, _), s => s.start (.admitted reservation)
  | .ok (false, receipt), s => s.answer .launch (replayLaunch receipt)
  | .error _, s => s

def afterPreparation : Except RecoveryError (Option (List EnvironmentEntry)) → Authority → Authority
  | .ok environment, s => s.start (.prepared reservation environment)
  | .error _, s => s

def afterClaim (reference : ExecutionRef) (mutation : Uuid) (data : List UInt8) :
    Except RecoveryError (Bool × StoredInput) → Authority → Authority
  | .ok (true, claim), s => s.start (.claimed reference mutation data claim)
  | .ok (false, stored), s => s.emit (.answered (.input stored.receipt))
  | .error _, s => s

def afterIntent (request : ResolutionRequest) : Except RecoveryError (Option ResolutionReceipt) → Authority → Authority
  | .ok (some receipt), s => s.emit (.answered (.resolution receipt))
  | .ok none, s => s.start (.resolving request)
  | .error _, s => s

/-- The effect of a resolution on the history. -/
def Authority.emitAction (s : Authority) (request : ResolutionRequest) : Authority :=
  match request.action with
  | .terminateOwnedExecution => s.emit (.terminated request.reference request.grace)
  | _ => s

/-- `none` if there is no such call in flight, or the drawn token is not new. -/
def step (s : Authority) : Input → Option Authority
  | .reserve host mutation options environment authorize drawn =>
    if s.store.Unused drawn.executionToken then
      some (s.within host (reserveWith host mutation options environment authorize drawn)
        fun r s => s.answer .reservation r)
    else none
  | .launch host reservation authorize =>
    some (s.within host (admitLaunch host reservation authorize) (afterAdmission reservation))
  | .prepare host i =>
    match s.resume i with
    | some (.admitted reservation, s) =>
      some (s.within host (launchEnvironment host reservation) (afterPreparation reservation))
    | _ => none
  | .create i result =>
    match s.resume i with
    | some (.prepared reservation environment, s) =>
      some ((s.emit (.created reservation environment)).start (.launched reservation result))
    | _ => none
  | .completeLaunch host i =>
    match s.resume i with
    | some (.launched reservation result, s) =>
      some (s.within host (completeLaunch host reservation result) fun r s => s.answer .launch r)
    | _ => none
  | .reconcile host reference current capture =>
    some (s.within host (reconcile host reference current capture) fun r s => s.answer .reconciliation r)
  | .send host reference mutation data current capture =>
    some (s.within host (claimInput host reference mutation data current capture) (afterClaim reference mutation data))
  | .write i result =>
    match s.resume i with
    | some (.claimed reference mutation data claim, s) =>
      some ((s.emit (.wrote reference mutation data)).start (.written reference mutation claim result))
    | _ => none
  | .completeInput host i =>
    match s.resume i with
    | some (.written reference mutation claim result, s) =>
      some (s.within host (completeInput host reference mutation claim result) fun r s => s.answer .input r)
    | _ => none
  | .retire host reference mutation expected capture =>
    some (s.within host (retire host reference mutation expected capture)
      fun r s => s.answer (.retirement mutation expected) r)
  | .resolve host request => some (s.within host (claimResolution host request) (afterIntent request))
  | .act host i terminated =>
    match s.resume i with
    | some (.resolving request, s) =>
      some ((s.emitAction request).start (.settling request (resolutionEffect host request terminated)))
    | _ => none
  | .settle host i =>
    match s.resume i with
    | some (.settling request effect, s) =>
      some (s.within host (settleResolution host request effect) fun r s => s.answer .resolution r)
    | _ => none
  | .crash => some { s with calls := [] }

namespace Authority

variable {α : Type} {s t : Authority} {call : Call} {i : Nat}

theorem resume_eq (h : s.resume i = some (call, t)) :
    t.store = s.store ∧ t.log = s.log ∧ (call :: t.calls).Perm s.calls := by
  unfold resume at h
  rw [Option.map_eq_some_iff] at h
  obtain ⟨c, hc, heq⟩ := h
  obtain ⟨hi, hget⟩ := List.getElem?_eq_some_iff.mp hc
  cases heq
  refine ⟨rfl, rfl, ?_⟩
  rw [← hget]
  exact List.getElem_cons_eraseIdx_perm hi

variable {host : Host} {m : StoreM α} {next : Except RecoveryError α → Authority → Authority}
  {Q : Except RecoveryError α → ReservationStore → Prop}

theorem within_cases {t : Authority} (ht : s.within host m next = t) (h : Ensures m s.store Q) :
    ∃ r st, Q r st ∧ next r (s.put st) = t := ⟨_, _, h host.publications, ht⟩

/-- What holds after every end of a section holds after the section. -/
theorem within_of {P : Authority → Prop} (h : Ensures m s.store Q)
    (hnext : ∀ r st, Q r st → P (next r (s.put st))) : P (s.within host m next) :=
  hnext _ _ (h host.publications)

end Authority

/-! ## Launch files -/

/-- The launch file of a mutation, as `reserve` makes it and every commit leaves it. -/
structure StoredReservation.Admitted (a : StoredReservation) (mutation : Uuid) : Prop where
  mutation : a.receipt.reservation.launchMutationId = mutation
  version : a.version = if a.environment.isSome then 5 else 4
  environment : ∀ e, a.environment = some e →
    validateEnvironment e = .ok () ∧ a.receipt.reservation.options.env = []

/-- A later version of a launch file. -/
structure StoredReservation.Advances (a b : StoredReservation) : Prop where
  reservation : b.receipt.reservation = a.receipt.reservation
  environment : b.environment = a.environment
  version : b.version = a.version
  revision : a.receipt.revision < b.receipt.revision
  started : b.receipt.phase = .reserved → a.receipt.phase = .reserved

namespace StoredReservation

variable {a b c : StoredReservation} {m : Uuid}

theorem Admitted.advances (h : a.Admitted m) (hab : a.Advances b) : b.Admitted m where
  mutation := by rw [hab.reservation]; exact h.mutation
  version := by rw [hab.version, hab.environment]; exact h.version
  environment := by rw [hab.reservation, hab.environment]; exact h.environment

theorem Advances.trans (hab : a.Advances b) (hbc : b.Advances c) : a.Advances c where
  reservation := hbc.reservation.trans hab.reservation
  environment := hbc.environment.trans hab.environment
  version := hbc.version.trans hab.version
  revision := hab.revision.trans hbc.revision
  started h := hab.started (hbc.started h)

theorem advances_moved {phase : LaunchPhase} (h : phase = .reserved → a.receipt.phase = .reserved) :
    a.Advances (a.moved phase) :=
  ⟨rfl, rfl, rfl, Nat.lt_succ_self _, h⟩

theorem advances_blamed {phase : LaunchPhase} {error : String} (h : phase ≠ .reserved) :
    a.Advances (a.blamed phase error) :=
  ⟨rfl, rfl, rfl, Nat.lt_succ_self _, fun h' => absurd h' h⟩

variable (debug : ExecutionError → String) (reservation : LaunchReservation)
    (result : Except ExecutionError ExecutionRef)

theorem advances_launched : a.Advances (a.launched debug reservation result) := by
  cases result with
  | error e => exact advances_blamed (by simp)
  | ok reference =>
    unfold launched
    dsimp only
    split
    · exact advances_moved (by simp)
    · exact advances_blamed (by simp)

theorem launched_phase : (a.launched debug reservation result).receipt.phase = .running ∨
      (a.launched debug reservation result).receipt.phase = .uncertain := by
  cases result with
  | error e => exact .inr rfl
  | ok reference =>
    unfold launched
    dsimp only
    split
    · exact .inl rfl
    · exact .inr rfl

def reconciled (a : StoredReservation) (status : ExecutionStatus) : StoredReservation :=
  { a with receipt := { a.receipt.observed status with revision := (a.receipt.observed status).revision + 1 } }

theorem advances_reconciled (status : ExecutionStatus) : a.Advances (a.reconciled status) := by
  refine ⟨rfl, rfl, rfl, Nat.lt_succ_self _, ?_⟩
  show (if status.terminalSessionEnded then LaunchPhase.exited else a.receipt.phase) = .reserved → _
  split
  · intro h; cases h
  · exact id

def retiredAt (a : StoredReservation) (revision : Nat) : StoredReservation :=
  { a with receipt := { a.receipt with phase := .retired, revision } }

theorem advances_retiredAt {revision : Nat} (h : a.receipt.revision < revision) : a.Advances (a.retiredAt revision) :=
  ⟨rfl, rfl, rfl, h, fun h => by cases h⟩

theorem advances_settled (action : ResolutionAction) (effect : Except String Unit) :
    a.Advances (a.settled action effect) := by
  unfold settled
  split
  · exact advances_blamed (by simp)
  · exact advances_moved id

theorem admitted_new {mutation : Uuid} {options : ProgramOptions} {drawn : Drawn}
    {environment : Option (List EnvironmentEntry)}
    (h : ∀ e, environment = some e → validateEnvironment e = .ok () ∧ options.env = []) :
    (StoredReservation.new (.new mutation options drawn) environment).Admitted mutation :=
  ⟨rfl, rfl, h⟩

end StoredReservation

/-! ## Valid stores -/

namespace ReservationStore

variable {s t : ReservationStore} {m : Uuid} {a b : StoredReservation} {reference : ExecutionRef}

def Has (s : ReservationStore) (reference : ExecutionRef) (P : Uuid → StoredReservation → Prop) : Prop :=
  ∃ m a, s.launches.lookup m = some a ∧ a.receipt.reservation.execution = reference ∧ P m a

structure AdmittedInput (s : ReservationStore) (key : Uuid × Uuid) (v : StoredInput) : Prop where
  version : v.version = 4
  token : v.receipt.execution.executionToken = key.1
  fits : v.data.length ≤ 65536
  execution : s.Has v.receipt.execution fun _ _ => True

/-- The intent of a retirement: the launch was over at the revision it expects. -/
structure AdmittedRetirement (s : ReservationStore) (v : StoredRetirement) : Prop where
  revision : v.receipt.revision = v.expected + 1
  execution : s.Has v.receipt.execution fun _ a =>
    v.expected ≤ a.receipt.revision ∧ (a.receipt.revision = v.expected → a.receipt.phase = .exited)

structure Valid (s : ReservationStore) : Prop where
  launch : ∀ m a, s.launches.lookup m = some a → a.Admitted m
  token : ∀ m a n b, s.launches.lookup m = some a → s.launches.lookup n = some b →
    a.receipt.reservation.execution.executionToken = b.receipt.reservation.execution.executionToken → m = n
  input : ∀ key v, s.inputs.lookup key = some v → s.AdmittedInput key v
  retirement : ∀ key v, s.retirements.lookup key = some v → s.AdmittedRetirement v

theorem valid_empty : empty.Valid := by
  refine ⟨?_, ?_, ?_, ?_⟩
  · intro m a h; cases h
  · intro m a n b h; cases h
  · intro key v h; cases h
  · intro key v h; cases h

/-- The launch files of a later store. -/
def Grows (s t : ReservationStore) : Prop :=
  ∀ m a, s.launches.lookup m = some a → ∃ b, t.launches.lookup m = some b ∧ (b = a ∨ a.Advances b)

theorem Grows.refl (s : ReservationStore) : s.Grows s := fun _ a h => ⟨a, h, .inl rfl⟩

theorem Grows.of_eq (h : t.launches = s.launches) : s.Grows t := fun _ a ha => ⟨a, h ▸ ha, .inl rfl⟩

/-- What is kept by later versions of a file is kept by later stores. -/
theorem Has.grows {P Q : Uuid → StoredReservation → Prop} (h : s.Has reference P) (hg : s.Grows t)
    (himp : ∀ m a b, s.launches.lookup m = some a → t.launches.lookup m = some b → P m a → (b = a ∨ a.Advances b) →
      Q m b) :
    t.Has reference Q := by
  obtain ⟨m, a, ha, hexec, hP⟩ := h
  obtain ⟨b, hb, hab⟩ := hg m a ha
  refine ⟨m, b, hb, ?_, himp m a b ha hb hP hab⟩
  rcases hab with rfl | hab
  · exact hexec
  · rw [hab.reservation]; exact hexec

theorem AdmittedInput.grows {key : Uuid × Uuid} {v : StoredInput} (h : s.AdmittedInput key v) (hg : s.Grows t) :
    t.AdmittedInput key v :=
  { h with execution := h.execution.grows hg fun _ _ _ _ _ _ _ => trivial }

theorem AdmittedRetirement.grows {v : StoredRetirement} (h : s.AdmittedRetirement v) (hg : s.Grows t) :
    t.AdmittedRetirement v where
  revision := h.revision
  execution := h.execution.grows hg fun m a b _ _ hP hab => by
    rcases hab with rfl | hab
    · exact hP
    · have hlt := hab.revision
      exact ⟨by omega, fun h => by omega⟩

/-! ### Reading -/

theorem read_of (h : s.launches.lookup m = some a) (ha : a.Admitted m) : s.read m = .ok a := by
  have hv := ha.version
  unfold read
  rw [h]
  cases he : a.environment with
  | none =>
    have hv4 : a.version = 4 := by simpa [he] using hv
    simp [he, hv4]
  | some e =>
    have hv5 : a.version = 5 := by simpa [he] using hv
    simp [he, hv5, (ha.environment e he).1]

theorem lookup_of_read (h : s.read m = .ok a) : s.launches.lookup m = some a := by
  unfold read at h
  split at h
  · cases h
  · rename_i stored hl
    split at h
    · cases h
    split at h
    · cases h
    split at h
    · cases h
    · cases h
      exact hl

theorem findIn_ok {ms : List Uuid} (h : s.findIn reference ms = .ok a) :
    ∃ m, s.launches.lookup m = some a ∧ a.receipt.reservation.execution = reference := by
  induction ms with
  | nil => cases h
  | cons m ms ih =>
    obtain ⟨stored, hread, h⟩ := bind_eq_ok.mp h
    split at h
    · rename_i hexec
      cases h
      exact ⟨m, lookup_of_read hread, hexec⟩
    · exact ih h

theorem has_of_find (h : s.find reference = .ok a) : s.Has reference fun _ b => b = a := by
  obtain ⟨m, hm, hexec⟩ := findIn_ok h
  exact ⟨m, a, hm, hexec, rfl⟩

theorem findIn_of (hv : s.Valid) {ms : List Uuid} (hsub : ∀ n ∈ ms, n ∈ s.launches.keys) (hm : m ∈ ms)
    (h : s.launches.lookup m = some a) (hexec : a.receipt.reservation.execution = reference) :
    s.findIn reference ms = .ok a := by
  induction ms with
  | nil => cases hm
  | cons n ms ih =>
    unfold findIn
    have hn : n ∈ s.launches := mem_keys.mpr (hsub n (by simp))
    obtain ⟨b, hb⟩ := Option.isSome_iff_exists.mp (lookup_isSome.mpr hn)
    rw [read_of hb (hv.launch n b hb)]
    show (if b.receipt.reservation.execution = reference then Except.ok b else s.findIn reference ms) = .ok a
    by_cases hbe : b.receipt.reservation.execution = reference
    · have hnm : n = m := hv.token n b m a hb h (by rw [hbe, hexec])
      rw [hnm, h] at hb
      cases hb
      rw [if_pos hbe]
    · rw [if_neg hbe]
      apply ih
      · intro k hk; exact hsub k (by simp [hk])
      · rcases List.mem_cons.mp hm with rfl | hm
        · rw [h] at hb
          cases hb
          exact absurd hexec hbe
        · exact hm

theorem find_of (hv : s.Valid) (h : s.launches.lookup m = some a)
    (hexec : a.receipt.reservation.execution = reference) : s.find reference = .ok a := by
  apply findIn_of hv (fun _ hn => hn) _ h hexec
  exact mem_keys.mp (lookup_isSome.mp (by rw [h]; rfl))

/-! ### Committing -/

theorem lookup_insert {κ β : Type} [DecidableEq κ] {l : AList fun _ : κ => β} {key : κ} {v : β} (k : κ) :
    (l.insert key v).lookup k = if k = key then some v else l.lookup k := by
  split
  · rename_i h
    rw [h]
    exact AList.lookup_insert _
  · rename_i h
    exact lookup_insert_ne h

theorem lookup_setLaunch (n : Uuid) :
    (s.setLaunch b).launches.lookup n = if n = b.receipt.reservation.launchMutationId then some b
      else s.launches.lookup n :=
  lookup_insert _

theorem grows_setLaunch (hv : s.Valid) (h : s.launches.lookup m = some a) (hab : a.Advances b) :
    s.Grows (s.setLaunch b) := by
  intro n c hc
  have hbm : b.receipt.reservation.launchMutationId = m := ((hv.launch m a h).advances hab).mutation
  rw [lookup_setLaunch, hbm]
  by_cases hn : n = m
  · rw [hn, h] at hc
    cases hc
    exact ⟨b, if_pos hn, .inr hab⟩
  · simp [if_neg hn, hc]

theorem lookup_setLaunch_cases {n : Uuid} {c : StoredReservation}
    (hc : (s.setLaunch b).launches.lookup n = some c) :
    (n = b.receipt.reservation.launchMutationId ∧ c = b) ∨ s.launches.lookup n = some c := by
  rw [lookup_setLaunch] at hc
  split at hc
  · rename_i hn
    cases hc
    exact .inl ⟨hn, rfl⟩
  · exact .inr hc

/-- A file with a token that no other has. -/
theorem valid_commit (hv : s.Valid) (hb : b.Admitted m) (hg : s.Grows (s.setLaunch b))
    (htoken : ∀ n c, s.launches.lookup n = some c →
      c.receipt.reservation.execution.executionToken = b.receipt.reservation.execution.executionToken → n = m) :
    (s.setLaunch b).Valid := by
  refine ⟨?_, ?_, fun key v hk => (hv.input key v hk).grows hg, fun key v hk => (hv.retirement key v hk).grows hg⟩
  · intro n c hc
    rcases lookup_setLaunch_cases hc with ⟨rfl, rfl⟩ | hc
    · rw [hb.mutation]; exact hb
    · exact hv.launch n c hc
  · intro n c k d hc hd htok
    rcases lookup_setLaunch_cases hc with ⟨rfl, rfl⟩ | hc' <;> rcases lookup_setLaunch_cases hd with ⟨rfl, rfl⟩ | hd'
    · rfl
    · rw [hb.mutation, htoken k d hd' htok.symm]
    · rw [hb.mutation, htoken n c hc' htok]
    · exact hv.token n c k d hc' hd' htok

theorem valid_setLaunch (hv : s.Valid) (h : s.launches.lookup m = some a) (hab : a.Advances b) :
    (s.setLaunch b).Valid := by
  refine valid_commit hv ((hv.launch m a h).advances hab) (grows_setLaunch hv h hab) fun n c hc htok => ?_
  rw [hab.reservation] at htok
  exact hv.token n c m a hc h htok

theorem grows_new (h : s.launches.lookup m = none) (hb : b.Admitted m) : s.Grows (s.setLaunch b) := by
  intro n c hc
  have hn : n ≠ b.receipt.reservation.launchMutationId := by
    rw [hb.mutation]
    rintro rfl
    rw [h] at hc
    cases hc
  simp [lookup_setLaunch, if_neg hn, hc]

theorem valid_new (hv : s.Valid) (h : s.launches.lookup m = none) (hb : b.Admitted m)
    (hfresh : s.Unused b.receipt.reservation.execution.executionToken) : (s.setLaunch b).Valid :=
  valid_commit hv hb (grows_new h hb) fun n c hc htok => absurd htok (hfresh ⟨n, c⟩ (mem_lookup_iff.mp hc))

section

variable {key : Uuid × Uuid}

variable (k : Uuid × Uuid)

theorem lookup_setInput {v : StoredInput} : (s.setInput key v).inputs.lookup k = if k = key then some v
    else s.inputs.lookup k :=
  lookup_insert _

theorem lookup_setRetirement {v : StoredRetirement} :
    (s.setRetirement key v).retirements.lookup k = if k = key then some v else s.retirements.lookup k :=
  lookup_insert _

theorem lookup_setResolution {v : StoredResolution} :
    (s.setResolution key v).resolutions.lookup k = if k = key then some v else s.resolutions.lookup k :=
  lookup_insert _

theorem valid_setInput (hv : s.Valid) {v : StoredInput} (h : s.AdmittedInput key v) : (s.setInput key v).Valid := by
  have hg : s.Grows (s.setInput key v) := .of_eq rfl
  refine ⟨hv.launch, hv.token, ?_, fun k w hk => (hv.retirement k w hk).grows hg⟩
  intro k w hk
  rw [lookup_setInput] at hk
  split at hk
  · rename_i hkey
    cases hk
    rw [hkey]
    exact h.grows hg
  · exact (hv.input k w hk).grows hg

theorem valid_setRetirement (hv : s.Valid) {v : StoredRetirement} (h : s.AdmittedRetirement v) :
    (s.setRetirement key v).Valid := by
  have hg : s.Grows (s.setRetirement key v) := .of_eq rfl
  refine ⟨hv.launch, hv.token, fun k w hk => (hv.input k w hk).grows hg, ?_⟩
  intro k w hk
  rw [lookup_setRetirement] at hk
  split at hk
  · cases hk
    exact h.grows hg
  · exact (hv.retirement k w hk).grows hg

theorem valid_setResolution (hv : s.Valid) (v : StoredResolution) : (s.setResolution key v).Valid := by
  have hg : s.Grows (s.setResolution key v) := .of_eq rfl
  exact ⟨hv.launch, hv.token, fun k w hk => (hv.input k w hk).grows hg, fun k w hk => (hv.retirement k w hk).grows hg⟩

end

end ReservationStore

/-! ## What a section can do to the store -/

section Specs

variable {s : ReservationStore} {host : Host}

variable {mutation : Uuid}

variable {authorize : Uuid → Except RecoveryError Unit} {environment : Option (List EnvironmentEntry)}

theorem reserveIn_spec {options : ProgramOptions} {drawn : Drawn} :
    Ensures (reserveIn host mutation options environment authorize drawn) s fun _ s' =>
      s' = s ∨ (s.launches.lookup mutation = none ∧
        s' = s.setLaunch (.new (.new mutation options drawn) environment)) := by
  refine .load ?_
  refine .ite ?_ ?_
  · intro _
    refine .lift (by simp) fun stored _ => ?_
    refine .lift (by simp) fun _ _ => ?_
    refine .refuse (by simp) fun _ => ?_
    refine .refuse (by simp) fun _ => ?_
    exact .pure (.inl rfl)
  · intro hnew
    have hnone := lookup_eq_none.mpr hnew
    refine .refuse (by simp) fun _ => ?_
    refine .lift (by simp) fun _ _ => ?_
    refine .lift (by simp) fun _ _ => ?_
    refine .publish ?_ (by simp) fun _ => .inr ⟨hnone, rfl⟩
    exact .pure (.inr ⟨hnone, rfl⟩)

/-- A reservation commits a new launch file, or leaves the store as it was. -/
theorem reserveWith_spec {options : ProgramOptions} {drawn : Drawn} :
    Ensures (reserveWith host mutation options environment authorize drawn) s fun _ s' =>
      s' = s ∨ (s.launches.lookup mutation = none ∧
        (∀ e, environment = some e → validateEnvironment e = .ok () ∧ options.env = []) ∧
        s' = s.setLaunch (.new (.new mutation options drawn) environment)) := by
  cases environment with
  | none =>
    refine .lift (by simp) fun _ _ => ?_
    refine .lift (by simp) fun _ _ => ?_
    refine reserveIn_spec.mono ?_
    rintro r s' (h | ⟨hnone, h⟩)
    · exact .inl h
    · exact .inr ⟨hnone, nofun, h⟩
  | some environment =>
    refine .lift (by simp) fun _ hvalid => ?_
    refine .refuse (by simp) fun henv => ?_
    refine .lift (by simp) fun _ _ => ?_
    refine reserveIn_spec.mono ?_
    rintro r s' (h | ⟨hnone, h⟩)
    · exact .inl h
    · refine .inr ⟨hnone, ?_, h⟩
      rintro e he
      cases he
      refine ⟨?_, not_not.mp henv⟩
      cases hv : validateEnvironment environment with
      | ok u => rfl
      | error e => rw [hv] at hvalid; cases hvalid

variable {reservation : LaunchReservation}

/-- Only a launch that finds its reservation not started commits, and only such a launch goes on
to the effect. -/
theorem admitLaunch_spec {authorize : Uuid → Except String Unit} :
    Ensures (admitLaunch host reservation authorize) s fun r s' =>
      (s' = s ∧ ∀ receipt, r ≠ .ok (true, receipt)) ∨
      ∃ a, s.launches.lookup reservation.launchMutationId = some a ∧ a.receipt.reservation = reservation ∧
        a.receipt.phase = .reserved ∧ s' = s.setLaunch (a.moved .launching) ∧
        ∀ admitted, r = .ok admitted → admitted.1 = true := by
  refine .lift (by simp) fun _ _ => ?_
  refine .lift (by simp) fun _ _ => ?_
  refine .load ?_
  refine .lift (by simp) fun a hread => ?_
  refine .lift (by simp) fun _ _ => ?_
  refine .refuse (by simp) fun hsame => ?_
  have ha := lookup_of_read hread
  have hres := (not_not.mp hsame).symm
  refine .ite ?_ ?_
  · intro _
    exact .pure (.inl ⟨rfl, fun _ h => by cases h⟩)
  · intro hphase
    have hphase := not_not.mp hphase
    refine .publish ?_ (by simp) fun _ => .inr ⟨a, ha, hres, hphase, rfl, fun _ h => by cases h⟩
    exact .pure (.inr ⟨a, ha, hres, hphase, rfl, fun _ h => by cases h; rfl⟩)

theorem launchEnvironment_spec :
    Ensures (launchEnvironment host reservation) s fun _ s' => s' = s := by
  refine .lift (by simp) fun _ _ => ?_
  refine .load ?_
  refine .lift (by simp) fun _ _ => ?_
  exact .pure rfl

theorem completeLaunch_spec {result : Except ExecutionError ExecutionRef} :
    Ensures (completeLaunch host reservation result) s fun _ s' =>
      s' = s ∨ ∃ a, s.launches.lookup reservation.launchMutationId = some a ∧
        s' = s.setLaunch (a.launched host.debug reservation result) := by
  refine .lift (by simp) fun _ _ => ?_
  refine .load ?_
  refine .lift (by simp) fun a hread => ?_
  have ha := lookup_of_read hread
  refine .publish ?_ (by simp) fun _ => .inr ⟨a, ha, rfl⟩
  exact .pure (.inr ⟨a, ha, rfl⟩)

variable {current : Except ExecutionError ExecutionStatus}

theorem observe_spec {a : StoredReservation} : Ensures (observe a current) s fun _ s' =>
      s' = s ∨ ∃ status, current = .ok status ∧ s' = s.setLaunch (a.reconciled status) := by
  cases current with
  | ok status =>
    refine .ite ?_ ?_
    · intro _
      refine .publish ?_ (by simp) fun _ => .inr ⟨status, rfl, rfl⟩
      exact .pure (.inr ⟨status, rfl, rfl⟩)
    · intro _
      exact .pure (.inl rfl)
  | error e =>
    refine .ite ?_ ?_
    · intro _
      exact .pure (.inl rfl)
    · intro _
      exact .pure (.inl rfl)

variable {reference : ExecutionRef} {capture : Capture}

theorem reconcile_spec : Ensures (reconcile host reference current capture) s fun _ s' =>
      s' = s ∨ ∃ status, current = .ok status ∧
        s.Has reference fun _ a => s' = s.setLaunch (a.reconciled status) := by
  refine .lift (by simp) fun _ _ => ?_
  refine .load ?_
  refine .lift (by simp) fun a hfind => ?_
  refine .lift (by simp) fun _ _ => ?_
  have hQ : ∀ s', (s' = s ∨ ∃ status, current = .ok status ∧ s' = s.setLaunch (a.reconciled status)) →
      s' = s ∨ ∃ status, current = .ok status ∧ s.Has reference fun _ a => s' = s.setLaunch (a.reconciled status) := by
    rintro s' (h | ⟨status, hcur, h⟩)
    · exact .inl h
    · obtain ⟨m, b, hb, hexec, rfl⟩ := has_of_find hfind
      exact .inr ⟨status, hcur, m, b, hb, hexec, h⟩
  refine .bind observe_spec ?_ ?_
  · intro b s' h
    exact .pure (hQ s' h)
  · intro e s' h
    exact hQ s' h

/-- Only a send of a new mutation commits, and only such a send goes on to write. -/
theorem claimInput_spec {data : List UInt8} :
    Ensures (claimInput host reference mutation data current capture) s fun r s' =>
      (s' = s ∧ ∀ claim, r ≠ .ok (true, claim)) ∨
      (s.inputs.lookup (reference.executionToken, mutation) = none ∧
        s.AdmittedInput (reference.executionToken, mutation) (.new reference mutation data) ∧
        s' = s.setInput (reference.executionToken, mutation) (.new reference mutation data) ∧
        ∀ claim, r = .ok claim → claim = (true, .new reference mutation data)) := by
  refine .lift (by simp) fun _ _ => ?_
  refine .refuse (by simp) fun hfits => ?_
  refine .lift (by simp) fun _ _ => ?_
  refine .load ?_
  refine .lift (by simp) fun a hfind => ?_
  cases hl : s.inputs.lookup (reference.executionToken, mutation) with
  | some stored =>
    refine .refuse (by simp) fun _ => ?_
    refine .refuse (by simp) fun _ => ?_
    exact .pure (.inl ⟨rfl, fun _ h => by cases h⟩)
  | none =>
    obtain ⟨m, b, hb, hexec, -⟩ := has_of_find hfind
    have hnew : s.AdmittedInput (reference.executionToken, mutation) (.new reference mutation data) :=
      ⟨rfl, rfl, by simpa [StoredInput.new] using hfits, m, b, hb, hexec, trivial⟩
    refine .lift (by simp) fun _ _ => ?_
    refine .refuse (by simp) fun _ => ?_
    refine .publish ?_ (by simp) fun _ => .inr ⟨rfl, hnew, rfl, fun _ h => by cases h⟩
    exact .pure (.inr ⟨rfl, hnew, rfl, fun _ h => by cases h; rfl⟩)

theorem completeInput_spec {claim : StoredInput} {result : Except ExecutionError Unit} :
    Ensures (completeInput host reference mutation claim result) s fun _ s' =>
      s' = s ∨ s' = s.setInput (reference.executionToken, mutation) (claim.written host.debug result) := by
  refine .lift (by simp) fun _ _ => ?_
  refine .publish ?_ (by simp) fun _ => .inr rfl
  exact .pure (.inr rfl)

/-- The retirement is committed: its intent and the launch file. -/
def ReservationStore.Retired (s : ReservationStore) (reference : ExecutionRef) (mutation : Uuid) (expected : Nat)
    (receipt : RetirementReceipt) : Prop :=
  s.retirements.lookup (reference.executionToken, mutation) = some ⟨4, expected, receipt⟩ ∧
    receipt.execution = reference ∧
    s.Has reference fun _ a => a.receipt.phase = .retired ∧ a.receipt.revision = receipt.revision

theorem ReservationStore.has_setLaunch {b : StoredReservation} {P : Uuid → StoredReservation → Prop}
    (h : P b.receipt.reservation.launchMutationId b) : (s.setLaunch b).Has b.receipt.reservation.execution P :=
  ⟨_, b, by rw [lookup_setLaunch, if_pos rfl], rfl, h⟩

/-- A retirement commits its intent and then the launch file; a retry goes on from the intent. -/
theorem retire_spec {expected : Nat} :
    Ensures (retire host reference mutation expected capture) s fun r s' =>
      let key := (reference.executionToken, mutation)
      let receipt : RetirementReceipt := ⟨reference, mutation, expected + 1, true⟩
      (s' = s ∨
        (∃ retained, s.retirements.lookup key = some retained ∧ retained.expected = expected ∧
          retained.receipt.execution = reference ∧
          s.Has reference fun _ a => a.receipt.revision = expected ∧
            s' = s.setLaunch (a.retiredAt retained.receipt.revision)) ∨
        (s.retirements.lookup key = none ∧
          s.Has reference fun _ a => a.receipt.revision = expected ∧ a.receipt.phase = .exited ∧
          (s' = s.setRetirement key ⟨4, expected, receipt⟩ ∨
            s' = (s.setRetirement key ⟨4, expected, receipt⟩).setLaunch (a.retiredAt (expected + 1))))) ∧
      ∀ answer, r = .ok answer → s'.Retired reference mutation expected answer := by
  refine .lift (by simp) fun _ _ => ?_
  refine .lift (by simp) fun _ _ => ?_
  refine .load ?_
  cases hl : s.retirements.lookup (reference.executionToken, mutation) with
  | some retained =>
    refine .refuse (by simp) fun hsame => ?_
    refine .lift (by simp) fun a hfind => ?_
    simp only [not_or, not_not] at hsame
    obtain ⟨hversion, hexpected, hexecution⟩ := hsame
    obtain ⟨m, b, hb, hexec, rfl⟩ := has_of_find hfind
    have hretained : retained = ⟨4, expected, retained.receipt⟩ := by rw [← hversion, ← hexpected]
    refine .ite ?_ ?_
    · intro hrev
      refine .publish ?_ (by simp) fun _ => ⟨.inr (.inl ⟨retained, hl, hexpected, hexecution, m, b, hb, hexec, hrev,
        rfl⟩), nofun⟩
      refine .pure ⟨.inr (.inl ⟨retained, hl, hexpected, hexecution, m, b, hb, hexec, hrev, rfl⟩), fun answer h => ?_⟩
      cases h
      refine ⟨hl.trans (congrArg some hretained), hexecution, ?_⟩
      rw [← hexec]
      exact has_setLaunch ⟨rfl, rfl⟩
    · intro _
      refine .refuse (by simp) fun hdone => ?_
      simp only [not_or, not_not] at hdone
      refine .pure ⟨.inl rfl, fun answer h => ?_⟩
      cases h
      exact ⟨hl.trans (congrArg some hretained), hexecution, m, b, hb, hexec, hdone.2, hdone.1⟩
  | none =>
    refine .lift (by simp) fun a hfind => ?_
    refine .refuse (by simp) fun hrev => ?_
    refine .lift (by simp) fun boundary _ => ?_
    refine .refuse (by simp) fun hover => ?_
    refine .refuse (by simp) fun _ => ?_
    simp only [not_or, not_not] at hrev hover
    obtain ⟨m, b, hb, hexec, rfl⟩ := has_of_find hfind
    have hexited := hover.2.2.1
    refine .publish ?_ (by simp) fun _ => ⟨.inr (.inr ⟨hl, m, b, hb, hexec, hrev, hexited, .inl rfl⟩), nofun⟩
    refine .publish ?_ (fun _ => ⟨.inr (.inr ⟨hl, m, b, hb, hexec, hrev, hexited, .inl rfl⟩), nofun⟩)
      (fun _ => ⟨.inr (.inr ⟨hl, m, b, hb, hexec, hrev, hexited, .inr rfl⟩), nofun⟩)
    refine .pure ⟨.inr (.inr ⟨hl, m, b, hb, hexec, hrev, hexited, .inr rfl⟩), fun answer h => ?_⟩
    cases h
    refine ⟨?_, rfl, ?_⟩
    · show (s.setRetirement _ _).retirements.lookup _ = _
      rw [lookup_setRetirement, if_pos rfl]
    · have hhas := has_setLaunch (s := s.setRetirement (reference.executionToken, mutation)
        ⟨4, expected, ⟨reference, mutation, expected + 1, true⟩⟩) (b := b.retiredAt (expected + 1))
        (P := fun _ a => a.receipt.phase = .retired ∧ a.receipt.revision = expected + 1) ⟨rfl, rfl⟩
      rwa [show (b.retiredAt (expected + 1)).receipt.reservation.execution = reference from hexec] at hhas

variable {request : ResolutionRequest}

/-- A resolution commits its intent at the revision it expects, a cancellation only if the launch
has not started. -/
theorem claimResolution_spec : Ensures (claimResolution host request) s fun r s' =>
      let key := (request.reference.executionToken, request.mutation)
      (s' = s ∧ ∀ x, r = .ok x →
        ∃ v receipt, s.resolutions.lookup key = some v ∧ v.receipt = some receipt ∧ x = some receipt) ∨
      ((s.Has request.reference fun _ a => a.receipt.revision = request.expected ∧
          (request.action = .cancelUnstarted → a.receipt.phase = .reserved)) ∧
        s' = s.setResolution key ⟨4, request, none⟩ ∧ ∀ x, r = .ok x → x = none) := by
  refine .lift (by simp) fun _ _ => ?_
  refine .lift (by simp) fun _ _ => ?_
  refine .load ?_
  cases hl : s.resolutions.lookup (request.reference.executionToken, request.mutation) with
  | some retained =>
    refine .refuse (by simp) fun _ => ?_
    refine .refuse (by simp) fun hsettled => ?_
    obtain ⟨receipt, hreceipt⟩ := Option.ne_none_iff_exists'.mp hsettled
    refine .pure (.inl ⟨rfl, fun x h => ?_⟩)
    cases h
    exact ⟨retained, receipt, hl, hreceipt, hreceipt⟩
  | none =>
    refine .lift (by simp) fun a hfind => ?_
    refine .refuse (by simp) fun hrev => ?_
    refine .refuse (by simp) fun hstart => ?_
    simp only [not_and, not_not] at hrev hstart
    obtain ⟨m, b, hb, hexec, rfl⟩ := has_of_find hfind
    refine .publish ?_ (by simp) fun _ => .inr ⟨⟨m, b, hb, hexec, hrev, hstart⟩, rfl, nofun⟩
    exact .pure (.inr ⟨⟨m, b, hb, hexec, hrev, hstart⟩, rfl, fun x h => by cases h; rfl⟩)

/-- The store after the part of a resolution beside the launch file. -/
def ReservationStore.Acknowledges (s : ReservationStore) (request : ResolutionRequest) (t : ReservationStore) : Prop :=
  t = s ∨ (request.action = .acknowledgeUncertainInput ∧ ∃ id v, request.input = some id ∧
    s.inputs.lookup (request.reference.executionToken, id) = some v ∧
    (v.receipt.phase = .writing ∨ v.receipt.phase = .uncertain) ∧
    t = s.setInput (request.reference.executionToken, id) v.acknowledged)

@[simp] theorem ReservationStore.acknowledges_self : s.Acknowledges request s := .inl rfl

variable {effect : Except String Unit}

theorem applyResolution_spec :
    Ensures (applyResolution request effect) s fun _ s' => s.Acknowledges request s' := by
  refine .ite ?_ (fun _ => Ensures.pure (.inl rfl))
  rintro ⟨-, haction⟩
  refine .lift (by simp) fun id hid => ?_
  refine .load ?_
  refine .lift (by simp) fun v hv => ?_
  refine .refuse (by simp) fun _ => ?_
  refine .refuse (by simp) fun hphase => ?_
  have hid : request.input = some id := by
    cases h : request.input <;> rw [h] at hid <;> cases hid
    rfl
  have hv : s.inputs.lookup (request.reference.executionToken, id) = some v := by
    cases h : s.inputs.lookup (request.reference.executionToken, id) <;> rw [h] at hv <;> cases hv
    rfl
  have hphase : v.receipt.phase = .writing ∨ v.receipt.phase = .uncertain := by
    by_cases h : v.receipt.phase = .writing
    · exact .inl h
    · exact .inr (not_not.mp fun h' => hphase ⟨h, h'⟩)
  have hack : s.Acknowledges request (s.setInput (request.reference.executionToken, id) v.acknowledged) :=
    .inr ⟨haction, id, v, hid, hv, hphase, rfl⟩
  intro publications
  match publications with
  | [] | .done :: _ => exact hack
  | .failed _ :: _ => exact .inl rfl
  | .unsynced _ :: _ => exact hack

/-- A resolution settles only at the revision it expects. -/
theorem settleResolution_spec : Ensures (settleResolution host request effect) s fun r s' =>
      let key := (request.reference.executionToken, request.mutation)
      ∃ s₁, s.Acknowledges request s₁ ∧
        ((s' = s₁ ∧ ∀ x, r ≠ .ok x) ∨
          s.Has request.reference fun _ a => a.receipt.revision = request.expected ∧
            ((s' = s₁.setLaunch (a.settled request.action effect) ∧ ∀ x, r ≠ .ok x) ∨
              (let receipt := ResolutionReceipt.new request (a.settled request.action effect) effect
               s' = (s₁.setLaunch (a.settled request.action effect)).setResolution key ⟨4, request, some receipt⟩ ∧
                ∀ x, r = .ok x → x = receipt))) := by
  refine .lift (fun e _ => ⟨s, .inl rfl, .inl ⟨rfl, nofun⟩⟩) (fun _ _ => ?_)
  refine .load ?_
  refine .lift (fun e _ => ⟨s, .inl rfl, .inl ⟨rfl, nofun⟩⟩) (fun a hfind => ?_)
  refine .refuse (fun _ => ⟨s, .inl rfl, .inl ⟨rfl, nofun⟩⟩) (fun hrev => ?_)
  have hrev := not_not.mp hrev
  obtain ⟨m, b, hb, hexec, rfl⟩ := has_of_find hfind
  refine .bind applyResolution_spec (fun _ s₁ h₁ => ?_) (fun e s₁ h₁ => ⟨s₁, h₁, .inl ⟨rfl, nofun⟩⟩)
  refine .publish ?_ (fun _ => ⟨s₁, h₁, .inl ⟨rfl, nofun⟩⟩)
    (fun _ => ⟨s₁, h₁, .inr ⟨m, b, hb, hexec, hrev, .inl ⟨rfl, nofun⟩⟩⟩)
  refine .publish ?_ (fun _ => ⟨s₁, h₁, .inr ⟨m, b, hb, hexec, hrev, .inl ⟨rfl, nofun⟩⟩⟩)
    (fun _ => ⟨s₁, h₁, .inr ⟨m, b, hb, hexec, hrev, .inr ⟨rfl, nofun⟩⟩⟩)
  exact .pure ⟨s₁, h₁, .inr ⟨m, b, hb, hexec, hrev, .inr ⟨rfl, fun x h => by cases h; rfl⟩⟩⟩

end Specs

end Bmux.Reservations
