import Bmux.L2Control.State

/-!
# The lease fence of a worker (`plugins/cluster-plugin/src/worker_runtime.rs`)

A worker accepts a mutation under a signed lease. For each execution it remembers the last lease it
accepted, by control term and lease sequence, with the time and the duration of its first acceptance.
A smaller pair is stale, the same pair has to be the same lease and is good until that time and
duration are over, and a larger pair takes its place.

`lease_fence` says what any history of calls can contain. Clocks and verifiers are those of each call.
-/
namespace Bmux.Worker
open Function

abbrev Uuid := Nat

inductive WorkerOperationClass where
  | interactive
  | lifecycle
  deriving DecidableEq, Repr

/-- mirrors plugins/cluster-plugin-api/bpdl/cluster-plugin.bpdl:161-177 -/
structure WorkerAuthority where
  clusterId : String
  workspaceId : Uuid
  paneId : Uuid
  executionId : Uuid
  generation : Nat
  controlTerm : Nat
  leaseSequence : Nat
  operationClass : WorkerOperationClass
  principalId : String
  issuerNodeId : String
  audienceNodeId : String
  leaseId : Uuid
  leaseIssuedAtUnixMs : Nat
  leaseDurationMs : Nat
  leaseSignature : Bytes
  deriving DecidableEq, Repr

structure WorkerExecutionAuthority where
  clusterId : String
  workspaceId : Uuid
  paneId : Uuid
  executionId : Uuid
  generation : Nat
  localNodeId : String

inductive WorkerServiceError where
  | notFound (executionId : Uuid)
  | commandConflict
  | staleGeneration (expected received : Nat)
  | staleTerm (expectedMinimum received : Nat)
  | leaseExpired
  | authorityMismatch
  | invalidRequest (reason : String)
  | localRuntime (reason : String)
  deriving DecidableEq, Repr

structure AcceptedLease where
  term : Nat
  sequence : Nat
  leaseId : Uuid
  acceptedMonotonicMs : Nat
  durationMs : Nat

abbrev WorkerFenceState := Uuid → Option AcceptedLease

structure Verifier where
  encode : WorkerAuthority → Except String Bytes
  verify : WorkerAuthority → Bytes → Except String Unit

structure Call where
  expected : WorkerExecutionAuthority
  authority : WorkerAuthority
  requiredClass : WorkerOperationClass
  now : Nat
  verifier : Verifier

def blank (s : String) : Prop := s.toList.all Control.isWhitespace = true

instance (s : String) : Decidable (blank s) := inferInstanceAs (Decidable (_ = _))

variable (calls : List Call) (f : WorkerFenceState) (c : Call)

def validateScope : Except WorkerServiceError Unit :=
  let a := c.authority
  if a.generation ≠ c.expected.generation then .error (.staleGeneration c.expected.generation a.generation)
  else if a.clusterId ≠ c.expected.clusterId ∨ a.workspaceId ≠ c.expected.workspaceId ∨ a.paneId ≠ c.expected.paneId ∨
      a.executionId ≠ c.expected.executionId ∨ a.audienceNodeId ≠ c.expected.localNodeId ∨
      a.operationClass ≠ c.requiredClass ∨ blank a.principalId ∨ blank a.issuerNodeId then
    .error .authorityMismatch
  else .ok ()

def canonicalUnsignedAuthority (v : Verifier) (a : WorkerAuthority) : Except WorkerServiceError Bytes :=
  match v.encode { a with leaseSignature := [] } with
  | .ok signed => .ok signed
  | .error e => .error (.invalidRequest ("authority encoding failed: " ++ e))

/-- The checks before the fence itself.
mirrors plugins/cluster-plugin/src/worker_runtime.rs:1333-1348 -/
def validateLease : Except WorkerServiceError Unit :=
  match validateScope c with
  | .error e => .error e
  | .ok () =>
    if c.authority.leaseDurationMs = 0 ∨ c.authority.leaseDurationMs > 5000 then
      .error (.invalidRequest "lease duration must be within 1..=5000 ms")
    else
      match canonicalUnsignedAuthority c.verifier c.authority with
      | .error e => .error e
      | .ok signed =>
        match c.verifier.verify c.authority signed with
        | .error reason => .error (.invalidRequest ("lease signature is invalid: " ++ reason))
        | .ok () => .ok ()

/-- mirrors plugins/cluster-plugin/src/worker_runtime.rs:1350-1378; `true` for a lease that is to be stored -/
def checkFence (previous : Option AcceptedLease) (a : WorkerAuthority) (now : Nat) : Except WorkerServiceError Bool :=
  match previous with
  | none => .ok true
  | some p =>
    if a.controlTerm < p.term then .error (.staleTerm p.term a.controlTerm)
    else if a.controlTerm = p.term then
      if a.leaseSequence < p.sequence then .error (.staleTerm p.term a.controlTerm)
      else if a.leaseSequence = p.sequence then
        if a.leaseId ≠ p.leaseId then .error .authorityMismatch
        else if now ≥ min (p.acceptedMonotonicMs + p.durationMs) (2 ^ 64 - 1) then .error .leaseExpired
        else .ok false
      else .ok true
    else .ok true

def validateMutation : Except WorkerServiceError Unit × WorkerFenceState :=
  match validateLease c with
  | .error e => (.error e, f)
  | .ok () =>
    match checkFence (f c.authority.executionId) c.authority c.now with
    | .error e => (.error e, f)
    | .ok false => (.ok (), f)
    | .ok true =>
      (.ok (), update f c.authority.executionId (some
        { term := c.authority.controlTerm, sequence := c.authority.leaseSequence, leaseId := c.authority.leaseId
          acceptedMonotonicMs := c.now, durationMs := c.authority.leaseDurationMs }))

/-! ## Histories -/

def after : WorkerFenceState := calls.foldl (fun f c => (validateMutation f c).2) fun _ => none

def Accepted (before : List Call) (c : Call) : Prop := (validateMutation (after before) c).1 = .ok ()

/-- The lexicographic order of (term, sequence). -/
def PairLe (t s t' s' : Nat) : Prop := t < t' ∨ t = t' ∧ s ≤ s'

/-- The call has the scope that is expected of it and passed the verifier. -/
structure Call.Passed : Prop where
  cluster : c.authority.clusterId = c.expected.clusterId
  workspace : c.authority.workspaceId = c.expected.workspaceId
  pane : c.authority.paneId = c.expected.paneId
  execution : c.authority.executionId = c.expected.executionId
  generation : c.authority.generation = c.expected.generation
  audience : c.authority.audienceNodeId = c.expected.localNodeId
  operation : c.authority.operationClass = c.requiredClass
  duration : 0 < c.authority.leaseDurationMs
  verified : ∃ signed, c.verifier.encode { c.authority with leaseSignature := [] } = .ok signed ∧
    c.verifier.verify c.authority signed = .ok ()

def Call.Same (a b : Call) : Prop :=
  a.authority.executionId = b.authority.executionId ∧ a.authority.controlTerm = b.authority.controlTerm ∧
    a.authority.leaseSequence = b.authority.leaseSequence

def First (before : List Call) (c : Call) : Prop :=
  ∀ front d back, before = front ++ d :: back → Accepted front d → ¬d.Same c

theorem after_concat : after (calls ++ [c]) = (validateMutation (after calls) c).2 := by
  simp [after]

theorem passed_of_validateLease {c : Call} (h : validateLease c = .ok ()) : c.Passed := by
  have hscope : validateScope c = .ok () := by
    unfold validateLease at h
    split at h
    · cases h
    · assumption
  simp only [validateLease, hscope, canonicalUnsignedAuthority] at h
  unfold validateScope at hscope
  constructor <;> grind

/-- An accepted call repeats the lease that is stored, in time, or stores a larger one. -/
theorem accepted_cases {f : WorkerFenceState} {c : Call} (h : (validateMutation f c).1 = .ok ()) : c.Passed ∧
    ((∃ p, f c.authority.executionId = some p ∧ p.term = c.authority.controlTerm ∧
      p.sequence = c.authority.leaseSequence ∧
        p.leaseId = c.authority.leaseId ∧ c.now < p.acceptedMonotonicMs + p.durationMs ∧ (validateMutation f c).2 = f) ∨
      (∀ p, f c.authority.executionId = some p →
        p.term < c.authority.controlTerm ∨ p.term = c.authority.controlTerm ∧ p.sequence < c.authority.leaseSequence) ∧
      (validateMutation f c).2 = update f c.authority.executionId (some ⟨c.authority.controlTerm,
        c.authority.leaseSequence, c.authority.leaseId, c.now, c.authority.leaseDurationMs⟩)) := by
  unfold validateMutation at h ⊢
  cases hlease : validateLease c with
  | error e => simp [hlease] at h
  | ok _ =>
    refine ⟨passed_of_validateLease hlease, ?_⟩
    cases hprevious : f c.authority.executionId with
    | none => simp [checkFence]
    | some p =>
      simp only [hlease, hprevious, checkFence] at h ⊢
      grind

theorem rejected_unchanged {f : WorkerFenceState} {c : Call} (h : (validateMutation f c).1 ≠ .ok ()) :
    (validateMutation f c).2 = f := by
  unfold validateMutation at h ⊢
  grind

/-- What the fence remembers of a history. -/
structure Remembers : Prop where
  /-- every acceptance is at or below the pair that is stored, and the first one at it is what is stored -/
  below : ∀ front c back, calls = front ++ c :: back → Accepted front c →
    ∃ p, f c.authority.executionId = some p ∧
      PairLe c.authority.controlTerm c.authority.leaseSequence p.term p.sequence ∧
      (p.term = c.authority.controlTerm → p.sequence = c.authority.leaseSequence → p.leaseId = c.authority.leaseId ∧
        (First front c → p.acceptedMonotonicMs = c.now ∧ p.durationMs = c.authority.leaseDurationMs))
  /-- what is stored was accepted -/
  attained : ∀ e p, f e = some p → ∃ front c back, calls = front ++ c :: back ∧ Accepted front c ∧
    c.authority.executionId = e ∧ c.authority.controlTerm = p.term ∧ c.authority.leaseSequence = p.sequence

theorem split_concat {α : Type} {l front back : List α} {a b : α} (h : l ++ [a] = front ++ b :: back) :
    back = [] ∧ front = l ∧ b = a ∨ ∃ back', back = back' ++ [a] ∧ l = front ++ b :: back' := by
  rcases List.eq_nil_or_concat' back with rfl | ⟨back', x, rfl⟩
  · obtain ⟨rfl, hlast⟩ := List.append_inj' h rfl
    exact .inl ⟨rfl, rfl, (List.cons.inj hlast).1.symm⟩
  · rw [← List.cons_append, ← List.append_assoc] at h
    obtain ⟨rfl, hlast⟩ := List.append_inj' h rfl
    simp [(List.cons.inj hlast).1]

/-- What the fence holds, by induction on the last call. -/
theorem remembers : Remembers calls (after calls) := by
  induction calls using List.reverseRecOn with
  | nil => exact ⟨by simp, by simp [after]⟩
  | append_singleton calls d ih =>
    rw [after_concat]
    -- what was stored before the last call was accepted before it
    have hearlier : ∀ e p, after calls e = some p → ∃ front c back, calls ++ [d] = front ++ c :: back ∧
      Accepted front c ∧
        c.authority.executionId = e ∧ c.authority.controlTerm = p.term ∧ c.authority.leaseSequence = p.sequence := by
      intro e p hp
      obtain ⟨front, c, back, rfl, h⟩ := ih.attained e p hp
      exact ⟨front, c, back ++ [d], by simp, h⟩
    by_cases haccepted : Accepted calls d
    · obtain ⟨-, ⟨p, hp, hterm, hsequence, hid, -, hsame⟩ | ⟨hlarger, hstored⟩⟩ := accepted_cases haccepted
      · rw [hsame]
        refine ⟨fun front c back hsplit hc => ?_, hearlier⟩
        rcases split_concat hsplit with ⟨rfl, rfl, rfl⟩ | ⟨back', rfl, hcalls⟩
        · refine ⟨p, hp, .inr ⟨hterm.symm, hsequence.ge⟩, fun _ _ => ⟨hid, fun hfirst => ?_⟩⟩
          -- it was not the first
          obtain ⟨front', c', back', hcalls, hc', hexecution, hterm', hsequence'⟩ := ih.attained _ p hp
          exact absurd ⟨hexecution, hterm'.trans hterm, hsequence'.trans hsequence⟩ (hfirst front' c' back' hcalls hc')
        · exact ih.below front c back' hcalls hc
      · rw [hstored]
        constructor
        · intro front c back hsplit hc
          rcases split_concat hsplit with ⟨rfl, rfl, rfl⟩ | ⟨back', rfl, hcalls⟩
          · exact ⟨_, update_self .., .inr ⟨rfl, le_rfl⟩, fun _ _ => ⟨rfl, fun _ => ⟨rfl, rfl⟩⟩⟩
          · obtain ⟨p, hp, hle, hrest⟩ := ih.below front c back' hcalls hc
            by_cases hexecution : c.authority.executionId = d.authority.executionId
            · rw [hexecution] at hp
              have hlt := hlarger p hp
              rw [hexecution, update_self]
              refine ⟨_, rfl, ?_, fun hterm hsequence => ?_⟩
              · unfold PairLe at hle ⊢
                dsimp only
                omega
              · unfold PairLe at hle
                dsimp only at hterm hsequence
                omega
            · exact ⟨p, by rwa [update_of_ne hexecution], hle, hrest⟩
        · intro e p hp
          by_cases hexecution : e = d.authority.executionId
          · subst hexecution
            rw [update_self] at hp
            cases hp
            exact ⟨calls, d, [], rfl, haccepted, rfl, rfl, rfl⟩
          · rw [update_of_ne hexecution] at hp
            exact hearlier e p hp
    · rw [rejected_unchanged haccepted]
      refine ⟨fun front c back hsplit hc => ?_, hearlier⟩
      rcases split_concat hsplit with ⟨rfl, rfl, rfl⟩ | ⟨back', rfl, hcalls⟩
      · exact absurd hc haccepted
      · exact ih.below front c back' hcalls hc

/-- **The lease fence.** -/
theorem lease_fence (front between : List Call) (a b : Call) : (Accepted front a → a.Passed) ∧
    (¬Accepted front a → after (front ++ [a]) = after front) ∧
    (Accepted front a → a.now < a.now + a.authority.leaseDurationMs) ∧
    (Accepted front a → Accepted (front ++ a :: between) b → a.authority.executionId = b.authority.executionId →
      PairLe a.authority.controlTerm a.authority.leaseSequence b.authority.controlTerm b.authority.leaseSequence ∧
      (a.Same b → a.authority.leaseId = b.authority.leaseId ∧
        (First front a → b.now < a.now + a.authority.leaseDurationMs))) := by
  refine ⟨fun h => (accepted_cases h).1, fun h => ?_, fun h => ?_, fun ha hb hexecution => ?_⟩
  · rw [after_concat, rejected_unchanged h]
  · have := (accepted_cases h).1.duration
    omega
  · obtain ⟨p, hp, hle, hstored⟩ := (remembers (front ++ a :: between)).below front a between rfl ha
    rw [hexecution] at hp
    unfold PairLe at hle ⊢
    unfold Call.Same
    obtain ⟨-, ⟨q, hq, hterm, hsequence, hid, htime, -⟩ | ⟨hlarger, -⟩⟩ := accepted_cases hb
    · cases hq.symm.trans hp
      refine ⟨by omega, fun hsame => ?_⟩
      obtain ⟨hid', hfirst⟩ := hstored (by omega) (by omega)
      refine ⟨hid'.symm.trans hid, fun h => ?_⟩
      have := hfirst h
      omega
    · have := hlarger p hp
      exact ⟨by omega, by omega⟩

end Bmux.Worker
