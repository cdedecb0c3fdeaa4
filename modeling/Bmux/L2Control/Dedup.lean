import Bmux.L2Control.Effects

/-!
# Exactly-once application

The response of a command is recorded under its principal and command id.
`step_record` says what one call can do to the record of a key: leave it,
complete its workflow, or prune it; `record_after_run` follows a record
through a run.

Results:
* `reapply_after_run`: re-applying a command later returns its recorded
  response, completed by the first accepted `CompleteWorkflow` that names it,
  and leaves the state alone; another request under the same id is rejected.
* `conflict_response_moves`: a response that is itself a `CommandIdConflict`
  is not recorded, so a repetition reports the revision of the day.
-/
namespace Bmux.Control
open Std Canonical DedupRecord Option
open TreeMap (All)

/-! ## One call -/

section
variable {env : Env} {s s' n : ControlState} {o : ApplyOutcome} {c : ControlCommand} {k : DedupKey}

variable {op : Op}

theorem step_dedup_of_not_command (h : step env s op = some s')
    (hop : ∀ c, op ≠ .command c) : s'.dedup = s.dedup := by
  cases step_stepped h with
  | command => exact absurd rfl (hop _)
  | feature _ settled => rcases settleFeature_cases settled with ⟨_, _, _, rfl⟩ | ⟨_, _, _, _, rfl⟩ <;> rfl
  | same | publication | refresh | bootstrap => rfl

/-- A property of all ordinary records is kept if the new record of a command
has it and completions preserve it. -/
theorem step_dedup_all {P : DedupKey → DedupRecord → Prop} (h : step env s op = some s')
    (hall : All P s.dedup)
    (hnew : ∀ c fp r, op = .command c → apply env s c = some (s', r) → s.dedup[dedupKey c]? = none →
      requestFingerprint (ε := Unit) env.sha256 c = .ok fp →
      P (dedupKey c) ⟨fp, c.issuedAtUnixMs, c, r⟩)
    (hdone : ∀ c id b k r, op = .command c → c.request = .completeWorkflow id b → P k r →
      P k (r.after (some b))) : All P s'.dedup := by
  cases step_stepped h with
  | @command c _ r applied =>
    obtain ⟨fp, hfp, ⟨_, _, rfl, _⟩ | ⟨hn, next, hran, rfl⟩⟩ := apply_cases applied
    · exact hall
    · refine All.insert ?_ (hnew c fp r rfl applied hn hfp)
      cases hran with
      | rejected | unchanged => exact hall
      | changed _ arm =>
        cases arm.dedup with
        | same hs _ => rw [hs]; exact hall
        | completed hreq hfound _ hs _ =>
          rw [hs]; exact hall.insert (hdone c _ _ _ _ rfl hreq (hall _ _ hfound))
        | pruned _ hs _ => rw [hs]; exact hall.filter
  | same => exact hall
  | _ => rw [step_dedup_of_not_command h (by simp)]; exact hall

theorem step_featureDedup_all {P : DedupKey → FeatureDedupRecord → Prop}
    (h : step env s op = some s') (hall : All P s.featureDedup)
    (hnew : ∀ c m fp r, op = .feature c m → validateFeature c = .ok () →
      settleFeature s c fp (featureCheck env s c m) = some (s', r) → P (featureKey c) ⟨fp, c.issuedAtUnixMs, c, r⟩) :
    All P s'.featureDedup := by
  cases step_stepped h with
  | command applied =>
    obtain ⟨_, _, ⟨_, _, rfl, _⟩ | ⟨_, next, hran, rfl⟩⟩ := apply_cases applied
    · exact hall
    · cases hran with
      | rejected | unchanged => exact hall
      | changed _ arm =>
        cases arm.dedup with
        | same _ hs => rw [hs]; exact hall
        | completed _ _ _ _ hs => rw [hs]; exact hall
        | pruned _ _ hs => rw [hs]; exact hall.filter
  | feature valid settled =>
    have hrec := hnew _ _ _ _ rfl valid settled
    rcases settleFeature_cases settled with ⟨_, _, _, rfl⟩ | ⟨_, _, _, _, rfl⟩ <;> exact hall.insert hrec
  | same | publication | refresh | bootstrap => exact hall

/-- The payload of an accepted `CompleteWorkflow` for the workflow of key `k`,
if the call is one and is not answered from its own record. -/
def completion (env : Env) (k : DedupKey) (s : ControlState) : Op → Option Bytes
  | .command d =>
    match d.request with
    | .completeWorkflow id b =>
      if (⟨d.principalId, id.value⟩ : DedupKey) = k ∧ s.dedup[dedupKey d]? = none ∧
        (commandOutcome env s d).isOk = true then some b else none
    | _ => none
  | _ => none

def PrunesRecord (env : Env) (k : DedupKey) (s : ControlState) (op : Op) : Prop :=
  ∃ d t, op = .command d ∧ d.request = .pruneDedup t ∧ s.dedup[k]?.isSome = true ∧
    ∃ s', step env s op = some s' ∧ s'.dedup[k]? = none

variable {d : ControlCommand}

theorem completion_eq_some {b : Bytes} :
    completion env k s (.command d) = some b ↔ ∃ id, d.request = .completeWorkflow id b ∧
      (⟨d.principalId, id.value⟩ : DedupKey) = k ∧ s.dedup[dedupKey d]? = none ∧
      (commandOutcome env s d).isOk = true := by
  simp only [completion]
  split
  · rename_i id b' hr
    rw [hr]
    simp only [ite_none_right_eq_some, some.injEq,
      ControlCommandRequest.completeWorkflow.injEq]
    constructor
    · rintro ⟨h, rfl⟩; exact ⟨id, ⟨rfl, rfl⟩, h⟩
    · rintro ⟨_, ⟨rfl, rfl⟩, h⟩; exact ⟨h, rfl⟩
  · rename_i hr
    constructor
    · intro h; cases h
    · rintro ⟨id, hid, _⟩; exact absurd hid (hr id b)

variable {r : DedupRecord}

theorem completed_record {b : Bytes} {o : ApplyOutcome}
    (hc : completion env k s (.command d) = some b) (ho : commandOutcome env s d = .ok (n, o))
    (hk : s.dedup[k]? = some r) : n.dedup[k]? = some (r.after (some b)) := by
  obtain ⟨id, hreq, hkey, _⟩ := completion_eq_some.mp hc
  have ha := (commandOutcome_ok.mp ho).2
  rw [applyRequest, hreq] at ha
  obtain ⟨r', hr', hcases⟩ := completeWorkflow_ok ha
  rw [hkey, hk, some.injEq] at hr'
  subst hr'
  rcases hcases with ⟨hst, rfl, _⟩ | ⟨hst, _, rfl⟩
  · simp [after, ControlResponse.after, hst, hk]
  · have hpend : r.response.workflowStatus = .pending := by
      cases h : r.response.workflowStatus <;> simp_all
    simp [after, ControlResponse.after, hpend, hkey]

theorem kept_record (hc : completion env k s (.command d) = none)
    (ho : commandOutcome env s d = .ok (n, o)) (hd : s.dedup[dedupKey d]? = none) (hk : s.dedup[k]? = some r)
    (hkeep : ∀ t, d.request = .pruneDedup t → n.dedup[k]? ≠ none) : n.dedup[k]? = some r := by
  cases (applyRequest_arm (commandOutcome_ok.mp ho).2).dedup with
  | same hs _ => rw [hs, hk]
  | @completed id b _ hreq _ _ hs _ =>
    have hne : (⟨d.principalId, id.value⟩ : DedupKey) ≠ k := by
      intro hkey
      have := completion_eq_some.mpr ⟨id, hreq, hkey, hd, by rw [ho]; rfl⟩
      rw [hc] at this; cases this
    rw [hs, TreeMap.getElem?_insert, if_neg hne, hk]
  | @pruned t hreq hs _ =>
    have h := hkeep t hreq
    rw [hs, ExtTreeMap.getElem?_filter', hk] at h ⊢
    simp only [Option.filter] at h ⊢
    split
    · rfl
    · rename_i hf; simp [hf] at h

/-- A record that is not pruned stays, its workflow completed if the call does that. -/
theorem step_record (h : step env s op = some s')
    (hk : s.dedup[k]? = some r) (hkeep : ¬ PrunesRecord env k s op) :
    s'.dedup[k]? = some (r.after (completion env k s op)) := by
  cases op with
  | command d =>
    have hstep := h
    simp only [step, map_eq_some_iff] at h
    obtain ⟨⟨_, resp⟩, ha, rfl⟩ := h
    obtain ⟨_, _, ⟨e, hd, hsame, _⟩ | ⟨hd, next, hran, rfl⟩⟩ := apply_cases ha
    · -- answered from its own record: this is no completion
      rw [hsame]
      cases hc : completion env k s (.command d) with
      | none => exact hk
      | some b =>
        obtain ⟨_, _, _, hn, _⟩ := completion_eq_some.mp hc
        rw [hd] at hn; cases hn
    · have hne : dedupKey d ≠ k := by
        intro heq; rw [heq, hk] at hd; cases hd
      have hnp : ∀ t, d.request = .pruneDedup t → next.dedup[k]? ≠ none := by
        intro t hreq hnone
        refine hkeep ⟨d, t, rfl, hreq, by rw [hk]; rfl, _, hstep, ?_⟩
        rw [TreeMap.getElem?_insert, if_neg hne, hnone]
      rw [TreeMap.getElem?_insert, if_neg hne]
      cases hc : completion env k s (.command d) with
      | none =>
        cases hran with
        | rejected | unchanged => exact hk
        | changed ok =>
          have hkept := kept_record hc ok hd hk hnp
          exact hkept
      | some b =>
        cases hran with
        | rejected error =>
          obtain ⟨_, _, _, _, hok⟩ := completion_eq_some.mp hc
          rw [error] at hok; cases hok
        | unchanged ok | changed ok =>
          have hdone := completed_record hc ok hk
          exact hdone
  | feature | publication | refresh | bootstrap => rw [step_dedup_of_not_command h (by simp)]; exact hk

theorem prune_keeps_pending (hk : s.dedup[k]? = some r)
    (hp : r.response.workflowStatus = .pending) : ¬ PrunesRecord env k s op := by
  rintro ⟨d, t, rfl, hreq, _, s', hs, hnone⟩
  simp only [step, map_eq_some_iff] at hs
  obtain ⟨⟨_, resp⟩, ha, rfl⟩ := hs
  obtain ⟨_, _, ⟨_, _, rfl, _⟩ | ⟨_, next, hran, rfl⟩⟩ := apply_cases ha
  · rw [hk] at hnone; cases hnone
  · have hnext : next.dedup[k]? = some r := by
      cases hran with
      | rejected | unchanged => exact hk
      | changed ok =>
        have harm := (commandOutcome_ok.mp ok).2
        rw [applyRequest, hreq] at harm
        cases harm
        simp [hk, hp]
    rw [TreeMap.getElem?_insert] at hnone
    split at hnone
    · cases hnone
    · rw [hnext] at hnone; cases hnone

/-! ## Runs -/

/-- The first accepted completion of the workflow of `k` along a run. -/
def firstCompletion (env : Env) (k : DedupKey) : ControlState → List Op → Option Bytes
  | _, [] => none
  | s, op :: ops =>
    match completion env k s op with
    | some b => some b
    | none =>
      match step env s op with
      | some s' => firstCompletion env k s' ops
      | none => none

def KeepsRecord (env : Env) (k : DedupKey) : ControlState → List Op → Prop
  | _, [] => True
  | s, op :: ops => ¬ PrunesRecord env k s op ∧ ∀ s', step env s op = some s' → KeepsRecord env k s' ops

theorem DedupRecord.after_of_complete (h : r.response.workflowStatus = .complete)
    (b : Option Bytes) : r.after b = r := by
  cases b <;> simp [after, ControlResponse.after, h]

theorem DedupRecord.after_some_complete (r : DedupRecord) (b : Bytes) :
    (r.after (some b)).response.workflowStatus = .complete := by
  cases h : r.response.workflowStatus <;> simp [after, ControlResponse.after, h]

theorem record_after_run {ops : List Op} (hrun : ops.foldlM (step env) s = some s')
    (hk : s.dedup[k]? = some r) (hkeep : KeepsRecord env k s ops) :
    s'.dedup[k]? = some (r.after (firstCompletion env k s ops)) := by
  induction ops generalizing s r with
  | nil => cases hrun; exact hk
  | cons op ops ih =>
    obtain ⟨t, hs, hrun⟩ := Option.bind_eq_some_iff.mp hrun
    have ht := step_record hs hk hkeep.1
    have htail := ih hrun ht (hkeep.2 t hs)
    rw [htail]
    cases hc : completion env k s op with
    | some b =>
      rw [after_of_complete (r.after_some_complete b), firstCompletion, hc]
    | none => rw [firstCompletion.eq_2 env k s op ops]; simp only [hc, hs]; rfl

theorem keepsRecord_of_no_prune {ops : List Op}
    (h : ∀ d t, Op.command d ∈ ops → d.request ≠ .pruneDedup t) : KeepsRecord env k s ops := by
  induction ops generalizing s with
  | nil => trivial
  | cons op ops ih =>
    refine ⟨?_, fun s' _ => ih fun d t hmem => h d t (List.mem_cons_of_mem _ hmem)⟩
    rintro ⟨d, t, rfl, hreq, -⟩
    exact h d t List.mem_cons_self hreq

/-! ## Re-application -/

theorem apply_of_record {c : ControlCommand} {fp : Digest} {e : DedupRecord}
    (hfp : requestFingerprint (ε := Unit) env.sha256 c = .ok fp) (he : s.dedup[dedupKey c]? = some e) :
    apply env s c = some (s, if e.fingerprint = fp then e.response
      else errorResponse s c.commandId .commandIdConflict) := by
  simp only [apply, hfp, he]
  split <;> rfl

/-- After a command, its key has a record; unless the answer was a conflict,
the record holds that answer. -/
theorem recorded_of_apply {c : ControlCommand} {r : ControlResponse} (h : apply env s c = some (s', r)) :
    ∃ fp e, requestFingerprint (ε := Unit) env.sha256 c = .ok fp ∧ s'.dedup[dedupKey c]? = some e ∧
      (r.result ≠ .rejected .commandIdConflict → e.fingerprint = fp ∧ e.response = r) := by
  obtain ⟨fp, hfp, ⟨e, he, rfl, hr⟩ | ⟨_, _, _, rfl⟩⟩ := apply_cases h
  · refine ⟨fp, e, hfp, he, fun hne => ?_⟩
    split at hr
    · rename_i hf; exact ⟨hf, hr.symm⟩
    · subst hr; exact absurd rfl hne
  · exact ⟨fp, _, hfp, (TreeMap.getElem?_insert ..).trans (if_pos rfl), fun _ => ⟨rfl, rfl⟩⟩

/-- **Exactly-once application.** After `c` was answered with `r`, and after
any later run without a prune of its record, a command with the principal and
id of `c` leaves the state alone. If `r` is not itself a `CommandIdConflict`,
the same request is answered with `r`, its workflow completed by the first
completion accepted in between, and another request with `CommandIdConflict`.
No prune loses a pending workflow. -/
theorem reapply_after_run {c : ControlCommand} {r : ControlResponse} {s₁ s₂ : ControlState}
    {ops : List Op} (happ : apply env s c = some (s₁, r)) (hrun : ops.foldlM (step env) s₁ = some s₂)
    (hkeep : KeepsRecord env (dedupKey c) s₁ ops) :
    (∀ c' fp, dedupKey c' = dedupKey c → requestFingerprint (ε := Unit) env.sha256 c' = .ok fp →
      (∃ r', apply env s₂ c' = some (s₂, r')) ∧
      (r.result ≠ .rejected .commandIdConflict →
        (requestFingerprint (ε := Unit) env.sha256 c = .ok fp → apply env s₂ c' =
          some (s₂, r.after (firstCompletion env (dedupKey c) s₁ ops))) ∧
        (requestFingerprint (ε := Unit) env.sha256 c ≠ .ok fp → apply env s₂ c' =
          some (s₂, errorResponse s₂ c'.commandId .commandIdConflict)))) ∧
    ∀ (t : ControlState) (k : DedupKey) (e : DedupRecord) (op : Op), t.dedup[k]? = some e →
      e.response.workflowStatus = .pending → ¬ PrunesRecord env k t op := by
  refine ⟨fun c' fp hkey hfp => ?_, fun t k e op hk hp => prune_keeps_pending hk hp⟩
  obtain ⟨fp₀, e, hfp₀, he, hr⟩ := recorded_of_apply happ
  have h2 := record_after_run hrun he hkeep
  rw [← hkey] at h2
  have hap := apply_of_record hfp h2
  refine ⟨⟨_, hap⟩, fun hne => ?_⟩
  obtain ⟨hf, rfl⟩ := hr hne
  have hfe : (e.after (firstCompletion env (dedupKey c) s₁ ops)).fingerprint = fp₀ := hf
  rw [hkey, hfe] at hap
  rw [hfp₀, hap]
  refine ⟨fun heq => ?_, fun hneq => ?_⟩
  · rw [if_pos (Except.ok.inj heq)]; rfl
  · rw [if_neg fun heq => hneq (by rw [heq])]

end

/-! ## Concrete runs -/

namespace Sample

def completions : List Op :=
  [.command (command 11 (.completeWorkflow ⟨10⟩ [7])), .command (command 12 (.completeWorkflow ⟨10⟩ [8]))]

/-- A workflow is started and completed; its command is then sent again. -/
theorem reapply_completed : ∃ s₁ s₂,
    apply env onePaneState assign = some (s₁, ⟨1, ⟨10⟩, 4, .pending, .accepted []⟩) ∧
    completions.foldlM (step env) s₁ = some s₂ ∧
    apply env s₂ assign = some (s₂, ⟨1, ⟨10⟩, 4, .complete, .accepted [7]⟩) := by
  have happ : apply env onePaneState assign = some (after onePaneState [.command assign],
    ⟨1, ⟨10⟩, 4, .pending, .accepted []⟩) := rfl
  have hrun : completions.foldlM (step env) (after onePaneState [.command assign]) =
    some (after onePaneState (.command assign :: completions)) := rfl
  have hkeep : KeepsRecord env (dedupKey assign) (after onePaneState [.command assign]) completions := by
    refine keepsRecord_of_no_prune fun d t hmem => ?_
    simp only [completions, List.mem_cons, Op.command.injEq, List.not_mem_nil, or_false] at hmem
    rcases hmem with rfl | rfl <;> simp [command]
  exact ⟨_, _, happ, hrun,
    (((reapply_after_run happ hrun hkeep).1 assign _ rfl rfl).2 (by simp)).1 rfl⟩

/-- A command that conflicts with an earlier one has no record of its own:
sent again after one more command, it is answered with another revision. -/
theorem conflict_response_moves : ∃ s s₁ s₂ r r', Reachable env s ∧
    apply env s (command 1 (create 2)) = some (s₁, r) ∧
    step env s₁ (.command (command 2 (create 3))) = some s₂ ∧
    apply env s₂ (command 1 (create 2)) = some (s₂, r') ∧
    r.result = .rejected .commandIdConflict ∧ r.controlRevision = 1 ∧ r'.controlRevision = 2 := by
  refine ⟨after (.new "c") (ops [create 1]), after (.new "c") (ops [create 1]),
    after (.new "c") (ops [create 1, create 3]), _, _, ?_, rfl, rfl, rfl, rfl, rfl, rfl⟩
  exact reachable_after (by decide +kernel)

end Sample
end Bmux.Control
