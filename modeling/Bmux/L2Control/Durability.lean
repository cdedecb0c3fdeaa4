import Bmux.L2Control.Nested
import Bmux.L2Control.Limits

/-!
# Every call keeps a state durable

`Durable` is an invariant of the state machine under the conditions
`SnapshotSafe` puts on a call. The records come from validated commands, the
responses carry bounded texts, the floors and the histories only grow. What
is excluded are the calls whose trace a snapshot cannot hold: a command of
another schema version or one whose encoding exceeds a byte field (both are
recorded and written, but not read back), a `PutTab` that separates a pane
from its tab, and a feature activation rejected before any was accepted (its
outcome is not written at all).
-/
namespace Bmux.Control
open Std Canonical Wire ControlState
open TreeMap (All)

/-! ## What a call does outside the records and the tables -/

structure SameAuthority (s s' : ControlState) : Prop where
  schema : s'.schemaVersion = s.schemaVersion
  readFloor : s'.readSchemaFloor = s.readSchemaFloor
  writeFloor : s'.writeSchemaFloor = s.writeSchemaFloor
  features : s'.activatedFeatures = s.activatedFeatures
  bootstrap : s'.principalBootstrap = s.principalBootstrap
  history : s'.publicationHistory = s.publicationHistory
  refreshes : s'.refreshOutcomes = s.refreshOutcomes

theorem SameAuthority.refl (s : ControlState) : SameAuthority s s := ⟨rfl, rfl, rfl, rfl, rfl, rfl, rfl⟩

/-- Each of the other entry points writes one of them. -/
inductive AuthorityEffect (env : Env) (s : ControlState) : Op → ControlState → Prop where
  | same {op : Op} {s' : ControlState} (same : SameAuthority s s') : AuthorityEffect env s op s'
  | activate {c : FeatureActivationCommand} {m : Option StoredMembership} {rev : UInt64}
      {table : ExtTreeMap DedupKey FeatureDedupRecord compare} (accepted : featureCheck env s c m = .ok ())
      (valid : validateFeature c = .ok ()) (next : checkedSucc s.revision = some rev) :
      AuthorityEffect env s (.feature c m) { s with
        readSchemaFloor := c.readSchemaFloor
        writeSchemaFloor := c.writeSchemaFloor
        activatedFeatures := s.activatedFeatures.insert c.feature
        revision := rev
        featureDedup := table }
  | publish {c : PublicationCommand} {m : StoredMembership} {rev : UInt64} (encodes : Writes c.encode)
      (unmatched : matchHistory c.reports s.publicationHistory = none)
      (capacity : s.publicationHistory.length < 64)
      (bridge : verifyBridge env c.reports s.members m s.clusterId c.verifiedAtUnixMs = .ok ())
      (revisions : c.reports.forM (checkReportRevision s.publicationHistory) = .ok ())
      (next : checkedSucc s.revision = some rev) :
      AuthorityEffect env s (.publication c m)
        { s with publicationHistory := s.publicationHistory ++ [(c, rev)], revision := rev }
  | refresh {c : ProtocolRefreshCommand} {rev : UInt64} {digest : Digest} {m : ClusterMember}
      (named : c.commandId ≠ 0) (guard : RefreshGuard s c m) (next : checkedSucc s.revision = some rev) :
      AuthorityEffect env s (.refresh c) { s with
        members := s.members.insert c.replacement.nodeId c.replacement
        revision := rev
        refreshOutcomes := s.refreshOutcomes.insert c.commandId (digest, rev) }
  | bootstrap {c : BootstrapCommand} {m : StoredMembership} {rev : UInt64} {payload : Bytes}
      (signed : bootstrapSigningPayload env c.proof.statement = .ok payload)
      (floors : ¬ (s.readSchemaFloor < 3 ∨ s.writeSchemaFloor < 3)) (next : checkedSucc s.revision = some rev) :
      AuthorityEffect env s (.bootstrap c m) { s with
        principalBootstrap := some ⟨c.proof.statement.principalId, c.proof.statement.principalPublicKey,
          c.proof.statement.commandId.value, env.sha256 payload, rev⟩
        revision := rev }

section
variable {env : Env} {s s' n : ControlState} {op : Op} {o : ApplyOutcome} {c : ControlCommand}

theorem apply_same {r : ControlResponse} (h : apply env s c = some (s', r)) : SameAuthority s s' := by
  obtain ⟨_, _, ⟨_, _, rfl, _⟩ | ⟨_, next, hran, rfl⟩⟩ := apply_cases h
  · exact .refl _
  · cases hran with
    | rejected | unchanged => exact ⟨rfl, rfl, rfl, rfl, rfl, rfl, rfl⟩
    | changed _ arm => rw [arm.frame]; exact ⟨rfl, rfl, rfl, rfl, rfl, rfl, rfl⟩

theorem step_authority (h : step env s op = some s') : AuthorityEffect env s op s' := by
  cases step_stepped h with
  | same => exact .same (.refl _)
  | command applied => exact .same (apply_same applied)
  | feature valid settled =>
    rcases settleFeature_cases settled with ⟨_, _, _, rfl⟩ | ⟨rev, hok, hrev, _, rfl⟩
    · exact .same ⟨rfl, rfl, rfl, rfl, rfl, rfl, rfl⟩
    · exact .activate hok valid hrev
  | publication encodes unmatched capacity bridge revisions next =>
      exact .publish encodes unmatched capacity bridge revisions next
  | refresh signed next guard => exact .refresh (protocolRefreshPayload_ok signed).2 guard next
  | bootstrap signed next floors => exact .bootstrap signed floors next

/-! ## The invariant, part by part -/

theorem featureCheck_ok {c : FeatureActivationCommand} {m : Option StoredMembership}
    (h : featureCheck env s c m = .ok ()) : c.feature ≠ "" ∧ s.readSchemaFloor ≤ c.readSchemaFloor ∧
      s.writeSchemaFloor ≤ c.writeSchemaFloor ∧ c.readSchemaFloor ≤ c.writeSchemaFloor ∧
      CONTROL_SCHEMA_VERSION < c.writeSchemaFloor := by
  obtain ⟨_, hv, _⟩ := bind_eq_ok.mp h
  simp only [validateFeatureActivation, bind_eq_ok, require_ok] at hv
  obtain ⟨_, _, _, hcheck, _⟩ := hv
  simp only [not_or, UInt16.not_lt, UInt16.not_le, gt_iff_lt] at hcheck
  obtain ⟨hname, hread, hwrite, hord, hraised⟩ := hcheck
  refine ⟨fun hempty => hname ?_, hread, hwrite, hord, hraised⟩
  rw [hempty]
  rfl

/-- What the later of two states has of the authority of the earlier one. -/
structure Grows (s s' : ControlState) : Prop where
  cluster : s'.clusterId = s.clusterId
  revision : s.revision ≤ s'.revision
  readFloor : s.readSchemaFloor ≤ s'.readSchemaFloor
  writeFloor : s.writeSchemaFloor ≤ s'.writeSchemaFloor
  features : ∀ f ∈ s.activatedFeatures, f ∈ s'.activatedFeatures
  history : s.publicationHistory <+: s'.publicationHistory

/-- Authority is only ever added to. -/
theorem step_grows (h : step env s op = some s') : Grows s s' := by
  obtain ⟨hcluster, hrev⟩ := (step_effect h).later
  cases step_authority h with
  | same same =>
    exact ⟨hcluster, hrev, same.readFloor ▸ UInt16.le_refl _, same.writeFloor ▸ UInt16.le_refl _,
      fun f hf => same.features ▸ hf, same.history ▸ List.prefix_rfl⟩
  | activate accepted =>
    obtain ⟨_, hread, hwrite, _⟩ := featureCheck_ok accepted
    exact ⟨hcluster, hrev, hread, hwrite, fun f hf => ExtTreeSet.mem_insert.mpr (.inr hf), List.prefix_rfl⟩
  | publish => exact ⟨hcluster, hrev, UInt16.le_refl _, UInt16.le_refl _, fun _ hf => hf, List.prefix_append _ _⟩
  | refresh | bootstrap => exact ⟨hcluster, hrev, UInt16.le_refl _, UInt16.le_refl _, fun _ hf => hf, List.prefix_rfl⟩

/-- **Authority is not taken back**, by whatever calls in whatever order. -/
theorem authority_grows {ok : ControlState → Op → Prop} (h : Run (step env) ok s s') : Grows s s' := by
  refine h.invariant (I := Grows s) ?_ ⟨rfl, UInt64.le_refl _, UInt16.le_refl _, UInt16.le_refl _, fun _ hf => hf,
    List.prefix_rfl⟩
  intro t op t' ht _ hstep
  have hnext := step_grows hstep
  exact ⟨hnext.cluster.trans ht.cluster, UInt64.le_trans ht.revision hnext.revision,
    UInt16.le_trans ht.readFloor hnext.readFloor,
    UInt16.le_trans ht.writeFloor hnext.writeFloor, fun f hf => hnext.features f (ht.features f hf),
      ht.history.trans hnext.history⟩

variable {clusterId : String} {r : PrincipalBootstrapRecord}

theorem validateBootstrapRecord_ok {revision : UInt64} :
    validateBootstrapRecord env r revision = .ok () ↔ ∃ key, env.parsePublicKey r.publicKey = .ok key ∧
      env.displayPublicKey key = r.publicKey ∧ r.principalId ≠ 0 ∧ r.commandId ≠ 0 ∧
      r.committedRevision ≠ 0 ∧ r.committedRevision ≤ revision := by
  unfold validateBootstrapRecord
  cases env.parsePublicKey r.publicKey with
  | error e => simp
  | ok key =>
    simp only [Except.ok.injEq, exists_eq_left']
    split
    · rename_i hcheck
      refine iff_of_false (by simp) fun ⟨h1, h2, h3, h4, h5⟩ => ?_
      rcases hcheck with hc | hc | hc | hc | hc
      · exact hc h1
      · exact h2 hc
      · exact h3 hc
      · exact h4 hc
      · exact absurd h5 (UInt64.not_le.mpr hc)
    · rename_i hcheck
      simp only [not_or, not_not, gt_iff_lt, UInt64.not_lt] at hcheck
      exact iff_of_true rfl hcheck

theorem PrincipalBootstrapRecord.Durable.later (h : r.Durable env s)
    (hrev : s.revision ≤ s'.revision) (hread : s.readSchemaFloor ≤ s'.readSchemaFloor)
    (hwrite : s.writeSchemaFloor ≤ s'.writeSchemaFloor) : r.Durable env s' := by
  obtain ⟨key, hkey, hdisplay, hprincipal, hcommand, hzero, hle⟩ := validateBootstrapRecord_ok.mp h.valid
  refine ⟨validateBootstrapRecord_ok.mpr ?_, h.key, fun hlow => h.floors ?_⟩
  · exact ⟨key, hkey, hdisplay, hprincipal, hcommand, hzero, UInt64.le_trans hle hrev⟩
  · exact hlow.imp (UInt16.lt_of_le_of_lt hread) (UInt16.lt_of_le_of_lt hwrite)

theorem ControlState.RefreshesFit.later (hs : s.RefreshesFit) (hsame : s'.refreshOutcomes = s.refreshOutcomes)
    (hrev : s.revision ≤ s'.revision) : s'.RefreshesFit := by
  refine ⟨hsame ▸ hs.bounded, fun id o ho => ?_⟩
  rw [hsame] at ho
  have hold := hs.outcomes id o ho
  simp only [not_or, gt_iff_lt, UInt64.not_lt] at hold ⊢
  exact ⟨hold.1, hold.2.1, UInt64.le_trans hold.2.2 hrev⟩

structure Governed (env : Env) (s : ControlState) : Prop where
  schema : s.schemaVersion = CONTROL_SCHEMA_VERSION
  floors : s.FloorsFit
  bootstrap : ∀ r, s.principalBootstrap = some r → r.Durable env s
  refreshes : s.RefreshesFit
  history : HistoryInv s

theorem Governed.same (hs : Governed env s) (same : SameAuthority s s') (hcluster : s'.clusterId = s.clusterId)
    (hrev : s.revision ≤ s'.revision) : Governed env s' where
  schema := same.schema.trans hs.schema
  floors := by
    refine ⟨?_, ?_, ?_, ?_⟩
    · rw [same.readFloor]; exact hs.floors.low
    · rw [same.readFloor, same.writeFloor]; exact hs.floors.ordered
    · rw [same.features, same.writeFloor]; exact hs.floors.raised
    · rw [same.features]; exact hs.floors.features
  bootstrap r hr := by
    rw [same.bootstrap] at hr
    refine (hs.bootstrap r hr).later hrev ?_ ?_
    · simp [same.readFloor]
    · rw [same.writeFloor]; exact UInt16.le_refl _
  refreshes := hs.refreshes.later same.refreshes hrev
  history := hs.history.later same.history hcluster hrev

/-- Every call keeps what a snapshot needs outside the records. -/
theorem step_governed (henv : env.TextsFit) (h : step env s op = some s') (hs : Governed env s) : Governed env s' := by
  obtain ⟨hcluster, hrev⟩ := (step_effect h).later
  cases step_authority h with
  | same same => exact hs.same same hcluster hrev
  | activate accepted valid _ =>
    obtain ⟨hname, hread, hwrite, hord, hraised⟩ := featureCheck_ok accepted
    refine ⟨hs.schema, ⟨UInt16.le_trans hs.floors.low hread, hord, fun _ heq => ?_, fun f hf => ?_⟩,
      fun r hr => (hs.bootstrap r hr).later hrev hread hwrite, hs.refreshes.later rfl hrev,
        hs.history.later rfl hcluster hrev⟩
    · exact absurd (heq ▸ hraised) (UInt16.lt_irrefl _)
    · rw [ExtTreeSet.mem_insert, Std.compare_eq_iff_eq] at hf
      rcases hf with rfl | hf
      · exact ⟨hname, validateString_ok.mp (both_ok.mp valid).2⟩
      · exact hs.floors.features f hf
  | publish encodes unmatched capacity bridge revisions next =>
    refine ⟨hs.schema, { hs.floors with }, fun r hr => ?_, hs.refreshes.later rfl hrev,
      hs.history.append encodes unmatched capacity bridge revisions next⟩
    exact (hs.bootstrap r hr).later hrev (UInt16.le_refl _) (UInt16.le_refl _)
  | @refresh c rev digest _ named guard next =>
    refine ⟨hs.schema, { hs.floors with }, fun r hr => ?_, ⟨?_, All.insert ?_ ?_⟩, hs.history.later rfl hcluster hrev⟩
    · exact (hs.bootstrap r hr).later hrev (UInt16.le_refl _) (UInt16.le_refl _)
    · have hcapacity := guard.capacity
      have hsize : (s.refreshOutcomes.insert c.commandId (digest, rev)).size ≤ s.refreshOutcomes.size + 1 :=
        ExtTreeMap.size_insert_le
      exact hsize.trans (by omega)
    · have hfits : { s with revision := rev }.RefreshesFit := hs.refreshes.later rfl hrev
      exact hfits.outcomes
    · simp only [not_or]
      exact ⟨named, ne_zero_of_checkedSucc next, UInt64.lt_irrefl _⟩
  | bootstrap signed floors next =>
    refine ⟨hs.schema, { hs.floors with }, fun r hr => ?_, hs.refreshes.later rfl hrev,
      hs.history.later rfl hcluster hrev⟩
    cases hr
    simp only [bootstrapSigningPayload, bind_eq_ok, ensure_ok, exists_const] at signed
    obtain ⟨⟨_, _, _, hprincipal, hcommand⟩, signed⟩ := signed
    split at signed
    · cases signed
    · rename_i key hkey
      simp only [bind_eq_ok, ensure_ok, exists_const] at signed
      obtain ⟨hdisplay, _⟩ := signed
      refine ⟨validateBootstrapRecord_ok.mpr ?_, hdisplay ▸ henv.publicKey key, floors⟩
      exact ⟨key, hkey, hdisplay, hprincipal, hcommand, ne_zero_of_checkedSucc next, UInt64.le_refl _⟩

/-! ## The deduplication tables -/

theorem valid_of_step {c : ControlCommand} (h : step env s (.command c) = some s') :
    validateCommand c = .ok () := by
  simp only [step, Option.map_eq_some_iff] at h
  obtain ⟨⟨_, r⟩, ha, _⟩ := h
  obtain ⟨fp, hfp, _⟩ := apply_cases ha
  exact requestFingerprint_ok hfp

theorem apply_storable (henv : env.TextsFit) {r : ControlResponse} (h : apply env s c = some (s', r))
    (hn : s.dedup[dedupKey c]? = none) : r.Storable c.commandId := by
  obtain ⟨fp, hfp, ⟨e, he, _⟩ | ⟨_, next, hran, _⟩⟩ := apply_cases h
  · rw [hn] at he; cases he
  · cases hran with
    | rejected error => exact ⟨rfl, rfl, commandOutcome_errors henv (requestFingerprint_ok hfp) _ error⟩
    | unchanged | changed => exact ⟨rfl, rfl, zero_le⟩

theorem settleFeature_storable {c : FeatureActivationCommand} {fp : Digest} {r : ControlResponse}
    {check : Except ControlCommandError Unit} (hcheck : ErrorsFit check)
    (h : settleFeature s c fp check = some (s', r)) : r.Storable c.commandId := by
  rcases settleFeature_cases h with ⟨e, he, rfl, _⟩ | ⟨_, _, _, rfl, _⟩
  · exact ⟨rfl, rfl, hcheck e he⟩
  · exact ⟨rfl, rfl, zero_le⟩

/-- The calls a snapshot can hold. -/
structure SnapshotSafe (env : Env) (s : ControlState) (op : Op) : Prop where
  /-- A command that runs has the schema version the decoder reads, and its
  encoding fits a byte field. -/
  command : ∀ c, op = .command c → s.dedup[dedupKey c]? = none →
    c.schemaVersion = CONTROL_SCHEMA_VERSION ∧ size (encodeControlCommand c : Put StateCodecError) ≤ MAX_BYTES
  /-- No tab is taken away from its panes. -/
  tab : ¬ MovesOccupiedTab s op
  /-- A feature activation that runs is accepted, unless one was before. -/
  feature : ∀ c m, op = .feature c m → s.featureDedup[featureKey c]? = none →
    s.advanced = true ∨ featureCheck env s c m = .ok ()

theorem DedupRecord.Durable.completed {k : DedupKey} {r : DedupRecord} {b : Bytes} (h : r.Durable k)
    (hb : b.length ≤ MAX_BYTES) : (r.after (some b)).Durable k := by
  refine ⟨h.key, h.schema, h.valid, h.fits, ?_⟩
  obtain ⟨hid, hschema, hlimits⟩ := h.response
  unfold DedupRecord.after ControlResponse.after
  simp only
  split
  · exact ⟨hid, hschema, hb⟩
  · exact ⟨hid, hschema, hlimits⟩

theorem step_dedup (henv : env.TextsFit) (h : step env s op = some s') (hs : All DedupRecord.Durable s.dedup)
    (hsafe : SnapshotSafe env s op) : All DedupRecord.Durable s'.dedup := by
  refine step_dedup_all h hs ?_ ?_
  · intro c fp r hop ha hn hfp
    obtain ⟨hschema, hfits⟩ := hsafe.command c hop hn
    exact ⟨rfl, hschema, requestFingerprint_ok hfp, hfits, apply_storable henv ha hn⟩
  · intro c id b k r hop hreq hr
    subst hop
    have hvalid := (both_ok.mp (valid_of_step h)).2
    rw [hreq] at hvalid
    exact hr.completed (validateBytes_ok.mp hvalid)

theorem step_featureDedup (h : step env s op = some s') (hs : All FeatureDedupRecord.Durable s.featureDedup) :
    All FeatureDedupRecord.Durable s'.featureDedup := by
  exact step_featureDedup_all h hs fun c m fp r hop hvalid hr =>
    ⟨rfl, hvalid, settleFeature_storable (featureCheck_errors c m) hr⟩

theorem advanced_congr (h : SameAuthority s s') : s'.advanced = s.advanced := by
  unfold advanced
  rw [h.readFloor, h.writeFloor, h.features]

/-- The outcomes of activations are written as soon as there are any. -/
theorem step_kept (h : step env s op = some s') (hs : s.advanced = true ∨ s.featureDedup = ∅)
    (hsafe : SnapshotSafe env s op) : s'.advanced = true ∨ s'.featureDedup = ∅ := by
  cases step_stepped h with
  | same | publication | refresh | bootstrap => exact hs
  | command applied =>
    rcases hs with hadv | hempty
    · exact .inl ((advanced_congr (apply_same applied)).trans hadv)
    · refine .inr (TreeMap.All.eq_empty (step_featureDedup_all h (by rw [hempty]; exact All.empty) ?_))
      intro _ _ _ _ hop
      cases hop
  | @feature c _ _ _ _ valid settled =>
    left
    rcases settleFeature_cases settled with ⟨e, he, _, rfl⟩ | ⟨_, accepted, _, _, rfl⟩
    · by_contra hadv
      have hok := (hsafe.feature _ _ rfl (by rw [hs.resolve_left hadv]; simp)).resolve_left hadv
      cases hok.symm.trans he
    · obtain ⟨_, _, _, _, hraised⟩ := featureCheck_ok accepted
      have hne : c.writeSchemaFloor ≠ CONTROL_SCHEMA_VERSION := (UInt16.ne_of_lt hraised).symm
      simp [advanced, hne]

/-! ## Runs -/

theorem durable_new (h : (utf8 clusterId).length ≤ MAX_STRING_BYTES) : Durable env (.new clusterId) where
  schema := rfl
  cluster := h
  floors := ⟨UInt16.le_refl _, UInt16.le_refl _, by simp [new], by simp [new]⟩
  records := (new_referential clusterId).records
  agree := (new_referential clusterId).agree
  valid := ⟨All.empty, All.empty, All.empty, All.empty⟩
  dedup := All.empty
  featureDedup := All.empty
  kept := .inr rfl
  bootstrap := by simp [new]
  refreshes := ⟨by simp [new], All.empty⟩
  history := historyInv_new clusterId

theorem step_durable (henv : env.TextsFit) (h : step env s op = some s') (hs : Durable env s)
    (hsafe : SnapshotSafe env s op) : Durable env s' :=
  { step_governed henv h { hs with } with
    cluster := by rw [show s'.clusterId = _ from (step_effect h).later.1]; exact hs.cluster
    records := (step_effect h).wellFormed hs.records
    agree := (step_effect h).agree hs.records hs.agree hsafe.tab
    valid := (step_effect h).valid hs.valid
    dedup := step_dedup henv h hs.dedup hsafe
    featureDedup := step_featureDedup h hs.featureDedup
    kept := step_kept h hs.kept hsafe }

/-- In every run of calls a snapshot can hold, every state reached that fits
its wrapper is written without a panic, and read back whole. -/
theorem snapshot_of_runs (henv : env.TextsFit) (hcluster : (utf8 clusterId).length ≤ MAX_STRING_BYTES)
    (hrun : Run (step env) (SnapshotSafe env) (.new clusterId) s) (hfit : NestedFits env s) :
    encodeSnapshot env s ≠ .error .panicked ∧
      ∀ b, encodeSnapshot env s = .ok b → decodeSnapshot env b = .ok s := by
  have hdurable : Durable env s := hrun.invariant (I := Durable env)
    (fun _ _ _ hs hsafe h => step_durable henv h hs hsafe) (durable_new hcluster)
  exact restores hdurable hfit

end

namespace Sample

def stored (s : ControlState) : Bytes := (encodeSnapshot env s).toOption.getD []

variable {s : ControlState}

theorem encode_stored (h : (encodeSnapshot env s).isOk = true) : encodeSnapshot env s = .ok (stored s) := by
  unfold stored
  cases hs : encodeSnapshot env s with
  | error e => rw [hs] at h; cases h
  | ok b => rfl

theorem textsFit : env.TextsFit :=
  ⟨fun _ _ _ h => (by cases h), fun _ _ h => (by cases h), fun _ =>
    (by decide : (utf8 "key").length ≤ MAX_STRING_BYTES)⟩

theorem safe_command {c : ControlCommand} (hschema : c.schemaVersion = 1)
    (hsize : size (encodeControlCommand c : Put StateCodecError) ≤ MAX_BYTES)
    (htab : ¬ MovesOccupiedTab s (.command c)) : SnapshotSafe env s (.command c) where
  command := by
    intro d hd _
    cases hd
    exact ⟨hschema, hsize⟩
  tab := htab
  feature := by
    intro d m hd
    cases hd

theorem onePane_grows : Grows (.new "c") onePaneState :=
  authority_grows (Run.of_foldlM (foldlM_after (by decide +kernel)) fun _ _ => trivial)

/-- A workspace with a tab and a pane survives a snapshot. -/
theorem onePane_restored : ∃ b, encodeSnapshot env onePaneState = .ok b ∧
    decodeSnapshot env b = .ok onePaneState := by
  have h1 : Run (step env) (SnapshotSafe env) (.new "c") (after (.new "c") (ops [create 1])) := by
    refine (Run.refl _).tail (i := .command (command 1 (create 1))) (safe_command rfl (by decide +kernel) ?_) rfl
    rintro ⟨_, _, _, _, hop, _, hreq, _⟩
    cases hop
    cases hreq
  have h2 : Run (step env) (SnapshotSafe env) (.new "c")
      (after (.new "c") (ops [create 1, .putTab (tab 1 1) 1])) := by
    refine h1.tail (i := .command (command 2 (.putTab (tab 1 1) 1))) (safe_command rfl (by decide +kernel) ?_) rfl
    rintro ⟨_, _, _, t, hop, _, hreq, _, ht, _⟩
    cases hop
    obtain ⟨rfl, _⟩ := ControlCommandRequest.putTab.inj hreq
    cases ht
  have h3 : Run (step env) (SnapshotSafe env) (.new "c") onePaneState := by
    refine h2.tail (i := .command (command 3 (.putPane (pane 1 none) 2))) (safe_command rfl (by decide +kernel) ?_) rfl
    rintro ⟨_, _, _, _, hop, _, hreq, _⟩
    cases hop
    cases hreq
  have hfit : NestedFits env onePaneState := by
    rintro (h | h)
    · cases h
    · exact absurd rfl h
  have hok : encodeSnapshot env onePaneState = .ok (stored onePaneState) := encode_stored (by decide +kernel)
  exact ⟨_, hok, (snapshot_of_runs textsFit (by decide) h3 hfit).2 _ hok⟩

def rejectedActivation : Op := .feature ⟨"p", ⟨1⟩, 0, 0, 0, 0, ""⟩ none

def otherSchema : Op := .command ⟨2, "p", ⟨1⟩, 0, create 1⟩

def movedTab : List Op := ops (onePane ++ [create 2, .putTab (tab 1 2) 4])

/-- A snapshot is written, and it does not give the state back. -/
def Loses (s : ControlState) : Prop :=
  ∃ b, encodeSnapshot env s = .ok b ∧ decodeSnapshot env b ≠ .ok s

theorem loses_of_error (h : (encodeSnapshot env s).isOk = true) (hd : (decodeSnapshot env (stored s)).isOk = false) :
    Loses s := by
  refine ⟨_, encode_stored h, fun heq => ?_⟩
  rw [heq] at hd
  cases hd

theorem loses_of_table (h : (encodeSnapshot env s).isOk = true)
    (hd : (decodeSnapshot env (stored s)).toOption.map (fun t => t.featureDedup.size) ≠
      some s.featureDedup.size) : Loses s := by
  refine ⟨_, encode_stored h, fun heq => hd ?_⟩
  rw [heq]
  rfl

/-- A snapshot loses the state after a rejected activation, a command of another schema, or a tab moved. -/
theorem snapshot_loses_state :
    (Reachable env (after (.new "c") [rejectedActivation]) ∧ Loses (after (.new "c") [rejectedActivation])) ∧
    (Reachable env (after (.new "c") [otherSchema]) ∧ Loses (after (.new "c") [otherSchema])) ∧
    Reachable env (after (.new "c") movedTab) ∧ Loses (after (.new "c") movedTab) := by
  refine ⟨⟨reachable_after (by decide +kernel), loses_of_table (by decide +kernel) (by decide +kernel)⟩, ?_, ?_⟩
  · exact ⟨reachable_after (by decide +kernel), loses_of_error (by decide +kernel) (by decide +kernel)⟩
  · exact ⟨reachable_after (by decide +kernel), loses_of_error (by decide +kernel) (by decide +kernel)⟩

end Sample

end Bmux.Control
