import Bmux.L2Control.State
import Bmux.Core.TreeMap

/-!
# What one call can do to the records

The members, workspaces, tabs and panes of a control state, with its
revision, form its `Catalogue`. `Effect s op c'` lists every way a call can
change it, with the checks the source makes on that way; `step_effect` shows
that `step` does nothing else. The invariants and trace properties of the
records are proved from `Effect` alone, one case per command.
-/
namespace Bmux.Control
open Std Canonical TreeMap ApplyOutcome ControlState Option

/-! ## Inverting the checks -/

variable {u : Unit}

@[simp] theorem require_ok {p : Prop} [Decidable p] {e : ControlCommandError} :
    require p e = .ok u ↔ p := by
  unfold require; split <;> simp [*]

variable {s : ControlState}

@[simp] theorem armPure_ok {s' : ControlState} {o o' : ApplyOutcome} :
    (pure (s, o) : ArmResult) = .ok (s', o') ↔ s' = s ∧ o' = o := by
  simp [pure, Except.pure, eq_comm]

@[simp] theorem orError_ok {α : Type} {v : Option α} {e : ControlCommandError} {a : α} :
    orError v e = .ok a ↔ v = some a := by
  cases v <;> simp [orError]

@[simp] theorem requireRevision_ok {e c : UInt64} : requireRevision e c = .ok u ↔ e = c := require_ok

@[simp] theorem requireGeneration_ok {e c : UInt64} :
    requireGeneration e c = .ok u ↔ e = c := require_ok

@[simp] theorem workspace_ok {id : WorkspaceId} {w : WorkspaceRecord} :
    workspace s id = .ok w ↔ s.workspaces[id.value]? = some w := orError_ok

@[simp] theorem validateExecution_ok {p : LogicalPaneRecord} :
    validateExecution p = .ok u ↔ ∀ a, p.execution = some a → a.generation ≠ 0 := require_ok

@[simp] theorem requirePaneReferences_ok {p : LogicalPaneRecord} :
    requirePaneReferences s p = .ok u ↔ (∃ w, s.workspaces[p.workspaceId.value]? = some w) ∧
      ∃ t, s.tabs[p.tabId.value]? = some t ∧ t.workspaceId = p.workspaceId := by
  simp [requirePaneReferences, bind_eq_ok]

variable {n m : UInt64}

theorem checkedSucc_eq : checkedSucc n = some m ↔ n.toNat + 1 < 2 ^ 64 ∧ m = n + 1 := by
  unfold checkedSucc
  by_cases h : n.toNat + 1 < 2 ^ 64
  · rw [if_pos h, some.injEq]
    exact ⟨fun he => ⟨h, he.symm⟩, fun he => he.2.symm⟩
  · rw [if_neg h]
    exact ⟨fun he => (by cases he), fun he => absurd he.1 h⟩

theorem checkedSucc_toNat (h : checkedSucc n = some m) : m.toNat = n.toNat + 1 := by
  obtain ⟨hn, rfl⟩ := checkedSucc_eq.mp h
  rw [UInt64.toNat_add, UInt64.toNat_one]; omega

theorem lt_of_checkedSucc (h : checkedSucc n = some m) : n < m := by
  rw [UInt64.lt_iff_toNat_lt, checkedSucc_toNat h]; omega

theorem ne_zero_of_checkedSucc (h : checkedSucc n = some m) : m ≠ 0 := by
  rintro rfl
  exact absurd (lt_of_checkedSucc h) (UInt64.not_lt.mpr UInt64.zero_le)

section
variable {env : Env} {s s' : ControlState} {o : ApplyOutcome}

structure UpsertGuard (members : ExtTreeMap String ClusterMember compare) (member : ClusterMember) : Prop where
  endpointFree : ∀ e, member.endpoint = some e → ∀ (k : String) (m : ClusterMember),
    members[k]? = some m → m.nodeId ≠ member.nodeId → m.state = .active → m.endpoint ≠ some e
  voterEndpoint : member.endpoint = none → member.state = .active →
    member.capabilities.consensusRole ≠ .voter
  notReactivated : ∀ m, members[member.nodeId]? = some m → m.state ≠ .active → member.state ≠ .active
  sameProtocol : ∀ m, members[member.nodeId]? = some m → m.negotiatedProtocol = member.negotiatedProtocol
  newer : ∀ m, members[member.nodeId]? = some m → m = member ∨ m.updatedAtUnixMs < member.updatedAtUnixMs

variable {member : ClusterMember}

theorem checkEndpoint_ok (h : checkEndpoint env s member = .ok ()) :
    (∀ e, member.endpoint = some e → ∀ (k : String) (m : ClusterMember), s.members[k]? = some m →
      m.nodeId ≠ member.nodeId → m.state = .active → m.endpoint ≠ some e) ∧
    (member.endpoint = none → member.state = .active → member.capabilities.consensusRole ≠ .voter) := by
  unfold checkEndpoint at h
  split at h
  · rename_i endpoint he
    split at h
    · cases h
    · refine ⟨fun e hee k m hm hne hact hend => ?_, fun hn => by simp [he] at hn⟩
      rw [he] at hee
      cases hee
      exact require_ok.mp h ((exists_value
        (p := fun m => m.nodeId ≠ member.nodeId ∧ m.state = .active ∧ m.endpoint = some endpoint)).mpr
        ⟨k, m, hm, hne, hact, hend⟩)
  · rename_i hn
    refine ⟨fun e he => by simp [hn] at he, fun _ hact hrole => ?_⟩
    exact require_ok.mp h ⟨hact, hrole⟩

theorem checkExisting_ok {m : ClusterMember} (h : checkExisting s member = .ok ())
    (hm : s.members[member.nodeId]? = some m) : (m.state ≠ .active → member.state ≠ .active) ∧
      m.negotiatedProtocol = member.negotiatedProtocol ∧
      (m = member ∨ m.updatedAtUnixMs < member.updatedAtUnixMs) := by
  unfold checkExisting at h
  rw [hm] at h
  simp only [bind_eq_ok, require_ok] at h
  obtain ⟨_, hproto, _, _, _, hre, _, hold, hsame⟩ := h
  refine ⟨?_, hproto, ?_⟩
  · intro hin hact
    refine hre ⟨?_, hact⟩
    cases hs : m.state <;> simp_all
  · by_cases heq : m = member
    · exact .inl heq
    · right
      refine UInt64.lt_of_le_of_ne (UInt64.not_lt.mp hold) fun ht => hsame ⟨ht.symm, Ne.symm heq⟩

theorem upsertMember_ok {t : UInt64} (h : upsertMember env s member t = .ok (s', o)) :
    UpsertGuard s.members member ∧ member.clusterId = s.clusterId ∧
      s' = { s with members := s.members.insert member.nodeId member } ∧
      o = .complete (decide (s.members[member.nodeId]? ≠ some member)) := by
  simp only [upsertMember, bind_eq_ok, require_ok] at h
  obtain ⟨_, hc, _, _, _, he, _, hx, _, _, hr⟩ := h
  cases hr
  obtain ⟨h1, h2⟩ := checkEndpoint_ok he
  refine ⟨⟨h1, h2, ?_, ?_, ?_⟩, hc, rfl, rfl⟩
  · exact fun m hm => (checkExisting_ok hx hm).1
  · exact fun m hm => (checkExisting_ok hx hm).2.1
  · exact fun m hm => (checkExisting_ok hx hm).2.2

theorem setMemberState_ok {nodeId serial : String} {state : ClusterMemberState} :
    setMemberState s nodeId serial state = .ok (s', o) ↔ ∃ m, s.members[nodeId]? = some m ∧
      m.credentialSerial = serial ∧ validMemberTransition m.state state = true ∧
      s' = { s with members := s.members.insert nodeId { m with state } } ∧
      o = .complete (m.state ≠ state) := by
  simp only [setMemberState, bind_eq_ok, orError_ok, require_ok, armPure_ok, exists_const]

theorem createWorkspace_ok {id : WorkspaceId} {name : Option String} :
    createWorkspace s id name = .ok (s', o) ↔ s.workspaces[id.value]? = none ∧
      s' = { s with workspaces := s.workspaces.insert id.value ⟨id, name, 0⟩ } ∧ o = .complete true := by
  simp only [createWorkspace, bind_eq_ok, require_ok, armPure_ok, exists_const]

variable {r : UInt64}

theorem renameWorkspace_ok {id : WorkspaceId} {name : Option String} :
    renameWorkspace s id r name = .ok (s', o) ↔ ∃ w, s.workspaces[id.value]? = some w ∧
      r = w.revision ∧ s' = { s with workspaces := s.workspaces.insert id.value { w with name } } ∧
      o = .complete (w.name ≠ name) := by
  simp only [renameWorkspace, bind_eq_ok, workspace_ok, requireRevision_ok, armPure_ok, exists_const]

theorem putTab_ok {tab : LogicalTabRecord} :
    putTab s tab r = .ok (s', o) ↔ ∃ w, s.workspaces[tab.workspaceId.value]? = some w ∧
      r = w.revision ∧ s' = { s with tabs := s.tabs.insert tab.tabId.value tab } ∧
      o = .complete (decide (s.tabs[tab.tabId.value]? ≠ some tab)) := by
  simp only [putTab, bind_eq_ok, workspace_ok, requireRevision_ok, armPure_ok, exists_const]

theorem removeTab_ok {id : LogicalTabId} :
    removeTab s id r = .ok (s', o) ↔ ∃ t, s.tabs[id.value]? = some t ∧
      ∃ w, s.workspaces[t.workspaceId.value]? = some w ∧ r = w.revision ∧
      (¬ ∃ (k : Uuid) (p : LogicalPaneRecord), s.panes[k]? = some p ∧ p.tabId.value = id.value) ∧
      s' = { s with tabs := s.tabs.erase id.value } ∧ o = .complete true := by
  have hany := exists_value (m := s.panes) (p := fun p => p.tabId.value = id.value)
  simp only [removeTab, bind_eq_ok, orError_ok, workspace_ok, requireRevision_ok, require_ok,
    armPure_ok, hany, exists_const]

theorem putPane_ok {pane : LogicalPaneRecord} : putPane s pane r = .ok (s', o) ↔
      ∃ w, s.workspaces[pane.workspaceId.value]? = some w ∧ r = w.revision ∧
      (∃ t, s.tabs[pane.tabId.value]? = some t ∧ t.workspaceId = pane.workspaceId) ∧
      (∀ a, pane.execution = some a → a.generation ≠ 0) ∧
      s' = { s with panes := s.panes.insert pane.paneId.value pane } ∧
      o = .complete (decide (s.panes[pane.paneId.value]? ≠ some pane)) := by
  simp only [putPane, bind_eq_ok, requirePaneReferences_ok, workspace_ok, requireRevision_ok,
    validateExecution_ok, armPure_ok, exists_const]
  constructor
  · rintro ⟨⟨_, ht⟩, w, hw, hr, hx, hs, ho⟩
    exact ⟨w, hw, hr, ht, hx, hs, ho⟩
  · rintro ⟨w, hw, hr, ht, hx, hs, ho⟩
    exact ⟨⟨⟨w, hw⟩, ht⟩, w, hw, hr, hx, hs, ho⟩

variable {id : LogicalPaneId}

theorem removePane_ok {g : Option UInt64}
    (h : removePane s id r g = .ok (s', o)) : ∃ p, s.panes[id.value]? = some p ∧ r = p.revision ∧
      s' = { s with panes := s.panes.erase id.value } ∧ o = .complete true := by
  cases g <;>
    simp only [removePane, bind_eq_ok, orError_ok, requireRevision_ok, requireGeneration_ok,
      armPure_ok, exists_const] at h
  · obtain ⟨p, hp, hr, _, hs⟩ := h; exact ⟨p, hp, hr, hs⟩
  · obtain ⟨p, hp, hr, _, hs⟩ := h; exact ⟨p, hp, hr, hs⟩

def LogicalPaneRecord.assigned (p : LogicalPaneRecord) (a : ExecutionAssignment) : LogicalPaneRecord :=
  { p with execution := some a, availability := .pending, availabilityReason := none }

def LogicalPaneRecord.withAvailability (p : LogicalPaneRecord) (availability : PaneAvailability)
    (reason : Option String) : LogicalPaneRecord :=
  { p with availability, availabilityReason := reason }

theorem assignExecution_ok {g : UInt64} {a : ExecutionAssignment} {spec : Option WorkerLaunchSpec} :
    assignExecution s id r g a spec = .ok (s', o) ↔ spec.isSome = true ∧
      ∃ p, s.panes[id.value]? = some p ∧ r = p.revision ∧ g = paneGeneration p ∧
      ¬ a.generation ≤ paneGeneration p ∧
      s' = { s with panes := s.panes.insert id.value (p.assigned a) } ∧ o = .pending true := by
  simp only [assignExecution, bind_eq_ok, orError_ok, requireRevision_ok, requireGeneration_ok,
    require_ok, armPure_ok, exists_const]
  rfl

theorem setPaneAvailability_ok {a : ExecutionAssignment}
    {availability : PaneAvailability} {reason : Option String} :
    setPaneAvailability s id r a availability reason = .ok (s', o) ↔
      ∃ p, s.panes[id.value]? = some p ∧ r = p.revision ∧ p.execution = some a ∧
      s' = { s with panes := s.panes.insert id.value (p.withAvailability availability reason) } ∧
      o = .complete (decide (p.availability ≠ availability ∨ p.availabilityReason ≠ reason)) := by
  simp only [setPaneAvailability, bind_eq_ok, orError_ok, requireRevision_ok, require_ok,
    armPure_ok, exists_const]
  rfl

/-- What is left of `s` once the records and the revision are set aside is
all `CompleteWorkflow` and `PruneDedup` can touch. -/
theorem completeWorkflow_ok {principal : String} {id : CommandId} {b : Bytes}
    (h : completeWorkflow s principal id b = .ok (s', o)) :
    ∃ r, s.dedup[(⟨principal, id.value⟩ : DedupKey)]? = some r ∧
      ((r.response.workflowStatus = .complete ∧ s' = s ∧ o = .complete false) ∨
      (r.response.workflowStatus ≠ .complete ∧ o = .complete true ∧
        s' = { s with dedup := s.dedup.insert ⟨principal, id.value⟩ { r with response :=
          { r.response with workflowStatus := .complete, result := .accepted b } } })) := by
  simp only [completeWorkflow, bind_eq_ok, orError_ok] at h
  obtain ⟨r, hr, h⟩ := h
  refine ⟨r, hr, ?_⟩
  split at h
  · rename_i hc
    obtain ⟨rfl, rfl⟩ := armPure_ok.mp h
    exact .inl ⟨hc, rfl, rfl⟩
  · rename_i hc
    obtain ⟨rfl, rfl⟩ := armPure_ok.mp h
    exact .inr ⟨hc, rfl, rfl⟩

end

/-! ## Effects -/

/-- The records of a state, its cluster and its revision. -/
structure Catalogue where
  clusterId : String
  revision : UInt64
  members : ExtTreeMap String ClusterMember compare
  workspaces : ExtTreeMap Uuid WorkspaceRecord compare
  tabs : ExtTreeMap Uuid LogicalTabRecord compare
  panes : ExtTreeMap Uuid LogicalPaneRecord compare

def ControlState.catalogue (s : ControlState) : Catalogue :=
  ⟨s.clusterId, s.revision, s.members, s.workspaces, s.tabs, s.panes⟩

/-- What a request does to the records when it takes effect at revision `rev`. -/
inductive RequestEffect (c : Catalogue) (rev : UInt64) : ControlCommandRequest → Catalogue → Prop where
  | upsertMember {member : ClusterMember} (guard : UpsertGuard c.members member)
      (sameCluster : member.clusterId = c.clusterId) :
      RequestEffect c rev (.upsertMember member)
        { c with revision := rev, members := c.members.insert member.nodeId member }
  | setMemberState {nodeId serial : String} {state : ClusterMemberState} {m : ClusterMember}
      (found : c.members[nodeId]? = some m) (valid : validMemberTransition m.state state = true) :
      RequestEffect c rev (.setMemberState nodeId serial state)
        { c with revision := rev, members := c.members.insert nodeId { m with state } }
  | createWorkspace {id : WorkspaceId} {name : Option String} (free : c.workspaces[id.value]? = none) :
      RequestEffect c rev (.createWorkspace id name)
        { c with revision := rev, workspaces := c.workspaces.insert id.value ⟨id, name, rev⟩ }
  | renameWorkspace {id : WorkspaceId} {name : Option String} {w : WorkspaceRecord}
      (found : c.workspaces[id.value]? = some w) :
      RequestEffect c rev (.renameWorkspace id w.revision name)
        { c with revision := rev
                 workspaces := c.workspaces.insert id.value ⟨w.workspaceId, name, rev⟩ }
  | putTab {tab : LogicalTabRecord} {w : WorkspaceRecord}
      (found : c.workspaces[tab.workspaceId.value]? = some w)
      (differs : c.tabs[tab.tabId.value]? ≠ some tab) :
      RequestEffect c rev (.putTab tab w.revision)
        { c with revision := rev
                 tabs := c.tabs.insert tab.tabId.value (tab.withRevision rev)
                 workspaces := c.workspaces.insert tab.workspaceId.value (w.withRevision rev) }
  | removeTab {id : LogicalTabId} {t : LogicalTabRecord} {w : WorkspaceRecord}
      (found : c.tabs[id.value]? = some t) (inWorkspace : c.workspaces[t.workspaceId.value]? = some w)
      (empty : ¬ ∃ (k : Uuid) (p : LogicalPaneRecord), c.panes[k]? = some p ∧ p.tabId.value = id.value) :
      RequestEffect c rev (.removeTab id w.revision)
        { c with revision := rev, tabs := c.tabs.erase id.value }
  | putPane {pane : LogicalPaneRecord} {w : WorkspaceRecord} {t : LogicalTabRecord}
      (found : c.workspaces[pane.workspaceId.value]? = some w)
      (inTab : c.tabs[pane.tabId.value]? = some t) (sameWorkspace : t.workspaceId = pane.workspaceId)
      (generation : ∀ a, pane.execution = some a → a.generation ≠ 0)
      (differs : c.panes[pane.paneId.value]? ≠ some pane) :
      RequestEffect c rev (.putPane pane w.revision)
        { c with revision := rev
                 panes := c.panes.insert pane.paneId.value (pane.withRevision rev)
                 workspaces := c.workspaces.insert pane.workspaceId.value (w.withRevision rev) }
  | removePane {id : LogicalPaneId} {g : Option UInt64} {p : LogicalPaneRecord}
      (found : c.panes[id.value]? = some p) :
      RequestEffect c rev (.removePane id p.revision g)
        { c with revision := rev, panes := c.panes.erase id.value }
  | assignExecution {id : LogicalPaneId} {a : ExecutionAssignment} {spec : Option WorkerLaunchSpec}
      {p : LogicalPaneRecord} (found : c.panes[id.value]? = some p)
      (newer : paneGeneration p < a.generation) :
      RequestEffect c rev (.assignExecution id p.revision (paneGeneration p) a spec)
        { c with revision := rev
                 panes := c.panes.insert id.value ((p.assigned a).withRevision rev) }
  | setPaneAvailability {id : LogicalPaneId} {a : ExecutionAssignment}
      {availability : PaneAvailability} {reason : Option String} {p : LogicalPaneRecord}
      (found : c.panes[id.value]? = some p) (current : p.execution = some a) :
      RequestEffect c rev (.setPaneAvailability id p.revision a availability reason)
        { c with revision := rev
                 panes := c.panes.insert id.value ((p.withAvailability availability reason).withRevision rev) }
  | completeWorkflow {id : CommandId} {response : Bytes} :
      RequestEffect c rev (.completeWorkflow id response) { c with revision := rev }
  | pruneDedup {before : UInt64} : RequestEffect c rev (.pruneDedup before) { c with revision := rev }

/-- The command is run: it has no record yet and the supported schema. -/
def Fresh (s : ControlState) (command : ControlCommand) : Prop :=
  s.dedup[dedupKey command]? = none ∧ command.schemaVersion = CONTROL_SCHEMA_VERSION

/-- What a call does to the records of `s`. -/
inductive Effect (s : ControlState) : Op → Catalogue → Prop where
  /-- The records and the revision stay as they are. -/
  | same {op : Op} : Effect s op s.catalogue
  /-- Only the revision moves (features, publications, bootstrap). -/
  | bump {op : Op} {rev : UInt64} (other : ∀ command, op ≠ .command command)
      (next : checkedSucc s.revision = some rev) : Effect s op { s.catalogue with revision := rev }
  | request {command : ControlCommand} {r : ControlCommandRequest} {rev : UInt64} {c' : Catalogue}
      (fresh : Fresh s command) (request : command.request = r)
      (next : checkedSucc s.revision = some rev) (effect : RequestEffect s.catalogue rev r c')
      (valid : validateRequest r = .ok ()) : Effect s (.command command) c'
  /-- A protocol refresh replaces the record of an active member. -/
  | refresh {command : ProtocolRefreshCommand} {rev : UInt64} {m : ClusterMember}
      (next : checkedSucc s.revision = some rev)
      (found : s.members[command.replacement.nodeId]? = some m) (active : m.state = .active)
      (stays : command.replacement.state = .active) (sameEndpoint : m.endpoint = command.replacement.endpoint)
      (sameRole : m.capabilities = command.replacement.capabilities)
      (sameCluster : command.replacement.clusterId = s.clusterId)
      (valid : validateMember command.replacement = .ok ()) :
      Effect s (.refresh command)
        { s.catalogue with revision := rev
                           members := s.members.insert command.replacement.nodeId command.replacement }

/-! ## What the arms do -/

/-- A response once a completion was, or was not, accepted: only a pending
workflow is completed. -/
def ControlResponse.after (r : ControlResponse) : Option Bytes → ControlResponse
  | some b =>
    if r.workflowStatus = .pending then { r with workflowStatus := .complete, result := .accepted b }
    else r
  | none => r

def DedupRecord.after (r : DedupRecord) (b : Option Bytes) : DedupRecord :=
  { r with response := r.response.after b }

/-- What the command arms do to the deduplication tables. -/
inductive DedupChange (s : ControlState) (c : ControlCommand) (n : ControlState) : Prop where
  | same (ordinary : n.dedup = s.dedup) (feature : n.featureDedup = s.featureDedup)
  | completed {id : CommandId} {b : Bytes} {r : DedupRecord} (request : c.request = .completeWorkflow id b)
      (found : s.dedup[(⟨c.principalId, id.value⟩ : DedupKey)]? = some r)
      (pending : r.response.workflowStatus = .pending)
      (ordinary : n.dedup = s.dedup.insert ⟨c.principalId, id.value⟩ (r.after (some b)))
      (feature : n.featureDedup = s.featureDedup)
  | pruned {t : UInt64} (request : c.request = .pruneDedup t)
      (ordinary : n.dedup = s.dedup.filter fun _ r => r.response.workflowStatus = .pending ∨ r.issuedAtUnixMs ≥ t)
      (feature : n.featureDedup = s.featureDedup.filter fun _ r => r.issuedAtUnixMs ≥ t)

structure Arm (s : ControlState) (c : ControlCommand) (n : ControlState) (o : ApplyOutcome) : Prop where
  frame : n = { s with members := n.members, workspaces := n.workspaces, tabs := n.tabs, panes := n.panes
                       dedup := n.dedup, featureDedup := n.featureDedup }
  payload : o.payload = []
  dedup : DedupChange s c n
  unchanged : o.changed = false ↔ n = s
  effect : o.changed = true → ∀ rev, RequestEffect s.catalogue rev c.request
    (setChangedRecordRevisions { n with revision := rev } c.request).catalogue

/-- What the call of a command that was not seen before makes of the state and answers, before its
outcome is recorded. -/
inductive Ran (env : Env) (s : ControlState) (c : ControlCommand) : ControlState → ControlResponse → Prop where
  | rejected {e : ControlCommandError} (error : commandOutcome env s c = .error e) :
      Ran env s c s (errorResponse s c.commandId e)
  | unchanged {o : ApplyOutcome} (ok : commandOutcome env s c = .ok (s, o)) (changed : o.changed = false) :
      Ran env s c s ⟨CONTROL_SCHEMA_VERSION, c.commandId, s.revision, o.workflowStatus, .accepted []⟩
  | changed {n : ControlState} {o : ApplyOutcome} {rev : UInt64} {w t p} (ok : commandOutcome env s c = .ok (n, o))
      (arm : Arm s c n o) (changed : o.changed = true) (next : checkedSucc s.revision = some rev)
      (stamped : setChangedRecordRevisions { n with revision := rev } c.request =
        { n with revision := rev, workspaces := w, tabs := t, panes := p }) :
      Ran env s c { n with revision := rev, workspaces := w, tabs := t, panes := p }
        ⟨CONTROL_SCHEMA_VERSION, c.commandId, rev, o.workflowStatus, .accepted []⟩

/-! ## `step` has no other effect -/

section
variable {env : Env} {s n : ControlState} {o : ApplyOutcome}

variable {c : ControlCommand}

/-- An arm that accepts its request does what `Arm` says. -/
theorem applyRequest_arm (h : applyRequest env s c = .ok (n, o)) : Arm s c n o := by
  -- the arms that write records
  have hrecords : ∀ {members workspaces tabs panes changed st},
      (changed = false ↔ members = s.members ∧ workspaces = s.workspaces ∧ tabs = s.tabs ∧ panes = s.panes) →
      (changed = true → ∀ rev, RequestEffect s.catalogue rev c.request (setChangedRecordRevisions { s with
        members := members, workspaces := workspaces, tabs := tabs, panes := panes
        revision := rev } c.request).catalogue) →
      Arm s c { s with members := members, workspaces := workspaces, tabs := tabs, panes := panes }
        ⟨changed, st, []⟩ := by
    intro members workspaces tabs panes changed st hunchanged heffect
    refine ⟨rfl, rfl, .same rfl rfl, hunchanged.trans ⟨?_, fun heq => ?_⟩, heffect⟩
    · rintro ⟨rfl, rfl, rfl, rfl⟩; rfl
    · rw [← heq]; exact ⟨rfl, rfl, rfl, rfl⟩
  unfold applyRequest at h
  split at h
  all_goals
    rename_i hreq
    simp only [hreq, setChangedRecordRevisions, catalogue] at hrecords
  case h_1 =>
    obtain ⟨hg, hcl, rfl, rfl⟩ := upsertMember_ok h
    exact hrecords (by simp [insert_eq_self]) fun _ _ => .upsertMember hg hcl
  case h_2 =>
    obtain ⟨m, hm, _, hv, rfl, rfl⟩ := setMemberState_ok.mp h
    refine hrecords ?_ fun _ _ => .setMemberState hm hv
    cases m
    simp [insert_eq_self, hm]
  case h_3 =>
    obtain ⟨hf, rfl, rfl⟩ := createWorkspace_ok.mp h
    refine hrecords (by simp [insert_eq_self, hf]) fun _ _ => ?_
    rw [modify_insert]
    exact .createWorkspace hf
  case h_4 =>
    obtain ⟨w, hw, rfl, rfl, rfl⟩ := renameWorkspace_ok.mp h
    refine hrecords ?_ fun _ _ => ?_
    · cases w
      simp [insert_eq_self, hw]
    · rw [modify_insert]
      exact .renameWorkspace hw
  case h_5 =>
    obtain ⟨w, hw, rfl, rfl, rfl⟩ := putTab_ok.mp h
    refine hrecords (by simp [insert_eq_self]) fun hc _ => ?_
    rw [modify_insert, modify_of_some hw]
    exact .putTab hw (by simpa [complete] using hc)
  case h_6 =>
    obtain ⟨t, ht, w, hw, rfl, he, rfl, rfl⟩ := removeTab_ok.mp h
    exact hrecords (by simp [erase_ne ht]) fun _ _ => .removeTab ht hw he
  case h_7 =>
    obtain ⟨w, hw, rfl, ⟨t, ht, htw⟩, hg, rfl, rfl⟩ := putPane_ok.mp h
    refine hrecords (by simp [insert_eq_self]) fun hc _ => ?_
    rw [modify_insert, modify_of_some hw]
    exact .putPane hw ht htw hg (by simpa [complete] using hc)
  case h_8 =>
    obtain ⟨p, hp, rfl, rfl, rfl⟩ := removePane_ok h
    exact hrecords (by simp [erase_ne hp]) fun _ _ => .removePane hp
  case h_9 =>
    obtain ⟨_, p, hp, rfl, rfl, hg, rfl, rfl⟩ := assignExecution_ok.mp h
    have hnew := UInt64.not_le.mp hg
    refine hrecords ?_ fun _ _ => ?_
    · simp only [insert_eq_self, hp, some.injEq]
      refine iff_of_false (by simp) fun heq => ?_
      rw [heq.2.2.2] at hnew
      exact UInt64.lt_irrefl _ hnew
    · rw [modify_insert]
      exact .assignExecution hp hnew
  case h_10 =>
    obtain ⟨p, hp, rfl, hx, rfl, rfl⟩ := setPaneAvailability_ok.mp h
    refine hrecords ?_ fun _ _ => ?_
    · cases p
      simp [insert_eq_self, hp, LogicalPaneRecord.withAvailability]
    · rw [modify_insert]
      exact .setPaneAvailability hp hx
  case h_11 =>
    obtain ⟨r, hr, ⟨_, rfl, rfl⟩ | ⟨hp, rfl, rfl⟩⟩ := completeWorkflow_ok h
    · exact ⟨rfl, rfl, .same rfl rfl, by simp [complete], nofun⟩
    · have hpend : r.response.workflowStatus = .pending := by
        cases h : r.response.workflowStatus <;> simp_all
      refine ⟨rfl, rfl, .completed hreq hr hpend (by simp [DedupRecord.after, ControlResponse.after, hpend]) rfl, ?_,
        fun _ _ => ?_⟩
      · refine iff_of_false (by simp [complete]) fun heq => hp ?_
        have hrecord := insert_eq_self.mp (congrArg (·.dedup) heq)
        rw [hr] at hrecord
        rw [some.inj hrecord]
      · rw [hreq]
        exact .completeWorkflow
  case h_12 t =>
    cases h
    refine ⟨rfl, rfl, .pruned hreq rfl rfl, ?_, fun _ _ => ?_⟩
    · show decide ((s.dedup.filter _).size + (s.featureDedup.filter _).size ≠ s.dedup.size + s.featureDedup.size)
        = false ↔ { s with dedup := s.dedup.filter _, featureDedup := s.featureDedup.filter _ } = s
      rw [decide_eq_false_iff_not, not_not]
      refine ⟨fun hsize => ?_, fun heq => ?_⟩
      · obtain ⟨hdedup, hfeature⟩ := filter_eq_of_size hsize
        rw [hdedup, hfeature]
      · exact congrArg (fun s => s.dedup.size + s.featureDedup.size) heq
    · rw [hreq]
      exact .pruneDedup

theorem requestFingerprint_ok {fp : Digest} {f : Bytes → Digest}
    (h : requestFingerprint (ε := Unit) f c = .ok fp) : validateCommand c = .ok () := by
  rw [requestFingerprint, fingerprintInput] at h
  cases hv : validateCommand c with
  | ok u => rfl
  | error e => rw [hv] at h; cases h

theorem commandOutcome_ok {out : ControlState × ApplyOutcome} : commandOutcome env s c = .ok out ↔
      c.schemaVersion = CONTROL_SCHEMA_VERSION ∧ applyRequest env s c = .ok out := by
  unfold commandOutcome
  split <;> simp [*]

variable {s' : ControlState} {r : ControlResponse}

/-- A call of `apply` either finds the command's record and leaves the state
alone, or runs the command and records its response. -/
theorem apply_cases (h : apply env s c = some (s', r)) :
    ∃ fp, requestFingerprint (ε := Unit) env.sha256 c = .ok fp ∧
    ((∃ e, s.dedup[dedupKey c]? = some e ∧ s' = s ∧
      r = if e.fingerprint = fp then e.response else errorResponse s c.commandId .commandIdConflict) ∨
    s.dedup[dedupKey c]? = none ∧ ∃ next, Ran env s c next r ∧
      s' = { next with dedup := next.dedup.insert (dedupKey c) ⟨fp, c.issuedAtUnixMs, c, r⟩ }) := by
  unfold apply at h
  split at h
  · cases h
  · rename_i fp hfp
    refine ⟨fp, hfp, ?_⟩
    split at h
    · rename_i e he
      left
      split at h
      · rename_i hf; cases h; exact ⟨e, he, rfl, (if_pos hf).symm⟩
      · rename_i hf; cases h; exact ⟨e, he, rfl, (if_neg hf).symm⟩
    · rename_i hn
      simp only [map_eq_some_iff, recordOutcome, Prod.mk.injEq] at h
      obtain ⟨⟨next, st, res⟩, hs, rfl, rfl⟩ := h
      refine .inr ⟨hn, next, ?_, rfl⟩
      unfold settle at hs
      split at hs
      · rename_i e he
        cases hs
        exact .rejected he
      · rename_i n o ho
        have harm := applyRequest_arm (commandOutcome_ok.mp ho).2
        rw [harm.payload] at hs
        split at hs
        · rename_i hc
          simp only [map_eq_some_iff, Prod.mk.injEq] at hs
          obtain ⟨rev, hrev, rfl, rfl, rfl⟩ := hs
          obtain ⟨w, t, p, heq⟩ : ∃ w t p, setChangedRecordRevisions { n with revision := rev } c.request =
              { n with revision := rev, workspaces := w, tabs := t, panes := p } := by
            cases c.request <;> exact ⟨_, _, _, rfl⟩
          rw [heq]
          exact .changed ho harm hc hrev heq
        · rename_i hc
          have hc : o.changed = false := by simpa using hc
          cases hs
          rw [harm.unchanged.mp hc] at ho ⊢
          exact .unchanged ho hc

theorem apply_effect (h : apply env s c = some (s', r)) : Effect s (.command c) s'.catalogue := by
  obtain ⟨fp, hfp, ⟨_, _, rfl, _⟩ | ⟨hnone, next, hran, rfl⟩⟩ := apply_cases h
  · exact .same
  · cases hran with
    | rejected | unchanged => exact .same
    | @changed _ _ rev _ _ _ ok arm changed next stamped =>
      have hvalid : validateRequest c.request = .ok () := (both_ok.mp (requestFingerprint_ok hfp)).2
      have heffect := arm.effect changed rev
      rw [stamped] at heffect
      exact .request ⟨hnone, (commandOutcome_ok.mp ok).1⟩ rfl next heffect hvalid

/-! The other entry points. -/

@[simp] theorem ensure_ok {p : Prop} [Decidable p] {reason : String} {u : Unit} :
    ensure p reason = .ok u ↔ p := by
  unfold ensure; split <;> simp [*]

@[simp] theorem orFail_ok {α : Type} {x : Except String α} {a : α} : orFail x = .ok a ↔ x = .ok a := by
  cases x <;> simp [orFail]

/-- What a protocol refresh requires before it replaces a member. -/
structure RefreshGuard (s : ControlState) (c : ProtocolRefreshCommand) (m : ClusterMember) : Prop where
  found : s.members[c.replacement.nodeId]? = some m
  active : m.state = .active
  stays : c.replacement.state = .active
  sameCluster : c.replacement.clusterId = s.clusterId
  sameEndpoint : m.endpoint = c.replacement.endpoint
  sameRole : m.capabilities = c.replacement.capabilities
  capacity : s.refreshOutcomes.size < 1024

/-- What a call leaves: the state it found, or what its entry point makes of it. -/
inductive Stepped (env : Env) (s : ControlState) : Op → ControlState → Prop where
  | same {op : Op} : Stepped env s op s
  | command {c : ControlCommand} {s' : ControlState} {r : ControlResponse} (applied : apply env s c = some (s', r)) :
      Stepped env s (.command c) s'
  | feature {c : FeatureActivationCommand} {m : Option StoredMembership} {s' : ControlState} {fp : Digest}
      {r : ControlResponse}
      (valid : validateFeature c = .ok ()) (settled : settleFeature s c fp (featureCheck env s c m) = some (s', r)) :
      Stepped env s (.feature c m) s'
  | publication {c : PublicationCommand} {m : StoredMembership} {rev : UInt64} (encodes : Wire.Writes c.encode)
      (unmatched : matchHistory c.reports s.publicationHistory = none) (capacity : s.publicationHistory.length < 64)
      (bridge : verifyBridge env c.reports s.members m s.clusterId c.verifiedAtUnixMs = .ok ())
      (revisions : c.reports.forM (checkReportRevision s.publicationHistory) = .ok ())
      (next : checkedSucc s.revision = some rev) :
      Stepped env s (.publication c m)
        { s with publicationHistory := s.publicationHistory ++ [(c, rev)], revision := rev }
  | refresh {c : ProtocolRefreshCommand} {payload : Bytes} {rev : UInt64} {m : ClusterMember}
      (signed : protocolRefreshPayload c.commandId c.replacement c.expectedSerial c.expectedRevision = .ok payload)
      (next : checkedSucc s.revision = some rev) (guard : RefreshGuard s c m) :
      Stepped env s (.refresh c) { s with
        members := s.members.insert c.replacement.nodeId c.replacement
        revision := rev
        refreshOutcomes := s.refreshOutcomes.insert c.commandId (env.sha256 payload, rev) }
  | bootstrap {c : BootstrapCommand} {m : StoredMembership} {payload : Bytes} {rev : UInt64}
      (signed : bootstrapSigningPayload env c.proof.statement = .ok payload) (next : checkedSucc s.revision = some rev)
      (floors : ¬ (s.readSchemaFloor < 3 ∨ s.writeSchemaFloor < 3)) :
      Stepped env s (.bootstrap c m) { s with
        principalBootstrap := some ⟨c.proof.statement.principalId, c.proof.statement.principalPublicKey,
          c.proof.statement.commandId.value, env.sha256 payload, rev⟩
        revision := rev }

variable {c : FeatureActivationCommand}

/-- An activation that was not decided before is recorded, and moves the floors and the revision
if it is accepted. -/
theorem settleFeature_cases {fp : Digest} {check : Except ControlCommandError Unit}
    (h : settleFeature s c fp check = some (s', r)) :
    let table := s.featureDedup.insert (featureKey c) ⟨fp, c.issuedAtUnixMs, c, r⟩
    (∃ e, check = .error e ∧ r = ⟨CONTROL_SCHEMA_VERSION, c.commandId, s.revision, .complete, .rejected e⟩ ∧
      s' = { s with featureDedup := table }) ∨
    ∃ rev, check = .ok () ∧ checkedSucc s.revision = some rev ∧
      r = ⟨CONTROL_SCHEMA_VERSION, c.commandId, rev, .complete, .accepted []⟩ ∧
      s' = { s with
        readSchemaFloor := c.readSchemaFloor
        writeSchemaFloor := c.writeSchemaFloor
        activatedFeatures := s.activatedFeatures.insert c.feature
        revision := rev
        featureDedup := table } := by
  unfold settleFeature at h
  split at h
  · cases h
    exact .inl ⟨_, rfl, rfl, rfl⟩
  · obtain ⟨rev, hrev, hr⟩ := map_eq_some_iff.mp h
    cases hr
    exact .inr ⟨rev, rfl, hrev, rfl, rfl⟩

/-- A feature activation that finds its record leaves the state alone. -/
theorem feature_stepped {m : Option StoredMembership}
    (h : applyFeatureActivationWithMembership env s c m = some (s', r)) : Stepped env s (.feature c m) s' := by
  unfold applyFeatureActivationWithMembership at h
  split at h
  · cases h
  · rename_i b hb
    dsimp only at h
    split at h
    · split at h <;> cases h <;> exact .same
    · exact .feature (expectValid_ok.mp hb).1 h

/-- A publication that is accepted is a repetition or is appended to the history. -/
theorem publication_stepped {c : PublicationCommand} {m : StoredMembership}
    (h : applyPublication env s c m = .ok (s', rev)) :
    Stepped env s (.publication c m) s' := by
  simp only [applyPublication, bind_eq_ok] at h
  obtain ⟨b, hb, h⟩ := h
  split at h
  · cases h; exact .same
  · cases h
  · rename_i hm
    simp only [bind_eq_ok, orFail_ok, ensure_ok, exists_const] at h
    obtain ⟨hlen, _, hv, _, hf, h⟩ := h
    split at h
    · cases h
    · rename_i rev' hrev
      cases h
      exact .publication ⟨b, hb⟩ hm hlen hv hf hrev

theorem checkRefresh_ok {c : ProtocolRefreshCommand} {payload : Bytes} {u : Unit}
    (h : checkRefresh env s c payload = .ok u) : ∃ m, RefreshGuard s c m := by
  simp only [checkRefresh, bind_eq_ok, ensure_ok, exists_const] at h
  obtain ⟨hcap, h⟩ := h
  split at h
  · cases h
  · rename_i m hm
    simp only [bind_eq_ok, ensure_ok, exists_const] at h
    obtain ⟨_, ⟨ha, hs, hcl, _, _, hrole, hend, _⟩, _⟩ := h
    exact ⟨m, hm, ha, hs, hcl, hend, hrole, hcap⟩

theorem respond_cases {id : CommandId} {out : Outcome String (ControlState × UInt64)}
    (h : respond s id out = some (s', r)) :
    s' = s ∨ ∃ rev, out = .ok (s', rev) := by
  unfold respond at h
  split at h
  · cases h
  · cases h; exact .inr ⟨_, rfl⟩
  · cases h; exact .inl rfl

theorem protocolRefreshPayload_ok {id : Uuid} {m : ClusterMember} {serial : String}
    {b : Bytes} (h : protocolRefreshPayload id m serial rev = .ok b) :
    validateMember m = .ok () ∧ id ≠ 0 := by
  unfold protocolRefreshPayload at h
  split at h
  · cases h
  · rename_i hm
    split at h
    · cases h
    · split at h
      · cases h
      · rename_i hid; exact ⟨hm, hid⟩

theorem refresh_stepped {c : ProtocolRefreshCommand} (h : applyRefreshCommand env s c = some (s', r)) :
    Stepped env s (.refresh c) s' := by
  rcases respond_cases h with rfl | ⟨rev, ho⟩
  · exact .same
  · split at ho
    · cases ho
    · simp only [applyProtocolRefresh, bind_eq_ok] at ho
      obtain ⟨payload, hp, ho⟩ := ho
      split at ho
      · split at ho
        · cases ho; exact .same
        · cases ho
      · simp only [bind_eq_ok, orFail_ok] at ho
        obtain ⟨_, hc, ho⟩ := ho
        obtain ⟨m, hm⟩ := checkRefresh_ok hc
        split at ho
        · cases ho
        · rename_i rev' hrev
          cases ho
          exact .refresh hp hrev hm

theorem bootstrap_stepped {c : BootstrapCommand} {m : StoredMembership}
    (h : applyBootstrapCommand env s c m = some (s', r)) :
    Stepped env s (.bootstrap c m) s' := by
  rcases respond_cases h with rfl | ⟨rev, ho⟩
  · exact .same
  · simp only [orFail_ok, bind_eq_ok] at ho
    obtain ⟨_, _, ⟨next, record⟩, ha, hr⟩ := ho
    cases hr
    simp only [applyPrincipalBootstrap, bind_eq_ok] at ha
    obtain ⟨payload, hp, ha⟩ := ha
    split at ha
    · split at ha
      · cases ha; exact .same
      · cases ha
    · simp only [bind_eq_ok, ensure_ok, exists_const] at ha
      obtain ⟨_, hfl, ha⟩ := ha
      split at ha
      · cases ha
      · rename_i rev hrev
        cases ha
        exact .bootstrap hp hrev fun hlow => hfl (hlow.imp_right .inl)

theorem step_stepped {op : Op} (h : step env s op = some s') : Stepped env s op s' := by
  cases op with
  | command c =>
    obtain ⟨⟨_, r⟩, ha, rfl⟩ := map_eq_some_iff.mp h
    exact .command ha
  | feature c m =>
    obtain ⟨⟨_, r⟩, ha, rfl⟩ := map_eq_some_iff.mp h
    exact feature_stepped ha
  | publication c m =>
    simp only [step] at h
    split at h
    · rename_i hp
      cases h
      exact publication_stepped hp
    · cases h; exact .same
    · cases h
  | refresh c =>
    obtain ⟨⟨_, r⟩, ha, rfl⟩ := map_eq_some_iff.mp h
    exact refresh_stepped ha
  | bootstrap c m =>
    obtain ⟨⟨_, r⟩, ha, rfl⟩ := map_eq_some_iff.mp h
    exact bootstrap_stepped ha

/-- Every call has one of the listed effects on the records. -/
theorem step_effect {op : Op} (h : step env s op = some s') : Effect s op s'.catalogue := by
  cases step_stepped h with
  | same => exact .same
  | command applied => exact apply_effect applied
  | feature _ settled =>
    rcases settleFeature_cases settled with ⟨_, _, _, rfl⟩ | ⟨rev, _, hrev, _, rfl⟩
    · exact .same
    · exact .bump (by simp) hrev
  | publication _ _ _ _ _ next => exact .bump (by simp) next
  | refresh signed next guard =>
    exact .refresh next guard.found guard.active guard.stays guard.sameEndpoint guard.sameRole guard.sameCluster
      (protocolRefreshPayload_ok signed).1
  | bootstrap _ next => exact .bump (by simp) next

end
end Bmux.Control
