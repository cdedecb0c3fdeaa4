import Bmux.L2Control.Authority
import Bmux.Core.Run

/-!
# The replicated control state (`plugins/cluster-plugin/src/control_state.rs`)

`ControlState` is the state machine behind consensus. Five entry points
change it: `apply` (twelve control commands), feature activation, capability
publication, protocol refresh and principal bootstrap. `Op` names one call
of an entry point and `step` is the state it leaves; `none` is a panic
(a command beyond the codec's limits, or revision overflow).

Every command arm checks before it writes, so a rejected command leaves
nothing behind but its deduplication record.
-/
namespace Bmux.Control
open Canonical Wire Std

/-! ## State -/

structure DedupKey where
  principalId : String
  commandId : Uuid
  deriving DecidableEq, Repr

/-- mirrors plugins/cluster-plugin/src/control_state.rs:77-82 -/
instance : Ord DedupKey where
  compare := compareLex (compareOn DedupKey.principalId) (compareOn DedupKey.commandId)

instance : TransOrd Uuid := inferInstance

instance : TransOrd DedupKey :=
  inferInstanceAs (TransCmp (compareLex (compareOn DedupKey.principalId) (compareOn DedupKey.commandId)))

instance : LawfulEqOrd DedupKey where
  eq_of_compare {a b} h := by
    change compareLex (compareOn DedupKey.principalId) (compareOn DedupKey.commandId) a b = .eq at h
    rw [compareLex, Ordering.then_eq_eq] at h
    have h1 : a.principalId = b.principalId := Std.compare_eq_iff_eq.mp h.1
    have h2 : a.commandId = b.commandId := Std.compare_eq_iff_eq.mp h.2
    cases a; cases b; simp_all

structure DedupRecord where
  fingerprint : Digest
  issuedAtUnixMs : UInt64
  command : ControlCommand
  response : ControlResponse
  deriving DecidableEq, Repr

structure FeatureDedupRecord where
  fingerprint : Digest
  issuedAtUnixMs : UInt64
  command : FeatureActivationCommand
  response : ControlResponse
  deriving DecidableEq, Repr

structure PrincipalBootstrapRecord where
  principalId : Uuid
  publicKey : String
  commandId : Uuid
  statementFingerprint : Digest
  committedRevision : UInt64
  deriving DecidableEq, Repr

/-- mirrors plugins/cluster-plugin/src/control_state.rs:116-135 -/
structure ControlState where
  schemaVersion : UInt16
  clusterId : String
  revision : UInt64
  readSchemaFloor : UInt16
  writeSchemaFloor : UInt16
  activatedFeatures : ExtTreeSet String compare
  members : ExtTreeMap String ClusterMember compare
  workspaces : ExtTreeMap Uuid WorkspaceRecord compare
  tabs : ExtTreeMap Uuid LogicalTabRecord compare
  panes : ExtTreeMap Uuid LogicalPaneRecord compare
  principalBootstrap : Option PrincipalBootstrapRecord
  publicationHistory : List (PublicationCommand × UInt64)
  refreshOutcomes : ExtTreeMap Uuid (Digest × UInt64) compare
  dedup : ExtTreeMap DedupKey DedupRecord compare
  featureDedup : ExtTreeMap DedupKey FeatureDedupRecord compare
  deriving DecidableEq

namespace ControlState

/-- mirrors plugins/cluster-plugin/src/control_state.rs:139-157 -/
def new (clusterId : String) : ControlState where
  schemaVersion := CONTROL_SCHEMA_VERSION
  clusterId := clusterId
  revision := 0
  readSchemaFloor := CONTROL_SCHEMA_VERSION
  writeSchemaFloor := CONTROL_SCHEMA_VERSION
  activatedFeatures := ∅
  members := ∅
  workspaces := ∅
  tabs := ∅
  panes := ∅
  principalBootstrap := none
  publicationHistory := []
  refreshOutcomes := ∅
  dedup := ∅
  featureDedup := ∅

end ControlState

/-! ## Helpers -/

def hexDigit (n : Nat) : Char := Char.ofNat (if n < 10 then 48 + n else 87 + n)

/-- `Uuid::to_string`: 32 hexadecimal digits, hyphenated 8-4-4-4-12. -/
def uuidString (id : Uuid) : String :=
  let digits := (List.range 32).map fun i => hexDigit (id.toNat / 16 ^ (31 - i) % 16)
  String.ofList (digits.take 8 ++ '-' :: (digits.drop 8).take 4 ++ '-' :: (digits.drop 12).take 4 ++
    '-' :: (digits.drop 16).take 4 ++ '-' :: digits.drop 20)

def checkedSucc (n : UInt64) : Option UInt64 := if n.toNat + 1 < 2 ^ 64 then some (n + 1) else none

def invalidTransition (reason : String) : ControlCommandError := .invalidTransition reason

structure ApplyOutcome where
  changed : Bool
  workflowStatus : ControlWorkflowStatus
  payload : Bytes
  deriving DecidableEq, Repr

def ApplyOutcome.complete (changed : Bool) : ApplyOutcome := ⟨changed, .complete, []⟩
def ApplyOutcome.pending (changed : Bool) : ApplyOutcome := ⟨changed, .pending, []⟩

/-- The outcome of a command arm: the error, or the state and what it reports. -/
abbrev ArmResult := Except ControlCommandError (ControlState × ApplyOutcome)

def require (p : Prop) [Decidable p] (error : ControlCommandError) : Except ControlCommandError Unit :=
  if p then .ok () else .error error

def orError {α : Type} (value : Option α) (error : ControlCommandError) : Except ControlCommandError α :=
  match value with
  | some a => .ok a
  | none => .error error

section
variable (pane : LogicalPaneRecord) (expected current : UInt64)

def requireRevision : Except ControlCommandError Unit :=
  require (expected = current) (.revisionConflict expected current)

def requireGeneration : Except ControlCommandError Unit :=
  require (expected = current) (.generationConflict expected current)

def paneGeneration : UInt64 :=
  match pane.execution with
  | some assignment => assignment.generation
  | none => 0

/-- mirrors plugins/cluster-plugin/src/control_state.rs:1197-1222 (`workspace`, `workspace_mut`) -/
def workspace (s : ControlState) (workspaceId : WorkspaceId) : Except ControlCommandError WorkspaceRecord :=
  orError s.workspaces[workspaceId.value]? (.notFound .workspace (uuidString workspaceId.value))

def requirePaneReferences (s : ControlState) (pane : LogicalPaneRecord) : Except ControlCommandError Unit := do
  let _ ← workspace s pane.workspaceId
  let tab ← orError s.tabs[pane.tabId.value]? (.invalidReference .tab (uuidString pane.tabId.value))
  require (tab.workspaceId = pane.workspaceId)
    (.invalidReference .workspace (uuidString pane.workspaceId.value))

def validateExecution : Except ControlCommandError Unit :=
  require (∀ assignment, pane.execution = some assignment → assignment.generation ≠ 0)
    (.generationConflict 1 0)

def validMemberTransition : ClusterMemberState → ClusterMemberState → Bool
  | .active, .active | .active, .revoked | .active, .left => true
  | .revoked, .revoked | .revoked, .left => true
  | .left, .left => true
  | _, _ => false

end

/-! ## Command arms (`apply_request`) -/

section
variable (env : Env) (s : ControlState)

variable (member : ClusterMember) (workspaceId : WorkspaceId) (paneId : LogicalPaneId) (expectedRevision : UInt64)
  (name : Option String) (issuedAtUnixMs : UInt64)

/-- mirrors plugins/cluster-plugin/src/control_state.rs:834-837 -/
def checkCredential : Except ControlCommandError Unit :=
  match env.verifyMembershipCredential member issuedAtUnixMs with
  | .ok () => .ok ()
  | .error error => .error (invalidTransition ("member credential is invalid: " ++ error))

/-- mirrors plugins/cluster-plugin/src/control_state.rs:838-858 -/
def checkEndpoint : Except ControlCommandError Unit :=
  match member.endpoint with
  | some endpoint =>
    match env.validateAdvertisedEndpoint endpoint with
    | .error error => .error (invalidTransition ("member endpoint is invalid: " ++ error))
    | .ok () =>
      require (¬ ∃ kv ∈ s.members.toList, kv.2.nodeId ≠ member.nodeId ∧ kv.2.state = .active ∧
          kv.2.endpoint = some endpoint)
        (invalidTransition "member endpoint is already assigned to another active member")
  | none =>
    require (¬ (member.state = .active ∧ member.capabilities.consensusRole = .voter))
      (invalidTransition "active voter requires an advertised endpoint")

/-- mirrors plugins/cluster-plugin/src/control_state.rs:859-896 -/
def checkExisting : Except ControlCommandError Unit :=
  match s.members[member.nodeId]? with
  | none => .ok ()
  | some existing => do
    require (existing.negotiatedProtocol = member.negotiatedProtocol) (invalidTransition
      "protocol capability changes require an explicit authenticated refresh transition")
    require (¬ (existing.state = .active ∧ existing.capabilities.consensusRole = .voter ∧
        existing.endpoint ≠ member.endpoint))
      (invalidTransition "active voter endpoint cannot be rewritten by membership publication")
    require (¬ ((existing.state = .revoked ∨ existing.state = .left) ∧ member.state = .active))
      (invalidTransition "inactive member cannot be reactivated by upsert")
    require (¬ member.updatedAtUnixMs < existing.updatedAtUnixMs)
      (invalidTransition "membership update is older than replicated state")
    require (¬ (member.updatedAtUnixMs = existing.updatedAtUnixMs ∧ member ≠ existing))
      (invalidTransition "membership update conflicts at the same timestamp")

/-- mirrors plugins/cluster-plugin/src/control_state.rs:897-911 -/
def checkWriteFloor : Except ControlCommandError Unit :=
  require (¬ (member.state = .active ∧
      (member.negotiatedProtocol.schemaVersion < s.writeSchemaFloor.toUInt32 ∨
        ∃ feature ∈ s.activatedFeatures.toList, feature ∉ member.negotiatedProtocol.features)))
    (invalidTransition "active member does not satisfy the cluster write floor")

/-- mirrors plugins/cluster-plugin/src/control_state.rs:831-915 -/
def upsertMember : ArmResult := do
  require (member.clusterId = s.clusterId) (invalidTransition "member belongs to a different cluster")
  checkCredential env member issuedAtUnixMs
  checkEndpoint env s member
  checkExisting s member
  checkWriteFloor s member
  let changed := decide (s.members[member.nodeId]? ≠ some member)
  return ({ s with members := s.members.insert member.nodeId member }, .complete changed)

/-- mirrors plugins/cluster-plugin/src/control_state.rs:916-934 -/
def setMemberState (nodeId expectedCredentialSerial : String) (state : ClusterMemberState) : ArmResult := do
  let member ← orError s.members[nodeId]? (.notFound .member nodeId)
  require (member.credentialSerial = expectedCredentialSerial)
    (invalidTransition "member credential serial is stale")
  require (validMemberTransition member.state state = true)
    (invalidTransition "member state transition is invalid")
  return ({ s with members := s.members.insert nodeId { member with state } },
    .complete (member.state ≠ state))

/-- mirrors plugins/cluster-plugin/src/control_state.rs:935-951 -/
def createWorkspace : ArmResult := do
  require (s.workspaces[workspaceId.value]? = none)
    (.alreadyExists .workspace (uuidString workspaceId.value))
  return ({ s with workspaces := s.workspaces.insert workspaceId.value ⟨workspaceId, name, 0⟩ },
    .complete true)

/-- mirrors plugins/cluster-plugin/src/control_state.rs:952-962 -/
def renameWorkspace : ArmResult := do
  let found ← workspace s workspaceId
  requireRevision expectedRevision found.revision
  return ({ s with workspaces := s.workspaces.insert workspaceId.value { found with name } },
    .complete (found.name ≠ name))

/-- mirrors plugins/cluster-plugin/src/control_state.rs:963-972 -/
def putTab (tab : LogicalTabRecord) (expectedWorkspaceRevision : UInt64) : ArmResult := do
  let found ← workspace s tab.workspaceId
  requireRevision expectedWorkspaceRevision found.revision
  let changed := decide (s.tabs[tab.tabId.value]? ≠ some tab)
  return ({ s with tabs := s.tabs.insert tab.tabId.value tab }, .complete changed)

/-- mirrors plugins/cluster-plugin/src/control_state.rs:973-995 -/
def removeTab (tabId : LogicalTabId) (expectedWorkspaceRevision : UInt64) : ArmResult := do
  let tab ← orError s.tabs[tabId.value]? (.notFound .tab (uuidString tabId.value))
  let found ← workspace s tab.workspaceId
  requireRevision expectedWorkspaceRevision found.revision
  require (¬ ∃ kv ∈ s.panes.toList, kv.2.tabId.value = tabId.value)
    (invalidTransition "tab still contains logical panes")
  return ({ s with tabs := s.tabs.erase tabId.value }, .complete true)

/-- mirrors plugins/cluster-plugin/src/control_state.rs:996-1009 -/
def putPane (pane : LogicalPaneRecord) (expectedWorkspaceRevision : UInt64) : ArmResult := do
  requirePaneReferences s pane
  let found ← workspace s pane.workspaceId
  requireRevision expectedWorkspaceRevision found.revision
  validateExecution pane
  let changed := decide (s.panes[pane.paneId.value]? ≠ some pane)
  return ({ s with panes := s.panes.insert pane.paneId.value pane }, .complete changed)

/-- mirrors plugins/cluster-plugin/src/control_state.rs:1010-1024 -/
def removePane (expectedGeneration : Option UInt64) : ArmResult := do
  let pane ← orError s.panes[paneId.value]? (.notFound .pane (uuidString paneId.value))
  requireRevision expectedRevision pane.revision
  match expectedGeneration with
  | some expected => requireGeneration expected (paneGeneration pane)
  | none => .ok ()
  return ({ s with panes := s.panes.erase paneId.value }, .complete true)

def saturatingSucc (n : UInt64) : UInt64 := (checkedSucc n).getD n

/-- mirrors plugins/cluster-plugin/src/control_state.rs:1025-1053 -/
def assignExecution (expectedRevision expectedGeneration : UInt64)
    (assignment : ExecutionAssignment) (launchSpec : Option WorkerLaunchSpec) : ArmResult := do
  require (launchSpec.isSome = true)
    (invalidTransition "execution assignment requires a durable launch specification")
  let pane ← orError s.panes[paneId.value]? (.notFound .pane (uuidString paneId.value))
  requireRevision expectedRevision pane.revision
  let currentGeneration := paneGeneration pane
  requireGeneration expectedGeneration currentGeneration
  require (¬ assignment.generation ≤ currentGeneration)
    (.generationConflict (saturatingSucc currentGeneration) assignment.generation)
  let assigned := { pane with
    execution := some assignment, availability := .pending, availabilityReason := none }
  return ({ s with panes := s.panes.insert paneId.value assigned }, .pending true)

/-- mirrors plugins/cluster-plugin/src/control_state.rs:1054-1076 -/
def setPaneAvailability (assignment : ExecutionAssignment) (availability : PaneAvailability) (reason : Option String) :
    ArmResult := do
  let pane ← orError s.panes[paneId.value]? (.notFound .pane (uuidString paneId.value))
  requireRevision expectedRevision pane.revision
  require (pane.execution = some assignment)
    (.generationConflict (paneGeneration pane) assignment.generation)
  let changed := decide (pane.availability ≠ availability ∨ pane.availabilityReason ≠ reason)
  let updated := { pane with availability, availabilityReason := reason }
  return ({ s with panes := s.panes.insert paneId.value updated }, .complete changed)

/-- mirrors plugins/cluster-plugin/src/control_state.rs:1077-1099 -/
def completeWorkflow (principalId : String) (originalCommandId : CommandId) (response : Bytes) :
    ArmResult := do
  let originalKey : DedupKey := ⟨principalId, originalCommandId.value⟩
  let original ← orError s.dedup[originalKey]? (.notFound .workflow (uuidString originalCommandId.value))
  if original.response.workflowStatus = .complete then return (s, .complete false)
  else
    let completed := { original with
      response := { original.response with workflowStatus := .complete, result := .accepted response } }
    return ({ s with dedup := s.dedup.insert originalKey completed }, .complete true)

/-- mirrors plugins/cluster-plugin/src/control_state.rs:1100-1113 -/
def pruneDedup (completedBeforeUnixMs : UInt64) : ControlState × ApplyOutcome :=
  let before := s.dedup.size + s.featureDedup.size
  let dedup := s.dedup.filter fun _ record =>
    record.response.workflowStatus = .pending ∨ record.issuedAtUnixMs ≥ completedBeforeUnixMs
  let featureDedup := s.featureDedup.filter fun _ record =>
    record.issuedAtUnixMs ≥ completedBeforeUnixMs
  ({ s with dedup, featureDedup }, .complete (dedup.size + featureDedup.size ≠ before))

/-- mirrors plugins/cluster-plugin/src/control_state.rs:826-1115 -/
def applyRequest (command : ControlCommand) : ArmResult :=
  match command.request with
  | .upsertMember member => upsertMember env s member command.issuedAtUnixMs
  | .setMemberState nodeId serial state => setMemberState s nodeId serial state
  | .createWorkspace workspaceId name => createWorkspace s workspaceId name
  | .renameWorkspace workspaceId expected name => renameWorkspace s workspaceId expected name
  | .putTab tab expected => putTab s tab expected
  | .removeTab tabId expected => removeTab s tabId expected
  | .putPane pane expected => putPane s pane expected
  | .removePane paneId expected generation => removePane s paneId expected generation
  | .assignExecution paneId expected generation assignment launchSpec =>
    assignExecution s paneId expected generation assignment launchSpec
  | .setPaneAvailability paneId expected assignment availability reason =>
    setPaneAvailability s paneId expected assignment availability reason
  | .completeWorkflow original response => completeWorkflow s command.principalId original response
  | .pruneDedup before => .ok (pruneDedup s before)

end

/-! ## `apply` -/

def WorkspaceRecord.withRevision (w : WorkspaceRecord) (revision : UInt64) : WorkspaceRecord :=
  { w with revision }

def LogicalTabRecord.withRevision (t : LogicalTabRecord) (revision : UInt64) : LogicalTabRecord :=
  { t with revision }

def LogicalPaneRecord.withRevision (p : LogicalPaneRecord) (revision : UInt64) : LogicalPaneRecord :=
  { p with revision }

section
variable (s : ControlState)

/-- mirrors plugins/cluster-plugin/src/control_state.rs:1117-1155 -/
def setChangedRecordRevisions (request : ControlCommandRequest) : ControlState :=
  let revision := s.revision
  match request with
  | .createWorkspace workspaceId _ | .renameWorkspace workspaceId _ _ =>
    { s with workspaces := s.workspaces.modify workspaceId.value (·.withRevision revision) }
  | .putTab tab _ =>
    { s with
      tabs := s.tabs.modify tab.tabId.value (·.withRevision revision)
      workspaces := s.workspaces.modify tab.workspaceId.value (·.withRevision revision) }
  | .putPane pane _ =>
    { s with
      panes := s.panes.modify pane.paneId.value (·.withRevision revision)
      workspaces := s.workspaces.modify pane.workspaceId.value (·.withRevision revision) }
  | .assignExecution paneId _ _ _ _ | .setPaneAvailability paneId _ _ _ _ =>
    { s with panes := s.panes.modify paneId.value (·.withRevision revision) }
  | .upsertMember _ | .setMemberState _ _ _ | .removeTab _ _ | .removePane _ _ _
  | .completeWorkflow _ _ | .pruneDedup _ => s

variable (command : ControlCommand)

def dedupKey : DedupKey := ⟨command.principalId, command.commandId.value⟩

def errorResponse (commandId : CommandId) (error : ControlCommandError) : ControlResponse :=
  ⟨CONTROL_SCHEMA_VERSION, commandId, s.revision, .complete, .rejected error⟩

def commandOutcome (env : Env) (s : ControlState) (command : ControlCommand) : ArmResult :=
  if command.schemaVersion = CONTROL_SCHEMA_VERSION then applyRequest env s command
  else .error (.incompatibleSchema CONTROL_SCHEMA_VERSION command.schemaVersion)

/-- mirrors plugins/cluster-plugin/src/control_state.rs:553-574: the state after the arm, with the
revisions stamped if something changed, and the fields of the response -/
def settle (outcome : ArmResult) : Option (ControlState × ControlWorkflowStatus × ControlCommandResult) :=
  match outcome with
  | .error error => some (s, .complete, .rejected error)
  | .ok (next, outcome) =>
    if outcome.changed then
      (checkedSucc s.revision).map fun revision =>
        (setChangedRecordRevisions { next with revision } command.request,
          outcome.workflowStatus, .accepted outcome.payload)
    else some (next, outcome.workflowStatus, .accepted outcome.payload)

/-- mirrors plugins/cluster-plugin/src/control_state.rs:575-591 -/
def recordOutcome (next : ControlState) (command : ControlCommand) (fingerprint : Digest)
    (workflowStatus : ControlWorkflowStatus) (result : ControlCommandResult) :
    ControlState × ControlResponse :=
  let response : ControlResponse :=
    ⟨CONTROL_SCHEMA_VERSION, command.commandId, next.revision, workflowStatus, result⟩
  let record : DedupRecord := ⟨fingerprint, command.issuedAtUnixMs, command, response⟩
  ({ next with dedup := next.dedup.insert (dedupKey command) record }, response)

/-- mirrors plugins/cluster-plugin/src/control_state.rs:530-592 -/
def apply (env : Env) (s : ControlState) (command : ControlCommand) :
    Option (ControlState × ControlResponse) :=
  match requestFingerprint (ε := Unit) env.sha256 command with
  | .error _ => none
  | .ok fingerprint =>
    match s.dedup[dedupKey command]? with
    | some existing =>
      if existing.fingerprint = fingerprint then some (s, existing.response)
      else some (s, errorResponse s command.commandId .commandIdConflict)
    | none =>
      (settle s command (commandOutcome env s command)).map fun (next, workflowStatus, result) =>
        recordOutcome next command fingerprint workflowStatus result

end

/-! ## Feature activation -/

section
variable (env : Env) (s : ControlState)

/-- The members named by a capability report of a batch, newest batch first. -/
def latestReport (history : List (PublicationCommand × UInt64)) (nodeId : String) : Option CapabilityReport :=
  history.reverse.findSome? fun entry => entry.1.reports.find? fun report => report.nodeId = nodeId

/-- mirrors plugins/cluster-plugin/src/control_state.rs:771-809 -/
def publishedRefreshSupport (member : ClusterMember) (command : FeatureActivationCommand)
    (membership : Option StoredMembership) : Bool :=
  if command.feature ≠ "protocol-refresh-v1" then false
  else match membership with
    | none => false
    | some membership =>
      match latestReport s.publicationHistory member.nodeId with
      | none => false
      | some report =>
        report.schemaMin ≤ command.readSchemaFloor.toUInt32 &&
        report.schemaMax ≥ command.writeSchemaFloor.toUInt32 &&
        command.feature ∈ report.features &&
        (verifyReport env report member membership s.clusterId command.issuedAtUnixMs).isOk

/-- `char::is_whitespace`: the Unicode `White_Space` characters. -/
def isWhitespace (c : Char) : Bool :=
  let n := c.toNat
  (9 ≤ n && n ≤ 13) || n = 0x20 || n = 0x85 || n = 0xA0 || n = 0x1680 || (0x2000 ≤ n && n ≤ 0x200A) ||
    n = 0x2028 || n = 0x2029 || n = 0x202F || n = 0x205F || n = 0x3000

/-- The features whose activation needs committed membership. -/
def membershipFeature (feature : String) : Prop :=
  feature = "principal-bootstrap-v1" ∨ feature = "protocol-refresh-v1"

instance (feature : String) : Decidable (membershipFeature feature) :=
  inferInstanceAs (Decidable (_ ∨ _))

variable (command : FeatureActivationCommand)

variable (membership : Option StoredMembership)

/-- mirrors plugins/cluster-plugin/src/control_state.rs:732-767 -/
def requireMemberSupport : Except ControlCommandError Unit := do
  let minimumSchema : UInt16 := if command.feature = "protocol-refresh-v1" then 4 else 3
  require (¬ (command.readSchemaFloor < minimumSchema ∨ command.writeSchemaFloor < minimumSchema))
    (invalidTransition "membership feature requires its supported schema floor")
  let active := activeMembers s.members
  require (active ≠ [] ∧ ∀ member ∈ active, member.clusterId = s.clusterId ∧
      (publishedRefreshSupport env s member command membership = true ∨
        (command.writeSchemaFloor.toUInt32 ≤ member.negotiatedProtocol.schemaVersion ∧
          command.feature ∈ member.negotiatedProtocol.features)))
    (invalidTransition "principal bootstrap requires compatible active members")

def validateFeatureActivation : Except ControlCommandError Unit := do
  requireRevision command.expectedControlRevision s.revision
  require (¬ (command.feature.toList.all isWhitespace = true ∨
      command.readSchemaFloor < s.readSchemaFloor ∨ command.writeSchemaFloor < s.writeSchemaFloor ∨
      command.readSchemaFloor > command.writeSchemaFloor ∨
      command.writeSchemaFloor ≤ CONTROL_SCHEMA_VERSION))
    (invalidTransition "feature activation floors or feature identity are invalid")
  if membershipFeature command.feature then requireMemberSupport env s command membership
  else .ok ()

/-- mirrors plugins/cluster-plugin/src/control_state.rs:645-675 -/
def requireCommittedMembers : Except ControlCommandError Unit :=
  if membershipFeature command.feature then do
    let membership ← orError membership
      (invalidTransition "bootstrap activation requires committed membership")
    let committed := ExtTreeSet.ofList (membership.nodes.toList.map (nodeIdString env)) compare
    let active := ExtTreeSet.ofList ((activeMembers s.members).map ClusterMember.nodeId) compare
    require (membership.logId ≠ none ∧ membership.hasVoter = true ∧ committed = active)
      (invalidTransition "bootstrap activation member records do not match committed membership")
  else .ok ()

def featureKey : DedupKey :=
  ⟨command.principalId, command.commandId.value⟩

def featureCheck : Except ControlCommandError Unit := do
  validateFeatureActivation env s command membership
  requireCommittedMembers env s command membership

/-- mirrors plugins/cluster-plugin/src/control_state.rs:676-709 -/
def settleFeature (fingerprint : Digest)
    (check : Except ControlCommandError Unit) : Option (ControlState × ControlResponse) :=
  let record := fun (next : ControlState) (result : ControlCommandResult) =>
    let response : ControlResponse :=
      ⟨CONTROL_SCHEMA_VERSION, command.commandId, next.revision, .complete, result⟩
    let entry : FeatureDedupRecord := ⟨fingerprint, command.issuedAtUnixMs, command, response⟩
    ({ next with featureDedup := next.featureDedup.insert (featureKey command) entry }, response)
  match check with
  | .error error => some (record s (.rejected error))
  | .ok () =>
    (checkedSucc s.revision).map fun revision =>
      record { s with
        readSchemaFloor := command.readSchemaFloor
        writeSchemaFloor := command.writeSchemaFloor
        activatedFeatures := s.activatedFeatures.insert command.feature
        revision } (.accepted [])

def applyFeatureActivationWithMembership : Option (ControlState × ControlResponse) :=
  match (encodeFeatureActivation command : Put Unit) with
  | .error _ => none
  | .ok encoded =>
    let fingerprint := env.sha256 encoded
    match s.featureDedup[featureKey command]? with
    | some existing =>
      if existing.fingerprint = fingerprint then some (s, existing.response)
      else some (s, errorResponse s command.commandId .commandIdConflict)
    | none => settleFeature s command fingerprint (featureCheck env s command membership)

/-! ## Capability publication -/

/-- mirrors plugins/cluster-plugin/src/control_state.rs:175-187 -/
def matchHistory (reports : List CapabilityReport) :
    List (PublicationCommand × UInt64) → Option (Except String UInt64)
  | [] => none
  | (previous, revision) :: rest =>
    if previous.reports = reports then some (.ok revision)
    else if ∃ old ∈ previous.reports, ∃ new ∈ reports, old.commandId = new.commandId then
      some (.error "publication command identity conflict")
    else matchHistory reports rest

/-- mirrors plugins/cluster-plugin/src/control_state.rs:198-219, one report -/
def checkReportRevision (history : List (PublicationCommand × UInt64)) (report : CapabilityReport) :
    Except String Unit :=
  match latestReport history report.nodeId with
  | some old =>
    match checkedSucc old.expectedReportRevision with
    | none => .error "report revision overflow"
    | some expected => ensure (report.expectedReportRevision = expected) "publication report revision mismatch"
  | none => ensure (report.expectedReportRevision = 0) "publication report revision mismatch"

/-- mirrors plugins/cluster-plugin/src/control_state.rs:169-227 -/
def applyPublication (command : PublicationCommand) (membership : StoredMembership) :
    Outcome String (ControlState × UInt64) := do
  let _ ← command.encode
  match matchHistory command.reports s.publicationHistory with
  | some (.ok revision) => .ok (s, revision)
  | some (.error reason) => .error (.error reason)
  | none => do
    orFail (ensure (s.publicationHistory.length < 64) "publication history capacity exhausted")
    verifyBridge env command.reports s.members membership s.clusterId command.verifiedAtUnixMs
    orFail (command.reports.forM (checkReportRevision s.publicationHistory))
    match checkedSucc s.revision with
    | none => .error (.error "control revision overflow")
    | some revision =>
      .ok ({ s with publicationHistory := s.publicationHistory ++ [(command, revision)], revision },
        revision)

/-! ## Protocol refresh -/

def REFRESH_DOMAIN : Bytes := utf8 "bmux.cluster.protocol-refresh.v1\x00"

def protocolRefreshPayload (commandId : Uuid) (replacement : ClusterMember) (expectedSerial : String)
    (expectedRevision : UInt64) : Put String :=
  match validateMember replacement with
  | .error e => .error (.error (CodecError.text e))
  | .ok () =>
    if (utf8 expectedSerial).length > 1024 then
      .error (.error "refresh predecessor serial exceeds limit")
    else if commandId = 0 then .error (.error "refresh command identity is nil")
    else seq [Writer.raw REFRESH_DOMAIN, Writer.uuid commandId, Writer.string expectedSerial,
      Writer.u64 expectedRevision, encodeMember replacement]

section
variable (command : ProtocolRefreshCommand)

/-- mirrors plugins/cluster-plugin/src/control_state.rs:350-388, the checks on an unused identity -/
def checkRefresh (payload : Bytes) : Except String Unit := do
  ensure (s.refreshOutcomes.size < 1024) "refresh outcome capacity exhausted"
  match s.members[command.replacement.nodeId]? with
  | none => .error "refresh member is missing"
  | some current => do
    let replacement := command.replacement
    ensure (s.revision = command.expectedRevision ∧ current.credentialSerial = command.expectedSerial)
      "protocol refresh precondition mismatch"
    ensure (current.state = .active ∧ replacement.state = .active ∧
        replacement.clusterId = s.clusterId ∧ current.clusterId = s.clusterId ∧
        current.publicKey = replacement.publicKey ∧ current.capabilities = replacement.capabilities ∧
        current.endpoint = replacement.endpoint ∧
        current.credentialIssuerNodeId = replacement.credentialIssuerNodeId ∧
        current.credentialIssuerPublicKey = replacement.credentialIssuerPublicKey ∧
        replacement.credentialSerial ≠ command.expectedSerial ∧
        current.updatedAtUnixMs < replacement.updatedAtUnixMs)
      "protocol refresh changes membership authority or is stale"
    env.verifyMembershipCredential current command.verifiedAtUnixMs
    env.verifyMembershipCredential replacement command.verifiedAtUnixMs
    let key ← env.parsePublicKey current.publicKey
    env.parseSignature command.nodeSignature
    ensure (env.verify key payload command.nodeSignature = true)
      "protocol refresh node signature is invalid"
    ensure (s.writeSchemaFloor.toUInt32 ≤ replacement.negotiatedProtocol.schemaVersion ∧
        ∀ feature ∈ s.activatedFeatures.toList, feature ∈ replacement.negotiatedProtocol.features)
      "protocol refresh violates active feature floors"

/-- mirrors plugins/cluster-plugin/src/control_state.rs:327-401 -/
def applyProtocolRefresh : Outcome String (ControlState × UInt64) := do
  let payload ← protocolRefreshPayload command.commandId command.replacement command.expectedSerial
    command.expectedRevision
  let fingerprint := env.sha256 payload
  match s.refreshOutcomes[command.commandId]? with
  | some (recorded, revision) =>
    if recorded = fingerprint then .ok (s, revision)
    else .error (.error "refresh command identity conflict")
  | none => do
    orFail (checkRefresh env s command payload)
    match checkedSucc s.revision with
    | none => .error (.error "control revision overflow")
    | some revision =>
      .ok ({ s with
        members := s.members.insert command.replacement.nodeId command.replacement
        revision
        refreshOutcomes := s.refreshOutcomes.insert command.commandId (fingerprint, revision) }, revision)

def respond (commandId : CommandId) (outcome : Outcome String (ControlState × UInt64)) :
    Option (ControlState × ControlResponse) :=
  match outcome with
  | .error .panicked => none
  | .ok (next, revision) => some (next, ⟨CONTROL_SCHEMA_VERSION, commandId, revision, .complete, .accepted []⟩)
  | .error (.error reason) => some (s, errorResponse s commandId (.invalidTransition reason))

def applyRefreshCommand : Option (ControlState × ControlResponse) :=
  respond s ⟨command.commandId⟩ <|
    if s.readSchemaFloor < 4 ∨ s.writeSchemaFloor < 4 ∨ "protocol-refresh-v1" ∉ s.activatedFeatures then
      .error (.error "protocol refresh feature is not active")
    else applyProtocolRefresh env s command

end

/-! ## Principal bootstrap -/

/-- mirrors plugins/cluster-plugin/src/control_state.rs:437-476 -/
def applyPrincipalBootstrap (statement : BootstrapStatement) (expectedRevision : UInt64) :
    Except String (ControlState × PrincipalBootstrapRecord) := do
  let payload ← bootstrapSigningPayload env statement
  let fingerprint := env.sha256 payload
  match s.principalBootstrap with
  | some existing =>
    if existing.commandId = statement.commandId.value ∧ existing.statementFingerprint = fingerprint then
      .ok (s, existing)
    else .error "principal bootstrap has already been consumed"
  | none => do
    ensure (statement.clusterId = s.clusterId ∧ expectedRevision = s.revision)
      "bootstrap cluster or control revision mismatch"
    ensure (¬ (s.readSchemaFloor < 3 ∨ s.writeSchemaFloor < 3 ∨
        "principal-bootstrap-v1" ∉ s.activatedFeatures)) "principal bootstrap feature is not active"
    match checkedSucc s.revision with
    | none => .error "control revision overflow"
    | some revision =>
      let record : PrincipalBootstrapRecord := ⟨statement.principalId, statement.principalPublicKey,
        statement.commandId.value, fingerprint, revision⟩
      .ok ({ s with principalBootstrap := some record, revision }, record)

def applyBootstrapCommand (command : BootstrapCommand) (membership : StoredMembership) :
    Option (ControlState × ControlResponse) :=
  -- a committed bootstrap is not verified again: its retry stays valid after membership changes
  let verified := if s.principalBootstrap = none then
    verifyProof env command.proof s.clusterId membership s.members command.verifiedAtUnixMs else .ok ()
  respond s command.proof.statement.commandId <| orFail <| do
    verified
    let (next, record) ← applyPrincipalBootstrap env s command.proof.statement command.expectedControlRevision
    return (next, record.committedRevision)

end

/-! ## The state machine -/

inductive Op where
  | command (command : ControlCommand)
  | feature (command : FeatureActivationCommand) (membership : Option StoredMembership)
  | publication (command : PublicationCommand) (membership : StoredMembership)
  | refresh (command : ProtocolRefreshCommand)
  | bootstrap (command : BootstrapCommand) (membership : StoredMembership)

/-- The state after one call, `none` if it panics. -/
def step (env : Env) (s : ControlState) : Op → Option ControlState
  | .command command => (apply env s command).map Prod.fst
  | .feature command membership =>
    (applyFeatureActivationWithMembership env s command membership).map Prod.fst
  | .publication command membership =>
    match applyPublication env s command membership with
    | .ok (next, _) => some next
    | .error (.error _) => some s
    | .error .panicked => none
  | .refresh command => (applyRefreshCommand env s command).map Prod.fst
  | .bootstrap command membership => (applyBootstrapCommand env s command membership).map Prod.fst

/-- States reached from a new cluster by calls that meet `ok`. -/
def ReachableWith (env : Env) (ok : ControlState → Op → Prop) (s : ControlState) : Prop :=
  ∃ clusterId, Run (step env) ok (ControlState.new clusterId) s

abbrev Reachable (env : Env) : ControlState → Prop := ReachableWith env fun _ _ => True

/-! ## Sample inputs of the concrete runs -/

namespace Sample

def env : Env where
  sha256 bytes := BitVec.ofNat 256 (ofBe bytes)
  parsePublicKey _ := .ok 0
  publicKeyValid _ := true
  displayPublicKey _ := "key"
  parseSignature _ := .ok ()
  verify _ _ _ := true
  verifyMembershipCredential _ _ := .ok ()
  validateAdvertisedEndpoint _ := .ok ()
  verifyNodeSignature _ _ _ := .ok ()

def command (id : Uuid) (request : ControlCommandRequest) : ControlCommand := ⟨1, "p", ⟨id⟩, 0, request⟩

def create (workspaceId : Uuid) : ControlCommandRequest := .createWorkspace ⟨workspaceId⟩ none

def tab (id workspaceId : Uuid) : LogicalTabRecord := ⟨⟨id⟩, ⟨workspaceId⟩, none, 1, [], 0⟩

def pane (id : Uuid) (execution : Option ExecutionAssignment) : LogicalPaneRecord :=
  ⟨⟨id⟩, ⟨1⟩, ⟨1⟩, none, .manual, ⟨none, [], []⟩, .pending, none, execution, 0⟩

def assignment (generation : UInt64) : ExecutionAssignment := ⟨"n", generation, ⟨0⟩⟩

def launchSpec : WorkerLaunchSpec := ⟨none, [], none, [], 80, 24⟩

def member (nodeId : String) (state : ClusterMemberState) (updatedAtUnixMs : UInt64) : ClusterMember where
  clusterId := "c"
  nodeId := nodeId
  publicKey := ""
  endpoint := none
  capabilities := ⟨.observerEdge, false, false⟩
  credentialSerial := ""
  credentialIssuerNodeId := ""
  credentialIssuerPublicKey := ""
  credentialIssuedAtUnixMs := 0
  credentialExpiresAtUnixMs := 0
  credentialSignature := ""
  negotiatedProtocol := ⟨1, 1, 1, "", "", []⟩
  joinedAtUnixMs := 0
  updatedAtUnixMs := updatedAtUnixMs
  state := state

def ops (requests : List ControlCommandRequest) : List Op :=
  (requests.zipIdx 1).map fun (request, i) => .command (command (BitVec.ofNat 128 i) request)

def after (s : ControlState) (ops : List Op) : ControlState :=
  ops.foldl (fun s op => (step env s op).getD s) s

def onePane : List ControlCommandRequest :=
  [create 1, .putTab (tab 1 1) 1, .putPane (pane 1 none) 2]

def assign : ControlCommand :=
  command 10 (.assignExecution ⟨1⟩ 3 0 (assignment 1) (some launchSpec))

def onePaneState : ControlState := after (.new "c") (ops onePane)

theorem foldlM_after {s : ControlState} {l : List Op} (h : (l.foldlM (step env) s).isSome = true) :
    l.foldlM (step env) s = some (after s l) := by
  induction l generalizing s with
  | nil => rfl
  | cons op l ih =>
    rw [List.foldlM_cons] at h ⊢
    cases hop : step env s op with
    | none => rw [hop] at h; cases h
    | some t =>
      rw [hop] at h
      have hnext : after s (op :: l) = after t l := by simp [after, hop]
      rw [hnext]
      exact ih h

theorem reachable_after {l : List Op} (h : (l.foldlM (step env) (.new "c")).isSome = true) :
    Reachable env (after (.new "c") l) := ⟨"c", Run.of_foldlM (foldlM_after h) fun _ _ => trivial⟩

end Sample

end Bmux.Control
