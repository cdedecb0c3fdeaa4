import Bmux.L2Control.Types

/-!
# Canonical encodings of the control records (`plugins/cluster-plugin/src/control_codec.rs`)

Writer and reader of every record a command or a snapshot is made of, in the
field order of the source. Each pair is followed by its law, a chain of the
laws of the fields. The only values a writer accepts and the reader refuses
are records whose lists are longer than `MAX_LIST_ITEMS`; `ListsBounded`
says that they are not.
-/
namespace Bmux.Control
open Canonical Wire Writer LawfulAs

variable {ε : Type}

/-! ## Enumerations -/

/-- mirrors plugins/cluster-plugin/src/control_codec.rs:916-922 -/
def memberStateTag : ClusterMemberState → UInt16
  | .active => 1
  | .revoked => 2
  | .left => 3

variable (tag : UInt16)

/-- mirrors plugins/cluster-plugin/src/control_codec.rs:924-934 -/
def memberStateOfTag : Option ClusterMemberState :=
  match tag with
  | 1 => some .active
  | 2 => some .revoked
  | 3 => some .left
  | _ => none

def encodeMemberState (state : ClusterMemberState) : Put ε := u16 (memberStateTag state)
def decodeMemberState : Get CodecError ClusterMemberState := Reader.tagged "member state" memberStateOfTag

def consensusRoleTag : ClusterConsensusRole → UInt16
  | .voter => 1
  | .observerEdge => 2

/-- mirrors plugins/cluster-plugin/src/control_codec.rs:866-876 -/
def consensusRoleOfTag : Option ClusterConsensusRole :=
  match tag with
  | 1 => some .voter
  | 2 => some .observerEdge
  | _ => none

/-- mirrors plugins/cluster-plugin/src/control_codec.rs:984-990 -/
def restartPolicyTag : PaneRestartPolicy → UInt16
  | .manual => 1
  | .never => 2
  | .onWorkerLoss => 3

/-- mirrors plugins/cluster-plugin/src/control_codec.rs:992-1002 -/
def restartPolicyOfTag : Option PaneRestartPolicy :=
  match tag with
  | 1 => some .manual
  | 2 => some .never
  | 3 => some .onWorkerLoss
  | _ => none

def encodeRestartPolicy (policy : PaneRestartPolicy) : Put ε := u16 (restartPolicyTag policy)
def decodeRestartPolicy : Get CodecError PaneRestartPolicy :=
  Reader.tagged "restart policy" restartPolicyOfTag

/-- mirrors plugins/cluster-plugin/src/control_codec.rs:1004-1016 -/
def availabilityTag : PaneAvailability → UInt16
  | .pending => 1
  | .ready => 2
  | .suspect => 3
  | .unavailable => 4
  | .reconciling => 5
  | .replacing => 6
  | .exited => 7
  | .failed => 8
  | .quarantined => 9

/-- mirrors plugins/cluster-plugin/src/control_codec.rs:1018-1034 -/
def availabilityOfTag : Option PaneAvailability :=
  match tag with
  | 1 => some .pending
  | 2 => some .ready
  | 3 => some .suspect
  | 4 => some .unavailable
  | 5 => some .reconciling
  | 6 => some .replacing
  | 7 => some .exited
  | 8 => some .failed
  | 9 => some .quarantined
  | _ => none

def encodeAvailability (availability : PaneAvailability) : Put ε :=
  u16 (availabilityTag availability)
def decodeAvailability : Get CodecError PaneAvailability :=
  Reader.tagged "pane availability" availabilityOfTag

/-- mirrors plugins/cluster-plugin/src/control_codec.rs:1134-1143 -/
def resourceKindTag : ControlResourceKind → UInt16
  | .member => 1
  | .workspace => 2
  | .tab => 3
  | .pane => 4
  | .execution => 5
  | .workflow => 6

/-- mirrors plugins/cluster-plugin/src/control_codec.rs:1145-1158 -/
def resourceKindOfTag : Option ControlResourceKind :=
  match tag with
  | 1 => some .member
  | 2 => some .workspace
  | 3 => some .tab
  | 4 => some .pane
  | 5 => some .execution
  | 6 => some .workflow
  | _ => none

def encodeResourceKind (kind : ControlResourceKind) : Put ε := u16 (resourceKindTag kind)
def decodeResourceKind : Get CodecError ControlResourceKind :=
  Reader.tagged "resource kind" resourceKindOfTag

theorem memberState_lawful : Lawful (encodeMemberState (ε := ε)) decodeMemberState := by
  refine tagged_lawful _ (fun a => by cases a <;> rfl) fun t a h => ?_
  unfold memberStateOfTag at h
  split at h <;> cases h <;> rfl

theorem consensusRole_lawful : Lawful (fun role => (u16 (consensusRoleTag role) : Put ε))
    (Reader.tagged "consensus role" consensusRoleOfTag) := by
  refine tagged_lawful _ (fun a => by cases a <;> rfl) fun t a h => ?_
  unfold consensusRoleOfTag at h
  split at h <;> cases h <;> rfl

theorem restartPolicy_lawful : Lawful (encodeRestartPolicy (ε := ε)) decodeRestartPolicy := by
  refine tagged_lawful _ (fun a => by cases a <;> rfl) fun t a h => ?_
  unfold restartPolicyOfTag at h
  split at h <;> cases h <;> rfl

theorem availability_lawful : Lawful (encodeAvailability (ε := ε)) decodeAvailability := by
  refine tagged_lawful _ (fun a => by cases a <;> rfl) fun t a h => ?_
  unfold availabilityOfTag at h
  split at h <;> cases h <;> rfl

theorem resourceKind_lawful : Lawful (encodeResourceKind (ε := ε)) decodeResourceKind := by
  refine tagged_lawful _ (fun a => by cases a <;> rfl) fun t a h => ?_
  unfold resourceKindOfTag at h
  split at h <;> cases h <;> rfl

/-! ## Members -/

def encodeCapabilities (capabilities : ClusterNodeCapabilities) : Put ε :=
  seq [u16 (consensusRoleTag capabilities.consensusRole), bool capabilities.worker,
    bool capabilities.ingress]

def decodeCapabilities : Get CodecError ClusterNodeCapabilities := do
  let consensusRole ← Reader.tagged "consensus role" consensusRoleOfTag
  let worker ← Reader.bool
  let ingress ← Reader.bool
  return { consensusRole, worker, ingress }

def encodeProtocol (protocol : ClusterNegotiatedProtocol) : Put ε :=
  seq [u16 protocol.wireEpoch, u32 protocol.peerRevision,
    u32 protocol.schemaVersion, string protocol.localPluginVersion,
    string protocol.remotePluginVersion, list string protocol.features]

def decodeProtocol : Get CodecError ClusterNegotiatedProtocol := do
  let wireEpoch ← Reader.u16
  let peerRevision ← Reader.u32
  let schemaVersion ← Reader.u32
  let localPluginVersion ← Reader.string
  let remotePluginVersion ← Reader.string
  let features ← Reader.list "feature list" MAX_LIST_ITEMS Reader.string
  return { wireEpoch, peerRevision, schemaVersion, localPluginVersion, remotePluginVersion, features }

def encodeMember (member : ClusterMember) : Put ε :=
  seq [string member.clusterId, string member.nodeId, string member.publicKey,
    optionalString member.endpoint, encodeCapabilities member.capabilities,
    string member.credentialSerial, string member.credentialIssuerNodeId,
    string member.credentialIssuerPublicKey, u64 member.credentialIssuedAtUnixMs,
    u64 member.credentialExpiresAtUnixMs, string member.credentialSignature,
    encodeProtocol member.negotiatedProtocol, u64 member.joinedAtUnixMs,
    u64 member.updatedAtUnixMs, encodeMemberState member.state]

/-- mirrors plugins/cluster-plugin/src/control_codec.rs:837-855 -/
def decodeMember : Get CodecError ClusterMember := do
  let clusterId ← Reader.string
  let nodeId ← Reader.string
  let publicKey ← Reader.string
  let endpoint ← Reader.optionalString
  let capabilities ← decodeCapabilities
  let credentialSerial ← Reader.string
  let credentialIssuerNodeId ← Reader.string
  let credentialIssuerPublicKey ← Reader.string
  let credentialIssuedAtUnixMs ← Reader.u64
  let credentialExpiresAtUnixMs ← Reader.u64
  let credentialSignature ← Reader.string
  let negotiatedProtocol ← decodeProtocol
  let joinedAtUnixMs ← Reader.u64
  let updatedAtUnixMs ← Reader.u64
  let state ← decodeMemberState
  return ⟨clusterId, nodeId, publicKey, endpoint, capabilities, credentialSerial,
    credentialIssuerNodeId, credentialIssuerPublicKey, credentialIssuedAtUnixMs,
    credentialExpiresAtUnixMs, credentialSignature, negotiatedProtocol, joinedAtUnixMs,
    updatedAtUnixMs, state⟩

@[simp] def ClusterNegotiatedProtocol.ListsBounded (p : ClusterNegotiatedProtocol) : Prop :=
  p.features.length ≤ MAX_LIST_ITEMS

@[simp] def ClusterMember.ListsBounded (m : ClusterMember) : Prop := m.negotiatedProtocol.ListsBounded

theorem boundedList_lawful {α : Type} {put : α → Put ε} {get : Get CodecError α} (name : String)
    (h : Lawful put get) : LawfulOn (fun l : List α => l.length ≤ MAX_LIST_ITEMS) (list put)
      (Reader.list name MAX_LIST_ITEMS get) :=
  (list_lawful name MAX_LIST_ITEMS (by decide) h).weaken fun _ => by simp

theorem optionalString_lawful : Lawful (optionalString (ε := ε)) Reader.optionalString :=
  (optional_lawful string_lawful).weaken fun _ => by simp

theorem optionalU64_lawful : Lawful (optionalU64 (ε := ε)) Reader.optionalU64 :=
  (optional_lawful u64_lawful).weaken fun _ => by simp

theorem capabilities_lawful : Lawful (encodeCapabilities (ε := ε)) decodeCapabilities :=
  toOn (.arg consensusRole_lawful <| .arg bool_lawful <|
    .arg bool_lawful .done) (fun x => by cases x; simp) rfl

theorem protocol_lawful :
    LawfulOn ClusterNegotiatedProtocol.ListsBounded (encodeProtocol (ε := ε)) decodeProtocol :=
  toOn (.arg u16_lawful <| .arg u32_lawful <| .arg u32_lawful <|
    .arg string_lawful <| .arg string_lawful <|
    .arg (boundedList_lawful "feature list" string_lawful) .done) (fun x => by cases x; simp) rfl

theorem member_lawful : LawfulOn ClusterMember.ListsBounded (encodeMember (ε := ε)) decodeMember :=
  toOn (.arg string_lawful <| .arg string_lawful <|
    .arg string_lawful <| .arg optionalString_lawful <|
    .arg capabilities_lawful <| .arg string_lawful <| .arg string_lawful <|
    .arg string_lawful <| .arg u64_lawful <| .arg u64_lawful <|
    .arg string_lawful <| .arg protocol_lawful <| .arg u64_lawful <|
    .arg u64_lawful <| .arg memberState_lawful .done) (fun x => by cases x; simp) rfl

/-! ## Tabs and panes -/

def encodeWorkspaceId (id : WorkspaceId) : Put ε := uuid id.value

def decodeWorkspaceId : Get CodecError WorkspaceId := do
  let value ← Reader.uuid
  return ⟨value⟩

def encodeWorkspace (workspace : WorkspaceRecord) : Put ε :=
  seq [encodeWorkspaceId workspace.workspaceId, optionalString workspace.name,
    u64 workspace.revision]

/-- mirrors plugins/cluster-plugin/src/control_codec.rs:1265-1271 -/
def decodeWorkspace : Get CodecError WorkspaceRecord := do
  let workspaceId ← decodeWorkspaceId
  let name ← Reader.optionalString
  let revision ← Reader.u64
  return { workspaceId, name, revision }

def encodeTab (tab : LogicalTabRecord) : Put ε :=
  seq [uuid tab.tabId.value, encodeWorkspaceId tab.workspaceId,
    optionalString tab.name, u32 tab.layoutSchemaVersion, bytes tab.layout,
    u64 tab.revision]

def decodeTab : Get CodecError LogicalTabRecord := do
  let tabId ← Reader.uuid
  let workspaceId ← decodeWorkspaceId
  let name ← Reader.optionalString
  let layoutSchemaVersion ← Reader.u32
  let layout ← Reader.bytes
  let revision ← Reader.u64
  return { tabId := ⟨tabId⟩, workspaceId, name, layoutSchemaVersion, layout, revision }

/-- mirrors plugins/cluster-plugin/src/control_codec.rs:755-761, the body of the loop -/
def encodeLabel (label : PlacementLabel) : Put ε := seq [string label.key, string label.value]
def encodeLabels (labels : List PlacementLabel) : Put ε := list encodeLabel labels

/-- mirrors plugins/cluster-plugin/src/control_codec.rs:763-773 -/
def decodeLabel : Get CodecError PlacementLabel := do
  let key ← Reader.string
  let value ← Reader.string
  return { key, value }
def decodeLabels : Get CodecError (List PlacementLabel) := Reader.list "label list" MAX_LIST_ITEMS decodeLabel

def encodePlacement (placement : PlacementIntent) : Put ε :=
  seq [optionalString placement.explicitNodeId, encodeLabels placement.requiredLabels,
    encodeLabels placement.preferredLabels]

def decodePlacement : Get CodecError PlacementIntent := do
  let explicitNodeId ← Reader.optionalString
  let requiredLabels ← decodeLabels
  let preferredLabels ← decodeLabels
  return { explicitNodeId, requiredLabels, preferredLabels }

def encodeAssignment (assignment : ExecutionAssignment) : Put ε :=
  seq [string assignment.nodeId, u64 assignment.generation,
    uuid assignment.executionId.value]

def decodeAssignment : Get CodecError ExecutionAssignment := do
  let nodeId ← Reader.string
  let generation ← Reader.u64
  let executionId ← Reader.uuid
  return { nodeId, generation, executionId := ⟨executionId⟩ }

def encodePane (pane : LogicalPaneRecord) : Put ε :=
  seq [uuid pane.paneId.value, uuid pane.workspaceId.value,
    uuid pane.tabId.value, optionalString pane.name,
    encodeRestartPolicy pane.restartPolicy, encodePlacement pane.placement,
    encodeAvailability pane.availability, optionalString pane.availabilityReason,
    optional encodeAssignment pane.execution, u64 pane.revision]

/-- mirrors plugins/cluster-plugin/src/control_codec.rs:718-739 -/
def decodePane : Get CodecError LogicalPaneRecord := do
  let paneId ← Reader.uuid
  let workspaceId ← decodeWorkspaceId
  let tabId ← Reader.uuid
  let name ← Reader.optionalString
  let restartPolicy ← decodeRestartPolicy
  let placement ← decodePlacement
  let availability ← decodeAvailability
  let availabilityReason ← Reader.optionalString
  let execution ← Reader.optional decodeAssignment
  let revision ← Reader.u64
  return ⟨⟨paneId⟩, workspaceId, ⟨tabId⟩, name, restartPolicy, placement, availability,
    availabilityReason, execution, revision⟩

def encodeLaunchSpecFields (spec : WorkerLaunchSpec) : Put ε :=
  seq [optionalString spec.program, list string spec.args,
    optionalString spec.cwd, encodeLabels spec.env, u16 spec.cols, u16 spec.rows]

def encodeLaunchSpec : Option WorkerLaunchSpec → Put ε := optional encodeLaunchSpecFields

/-- mirrors plugins/cluster-plugin/src/control_codec.rs:962-981 -/
def decodeLaunchSpecFields : Get CodecError WorkerLaunchSpec := do
  let program ← Reader.optionalString
  let args ← Reader.list "launch argument count" MAX_LIST_ITEMS Reader.string
  let cwd ← Reader.optionalString
  let env ← decodeLabels
  let cols ← Reader.u16
  let rows ← Reader.u16
  return { program, args, cwd, env, cols, rows }

def decodeLaunchSpec : Get CodecError (Option WorkerLaunchSpec) := Reader.optional decodeLaunchSpecFields

@[simp] def PlacementIntent.ListsBounded (p : PlacementIntent) : Prop :=
  p.requiredLabels.length ≤ MAX_LIST_ITEMS ∧ p.preferredLabels.length ≤ MAX_LIST_ITEMS

@[simp] def LogicalPaneRecord.ListsBounded (p : LogicalPaneRecord) : Prop := p.placement.ListsBounded

@[simp] def WorkerLaunchSpec.ListsBounded (s : WorkerLaunchSpec) : Prop :=
  s.args.length ≤ MAX_LIST_ITEMS ∧ s.env.length ≤ MAX_LIST_ITEMS

theorem workspaceId_lawful : Lawful (encodeWorkspaceId (ε := ε)) decodeWorkspaceId :=
  toOn (.arg uuid_lawful .done) (fun x => by cases x; simp) (funext fun _ => (seq_single _).symm)

theorem workspace_lawful : Lawful (encodeWorkspace (ε := ε)) decodeWorkspace :=
  toOn (.arg workspaceId_lawful <| .arg optionalString_lawful <|
    .arg u64_lawful .done) (fun x => by cases x; simp) rfl

theorem tab_lawful : Lawful (encodeTab (ε := ε)) decodeTab :=
  toOn (.arg uuid_lawful <| .arg workspaceId_lawful <|
    .arg optionalString_lawful <| .arg u32_lawful <| .arg bytes_lawful <|
    .arg u64_lawful .done) (fun x => by cases x; simp) rfl

theorem label_lawful : Lawful (encodeLabel (ε := ε)) decodeLabel :=
  toOn (.arg string_lawful <| .arg string_lawful .done) (fun x => by cases x; simp) rfl

theorem labels_lawful : LawfulOn (fun l : List PlacementLabel => l.length ≤ MAX_LIST_ITEMS)
    (encodeLabels (ε := ε)) decodeLabels := boundedList_lawful "label list" label_lawful

theorem placement_lawful :
    LawfulOn PlacementIntent.ListsBounded (encodePlacement (ε := ε)) decodePlacement :=
  toOn (.arg optionalString_lawful <| .arg labels_lawful <|
    .arg labels_lawful .done) (fun x => by cases x; simp) rfl

theorem assignment_lawful : Lawful (encodeAssignment (ε := ε)) decodeAssignment :=
  toOn (.arg string_lawful <| .arg u64_lawful <|
    .arg uuid_lawful .done) (fun x => by cases x; simp) rfl

theorem execution_lawful : Lawful (optional (encodeAssignment (ε := ε))) (Reader.optional decodeAssignment) :=
  (optional_lawful assignment_lawful).weaken fun _ => by simp

theorem pane_lawful : LawfulOn LogicalPaneRecord.ListsBounded (encodePane (ε := ε)) decodePane :=
  toOn (.arg uuid_lawful <| .arg workspaceId_lawful <|
    .arg uuid_lawful <| .arg optionalString_lawful <|
    .arg restartPolicy_lawful <| .arg placement_lawful <|
    .arg availability_lawful <| .arg optionalString_lawful <|
    .arg execution_lawful <| .arg u64_lawful .done) (fun x => by cases x; simp) rfl

theorem launchSpecFields_lawful :
    LawfulOn WorkerLaunchSpec.ListsBounded (encodeLaunchSpecFields (ε := ε)) decodeLaunchSpecFields :=
  toOn (.arg optionalString_lawful <|
    .arg (boundedList_lawful "launch argument count" string_lawful) <|
    .arg optionalString_lawful <| .arg labels_lawful <| .arg u16_lawful <|
    .arg u16_lawful .done) (fun x => by cases x; simp) rfl

theorem launchSpec_lawful : LawfulOn (fun v : Option WorkerLaunchSpec => ∀ s, v = some s → s.ListsBounded)
    (encodeLaunchSpec (ε := ε)) decodeLaunchSpec := optional_lawful launchSpecFields_lawful

end Bmux.Control
