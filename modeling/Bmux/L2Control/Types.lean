import Bmux.L1Encoding.Canonical

/-!
# The records of the control plane

The types of plugins/cluster-plugin-api/bpdl/cluster-plugin.bpdl that the
replicated control state, its commands and their durable encodings are made
of. Identifiers stay one-field records, integers keep their width, and an
enumeration of the interface is an inductive type.
-/
namespace Bmux.Control
open Canonical

/-! ## Identifiers -/

structure WorkspaceId where
  value : Uuid
  deriving DecidableEq, Repr

structure LogicalTabId where
  value : Uuid
  deriving DecidableEq, Repr

structure LogicalPaneId where
  value : Uuid
  deriving DecidableEq, Repr

structure ExecutionId where
  value : Uuid
  deriving DecidableEq, Repr

structure CommandId where
  value : Uuid
  deriving DecidableEq, Repr

section
variable {v : Uuid}

@[simp] theorem LogicalTabId.eq_mk {t : LogicalTabId} : t = ⟨v⟩ ↔ t.value = v := by cases t; simp
@[simp] theorem LogicalPaneId.eq_mk {p : LogicalPaneId} : p = ⟨v⟩ ↔ p.value = v := by cases p; simp
@[simp] theorem ExecutionId.eq_mk {e : ExecutionId} : e = ⟨v⟩ ↔ e.value = v := by cases e; simp
@[simp] theorem CommandId.eq_mk {c : CommandId} : c = ⟨v⟩ ↔ c.value = v := by cases c; simp

end

/-! ## Members -/

inductive ClusterConsensusRole where
  | voter
  | observerEdge
  deriving DecidableEq, Repr

structure ClusterNodeCapabilities where
  consensusRole : ClusterConsensusRole
  worker : Bool
  ingress : Bool
  deriving DecidableEq, Repr

structure ClusterNegotiatedProtocol where
  wireEpoch : UInt16
  peerRevision : UInt32
  schemaVersion : UInt32
  localPluginVersion : String
  remotePluginVersion : String
  features : List String
  deriving DecidableEq, Repr

inductive ClusterMemberState where
  | active
  | revoked
  | left
  deriving DecidableEq, Repr

structure ClusterMember where
  clusterId : String
  nodeId : String
  publicKey : String
  endpoint : Option String
  capabilities : ClusterNodeCapabilities
  credentialSerial : String
  credentialIssuerNodeId : String
  credentialIssuerPublicKey : String
  credentialIssuedAtUnixMs : UInt64
  credentialExpiresAtUnixMs : UInt64
  credentialSignature : String
  negotiatedProtocol : ClusterNegotiatedProtocol
  joinedAtUnixMs : UInt64
  updatedAtUnixMs : UInt64
  state : ClusterMemberState
  deriving DecidableEq, Repr

/-! ## Workspaces, tabs and panes -/

inductive PaneRestartPolicy where
  | manual
  | never
  | onWorkerLoss
  deriving DecidableEq, Repr

inductive PaneAvailability where
  | pending
  | ready
  | suspect
  | unavailable
  | reconciling
  | replacing
  | exited
  | failed
  | quarantined
  deriving DecidableEq, Repr

structure PlacementLabel where
  key : String
  value : String
  deriving DecidableEq, Repr

structure PlacementIntent where
  explicitNodeId : Option String
  requiredLabels : List PlacementLabel
  preferredLabels : List PlacementLabel
  deriving DecidableEq, Repr

structure WorkerLaunchSpec where
  program : Option String
  args : List String
  cwd : Option String
  env : List PlacementLabel
  cols : UInt16
  rows : UInt16
  deriving DecidableEq, Repr

structure ExecutionAssignment where
  nodeId : String
  generation : UInt64
  executionId : ExecutionId
  deriving DecidableEq, Repr

structure WorkspaceRecord where
  workspaceId : WorkspaceId
  name : Option String
  revision : UInt64
  deriving DecidableEq, Repr

structure LogicalTabRecord where
  tabId : LogicalTabId
  workspaceId : WorkspaceId
  name : Option String
  layoutSchemaVersion : UInt32
  layout : Bytes
  revision : UInt64
  deriving DecidableEq, Repr

structure LogicalPaneRecord where
  paneId : LogicalPaneId
  workspaceId : WorkspaceId
  tabId : LogicalTabId
  name : Option String
  restartPolicy : PaneRestartPolicy
  placement : PlacementIntent
  availability : PaneAvailability
  availabilityReason : Option String
  execution : Option ExecutionAssignment
  revision : UInt64
  deriving DecidableEq, Repr

/-! ## Commands and responses -/

/-- mirrors plugins/cluster-plugin-api/bpdl/cluster-plugin.bpdl:350-363 -/
inductive ControlCommandRequest where
  | upsertMember (member : ClusterMember)
  | setMemberState (nodeId expectedCredentialSerial : String) (state : ClusterMemberState)
  | createWorkspace (workspaceId : WorkspaceId) (name : Option String)
  | renameWorkspace (workspaceId : WorkspaceId) (expectedRevision : UInt64) (name : Option String)
  | putTab (tab : LogicalTabRecord) (expectedWorkspaceRevision : UInt64)
  | removeTab (tabId : LogicalTabId) (expectedWorkspaceRevision : UInt64)
  | putPane (pane : LogicalPaneRecord) (expectedWorkspaceRevision : UInt64)
  | removePane (paneId : LogicalPaneId) (expectedRevision : UInt64)
      (expectedGeneration : Option UInt64)
  | assignExecution (paneId : LogicalPaneId) (expectedRevision expectedGeneration : UInt64)
      (assignment : ExecutionAssignment) (launchSpec : Option WorkerLaunchSpec)
  | setPaneAvailability (paneId : LogicalPaneId) (expectedRevision : UInt64)
      (assignment : ExecutionAssignment) (availability : PaneAvailability) (reason : Option String)
  | completeWorkflow (originalCommandId : CommandId) (response : Bytes)
  | pruneDedup (completedBeforeUnixMs : UInt64)
  deriving DecidableEq, Repr

structure ControlCommand where
  schemaVersion : UInt16
  principalId : String
  commandId : CommandId
  issuedAtUnixMs : UInt64
  request : ControlCommandRequest
  deriving DecidableEq, Repr

inductive ControlResourceKind where
  | member
  | workspace
  | tab
  | pane
  | execution
  | workflow
  deriving DecidableEq, Repr

/-- mirrors plugins/cluster-plugin-api/bpdl/cluster-plugin.bpdl:382-394 -/
inductive ControlCommandError where
  | commandIdConflict
  | notFound (resource : ControlResourceKind) (id : String)
  | alreadyExists (resource : ControlResourceKind) (id : String)
  | revisionConflict (expected current : UInt64)
  | generationConflict (expected current : UInt64)
  | invalidReference (resource : ControlResourceKind) (id : String)
  | invalidTransition (reason : String)
  | memberInactive (nodeId : String)
  | incompatibleSchema (supported received : UInt16)
  | quorumRequired
  | notLeader (leaderNodeId : Option String)
  deriving DecidableEq, Repr

inductive ControlWorkflowStatus where
  | complete
  | pending
  deriving DecidableEq, Repr

inductive ControlCommandResult where
  | accepted (payload : Bytes)
  | rejected (error : ControlCommandError)
  deriving DecidableEq, Repr

structure ControlResponse where
  schemaVersion : UInt16
  commandId : CommandId
  controlRevision : UInt64
  workflowStatus : ControlWorkflowStatus
  result : ControlCommandResult
  deriving DecidableEq, Repr

structure FeatureActivationCommand where
  principalId : String
  commandId : CommandId
  issuedAtUnixMs : UInt64
  expectedControlRevision : UInt64
  readSchemaFloor : UInt16
  writeSchemaFloor : UInt16
  feature : String
  deriving DecidableEq, Repr

structure ProtocolRefreshCommand where
  commandId : Uuid
  replacement : ClusterMember
  expectedSerial : String
  expectedRevision : UInt64
  nodeSignature : Bytes
  verifiedAtUnixMs : UInt64
  deriving DecidableEq, Repr

end Bmux.Control
