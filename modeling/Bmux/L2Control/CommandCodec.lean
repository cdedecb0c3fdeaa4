import Bmux.L2Control.RecordCodec

/-!
# Canonical commands, responses and feature activations (`plugins/cluster-plugin/src/control_codec.rs`)

A control command is proposed to consensus as `BMCMD001`, its schema version
and its fields; the deduplication fingerprint hashes the request part of the
same encoding. A response is `BMRES001`, a feature activation `BMCMD002`.

Results:
* `encodeRequest_inj`: two requests within the limits have different
  fingerprint inputs.
* `command_canonical`, `response_canonical`, `feature_canonical`: each
  decoder inverts its encoder, accepts nothing else and never panics.
-/
namespace Bmux.Control
open Canonical Wire Writer
open LawfulAs (toOn)

variable {ε : Type}

/-! ## Requests -/

/-- mirrors plugins/cluster-plugin/src/control_codec.rs:481-589 -/
def encodeRequest : ControlCommandRequest → Put ε
  | .upsertMember member => seq [u16 1, encodeMember member]
  | .setMemberState nodeId expectedCredentialSerial state =>
    seq [u16 2, string nodeId, string expectedCredentialSerial,
      encodeMemberState state]
  | .createWorkspace workspaceId name =>
    seq [u16 3, encodeWorkspaceId workspaceId, optionalString name]
  | .renameWorkspace workspaceId expectedRevision name =>
    seq [u16 4, encodeWorkspaceId workspaceId, u64 expectedRevision,
      optionalString name]
  | .putTab tab expectedWorkspaceRevision =>
    seq [u16 5, encodeTab tab, u64 expectedWorkspaceRevision]
  | .removeTab tabId expectedWorkspaceRevision =>
    seq [u16 6, uuid tabId.value, u64 expectedWorkspaceRevision]
  | .putPane pane expectedWorkspaceRevision =>
    seq [u16 7, encodePane pane, u64 expectedWorkspaceRevision]
  | .removePane paneId expectedRevision expectedGeneration =>
    seq [u16 8, uuid paneId.value, u64 expectedRevision,
      optionalU64 expectedGeneration]
  | .assignExecution paneId expectedRevision expectedGeneration assignment launchSpec =>
    seq [u16 9, uuid paneId.value, u64 expectedRevision,
      u64 expectedGeneration, encodeAssignment assignment, encodeLaunchSpec launchSpec]
  | .setPaneAvailability paneId expectedRevision assignment availability reason =>
    seq [u16 10, uuid paneId.value, u64 expectedRevision,
      encodeAssignment assignment, encodeAvailability availability, optionalString reason]
  | .completeWorkflow originalCommandId response =>
    seq [u16 11, uuid originalCommandId.value, bytes response]
  | .pruneDedup completedBeforeUnixMs => seq [u16 12, u64 completedBeforeUnixMs]

variable (supported : UInt16 → Bool) (tag : UInt16)

/-- mirrors plugins/cluster-plugin/src/control_codec.rs:592-664, the arms of the match -/
def decodeRequestBody : Get CodecError ControlCommandRequest :=
  match tag with
  | 1 => do
    let member ← decodeMember
    return .upsertMember member
  | 2 => do
    let nodeId ← Reader.string
    let expectedCredentialSerial ← Reader.string
    let state ← decodeMemberState
    return .setMemberState nodeId expectedCredentialSerial state
  | 3 => do
    let workspaceId ← decodeWorkspaceId
    let name ← Reader.optionalString
    return .createWorkspace workspaceId name
  | 4 => do
    let workspaceId ← decodeWorkspaceId
    let expectedRevision ← Reader.u64
    let name ← Reader.optionalString
    return .renameWorkspace workspaceId expectedRevision name
  | 5 => do
    let tab ← decodeTab
    let expectedWorkspaceRevision ← Reader.u64
    return .putTab tab expectedWorkspaceRevision
  | 6 => do
    let tabId ← Reader.uuid
    let expectedWorkspaceRevision ← Reader.u64
    return .removeTab ⟨tabId⟩ expectedWorkspaceRevision
  | 7 => do
    let pane ← decodePane
    let expectedWorkspaceRevision ← Reader.u64
    return .putPane pane expectedWorkspaceRevision
  | 8 => do
    let paneId ← Reader.uuid
    let expectedRevision ← Reader.u64
    let expectedGeneration ← Reader.optionalU64
    return .removePane ⟨paneId⟩ expectedRevision expectedGeneration
  | 9 => do
    let paneId ← Reader.uuid
    let expectedRevision ← Reader.u64
    let expectedGeneration ← Reader.u64
    let assignment ← decodeAssignment
    let launchSpec ← decodeLaunchSpec
    return .assignExecution ⟨paneId⟩ expectedRevision expectedGeneration assignment launchSpec
  | 10 => do
    let paneId ← Reader.uuid
    let expectedRevision ← Reader.u64
    let assignment ← decodeAssignment
    let availability ← decodeAvailability
    let reason ← Reader.optionalString
    return .setPaneAvailability ⟨paneId⟩ expectedRevision assignment availability reason
  | 11 => do
    let originalCommandId ← Reader.uuid
    let response ← Reader.bytes
    return .completeWorkflow ⟨originalCommandId⟩ response
  | 12 => do
    let completedBeforeUnixMs ← Reader.u64
    return .pruneDedup completedBeforeUnixMs
  | tag => fail (.invalidTag "control command" tag)

def decodeRequest : Get CodecError ControlCommandRequest := do
  let tag ← Reader.u16
  decodeRequestBody tag

def requestTag : ControlCommandRequest → UInt16
  | .upsertMember .. => 1
  | .setMemberState .. => 2
  | .createWorkspace .. => 3
  | .renameWorkspace .. => 4
  | .putTab .. => 5
  | .removeTab .. => 6
  | .putPane .. => 7
  | .removePane .. => 8
  | .assignExecution .. => 9
  | .setPaneAvailability .. => 10
  | .completeWorkflow .. => 11
  | .pruneDedup .. => 12

def requestFields : ControlCommandRequest → List (Put ε)
  | .upsertMember m => [encodeMember m]
  | .setMemberState n s st => [string n, string s, encodeMemberState st]
  | .createWorkspace w n => [encodeWorkspaceId w, optionalString n]
  | .renameWorkspace w r n => [encodeWorkspaceId w, u64 r, optionalString n]
  | .putTab t r => [encodeTab t, u64 r]
  | .removeTab t r => [uuid t.value, u64 r]
  | .putPane p r => [encodePane p, u64 r]
  | .removePane p r g => [uuid p.value, u64 r, optionalU64 g]
  | .assignExecution p r g a s =>
    [uuid p.value, u64 r, u64 g, encodeAssignment a, encodeLaunchSpec s]
  | .setPaneAvailability p r a v n =>
    [uuid p.value, u64 r, encodeAssignment a, encodeAvailability v, optionalString n]
  | .completeWorkflow c b => [uuid c.value, bytes b]
  | .pruneDedup t => [u64 t]

theorem encodeRequest_eq (r : ControlCommandRequest) :
    (encodeRequest r : Put ε) = seq (u16 (requestTag r) :: requestFields r) := by
  cases r <;> rfl

@[simp] def ControlCommandRequest.ListsBounded : ControlCommandRequest → Prop
  | .upsertMember m => m.ListsBounded
  | .putPane p _ => p.ListsBounded
  | .assignExecution _ _ _ _ spec => ∀ s, spec = some s → s.ListsBounded
  | _ => True

theorem requestBody_lawful (t : UInt16) :
    LawfulOn (fun r : ControlCommandRequest => r.ListsBounded ∧ requestTag r = t)
      (fun r => seq (requestFields r : List (Put ε))) (decodeRequestBody t) := by
  unfold decodeRequestBody
  split
  case' h_1 => refine toOn (.arg member_lawful .done) ?_ rfl
  case' h_2 => refine toOn (.arg string_lawful <| .arg string_lawful <| .arg memberState_lawful .done) ?_ rfl
  case' h_3 => refine toOn (.arg workspaceId_lawful <| .arg optionalString_lawful .done) ?_ rfl
  case' h_4 => refine toOn (.arg workspaceId_lawful <| .arg u64_lawful <| .arg optionalString_lawful .done) ?_ rfl
  case' h_5 => refine toOn (.arg tab_lawful <| .arg u64_lawful .done) ?_ rfl
  case' h_6 => refine toOn (.arg uuid_lawful <| .arg u64_lawful .done) ?_ rfl
  case' h_7 => refine toOn (.arg pane_lawful <| .arg u64_lawful .done) ?_ rfl
  case' h_8 => refine toOn (.arg uuid_lawful <| .arg u64_lawful <| .arg optionalU64_lawful .done) ?_ rfl
  case' h_9 => refine toOn (.arg uuid_lawful <| .arg u64_lawful <| .arg u64_lawful <| .arg assignment_lawful <|
    .arg launchSpec_lawful .done) ?_ rfl
  case' h_10 => refine toOn (.arg uuid_lawful <| .arg u64_lawful <| .arg assignment_lawful <|
    .arg availability_lawful <| .arg optionalString_lawful .done) ?_ rfl
  case' h_11 => refine toOn (.arg uuid_lawful <| .arg bytes_lawful .done) ?_ rfl
  case' h_12 => refine toOn (.arg u64_lawful .done) ?_ rfl
  case h_13 =>
    refine LawfulAs.fail fun r hr => ?_
    cases r <;> simp_all [requestTag]
  -- a request of the tag is the one that is read
  all_goals
    intro r
    cases r <;> simp [requestTag]

theorem request_lawful :
    LawfulOn ControlCommandRequest.ListsBounded (encodeRequest (ε := ε)) decodeRequest := by
  refine LawfulAs.congr ?_ fun r _ => encodeRequest_eq r
  exact LawfulAs.bind requestTag u16_lawful (fun _ _ => trivial) fun t _ => requestBody_lawful t

/-! ## Errors and responses -/

/-- mirrors plugins/cluster-plugin/src/control_codec.rs:1036-1086 -/
def encodeError : ControlCommandError → Put ε
  | .commandIdConflict => seq [u16 1]
  | .notFound resource id => seq [u16 2, encodeResourceKind resource, string id]
  | .alreadyExists resource id => seq [u16 3, encodeResourceKind resource, string id]
  | .revisionConflict expected current => seq [u16 4, u64 expected, u64 current]
  | .generationConflict expected current => seq [u16 5, u64 expected, u64 current]
  | .invalidReference resource id => seq [u16 6, encodeResourceKind resource, string id]
  | .invalidTransition reason => seq [u16 7, string reason]
  | .memberInactive nodeId => seq [u16 8, string nodeId]
  | .incompatibleSchema supported received =>
    seq [u16 9, u16 supported, u16 received]
  | .quorumRequired => seq [u16 10]
  | .notLeader leaderNodeId => seq [u16 11, optionalString leaderNodeId]

/-- mirrors plugins/cluster-plugin/src/control_codec.rs:1089-1131, the arms of the match -/
def decodeErrorBody : Get CodecError ControlCommandError :=
  match tag with
  | 1 => return .commandIdConflict
  | 2 => do
    let resource ← decodeResourceKind
    let id ← Reader.string
    return .notFound resource id
  | 3 => do
    let resource ← decodeResourceKind
    let id ← Reader.string
    return .alreadyExists resource id
  | 4 => do
    let expected ← Reader.u64
    let current ← Reader.u64
    return .revisionConflict expected current
  | 5 => do
    let expected ← Reader.u64
    let current ← Reader.u64
    return .generationConflict expected current
  | 6 => do
    let resource ← decodeResourceKind
    let id ← Reader.string
    return .invalidReference resource id
  | 7 => do
    let reason ← Reader.string
    return .invalidTransition reason
  | 8 => do
    let nodeId ← Reader.string
    return .memberInactive nodeId
  | 9 => do
    let supported ← Reader.u16
    let received ← Reader.u16
    return .incompatibleSchema supported received
  | 10 => return .quorumRequired
  | 11 => do
    let leaderNodeId ← Reader.optionalString
    return .notLeader leaderNodeId
  | tag => fail (.invalidTag "control error" tag)

def decodeError : Get CodecError ControlCommandError := do
  let tag ← Reader.u16
  decodeErrorBody tag

def errorTag : ControlCommandError → UInt16
  | .commandIdConflict => 1
  | .notFound .. => 2
  | .alreadyExists .. => 3
  | .revisionConflict .. => 4
  | .generationConflict .. => 5
  | .invalidReference .. => 6
  | .invalidTransition .. => 7
  | .memberInactive .. => 8
  | .incompatibleSchema .. => 9
  | .quorumRequired => 10
  | .notLeader .. => 11

def errorFields : ControlCommandError → List (Put ε)
  | .commandIdConflict | .quorumRequired => []
  | .notFound k id | .alreadyExists k id | .invalidReference k id =>
    [encodeResourceKind k, string id]
  | .revisionConflict e c | .generationConflict e c => [u64 e, u64 c]
  | .invalidTransition s | .memberInactive s => [string s]
  | .incompatibleSchema s r => [u16 s, u16 r]
  | .notLeader l => [optionalString l]

theorem encodeError_eq (e : ControlCommandError) :
    (encodeError e : Put ε) = seq (u16 (errorTag e) :: errorFields e) := by
  cases e <;> rfl

theorem errorBody_lawful (t : UInt16) : LawfulOn (fun e : ControlCommandError => errorTag e = t)
    (fun e => seq (errorFields e : List (Put ε))) (decodeErrorBody t) := by
  unfold decodeErrorBody
  split
  case' h_1 => refine toOn .done ?_ rfl
  case' h_2 => refine toOn (.arg resourceKind_lawful <| .arg string_lawful .done) ?_ rfl
  case' h_3 => refine toOn (.arg resourceKind_lawful <| .arg string_lawful .done) ?_ rfl
  case' h_4 => refine toOn (.arg u64_lawful <| .arg u64_lawful .done) ?_ rfl
  case' h_5 => refine toOn (.arg u64_lawful <| .arg u64_lawful .done) ?_ rfl
  case' h_6 => refine toOn (.arg resourceKind_lawful <| .arg string_lawful .done) ?_ rfl
  case' h_7 => refine toOn (.arg string_lawful .done) ?_ rfl
  case' h_8 => refine toOn (.arg string_lawful .done) ?_ rfl
  case' h_9 => refine toOn (.arg u16_lawful <| .arg u16_lawful .done) ?_ rfl
  case' h_10 => refine toOn .done ?_ rfl
  case' h_11 => refine toOn (.arg optionalString_lawful .done) ?_ rfl
  case h_12 =>
    refine LawfulAs.fail fun e he => ?_
    cases e <;> simp_all [errorTag]
  -- an error of the tag is the one that is read
  all_goals
    intro r
    cases r <;> simp [errorTag]

theorem error_lawful : Lawful (encodeError (ε := ε)) decodeError := by
  refine LawfulAs.congr ?_ fun e _ => encodeError_eq e
  refine LawfulAs.bind errorTag u16_lawful (fun _ _ => trivial) fun t _ => ?_
  exact (errorBody_lawful t).weaken fun e => by simp

def CONTROL_SCHEMA_VERSION : UInt16 := 1
def FEATURE_SCHEMA_VERSION : UInt16 := 2

def workflowStatusTag : ControlWorkflowStatus → UInt16
  | .complete => 1
  | .pending => 2

/-- mirrors plugins/cluster-plugin/src/control_codec.rs:290-299 -/
def workflowStatusOfTag : Option ControlWorkflowStatus :=
  match tag with
  | 1 => some .complete
  | 2 => some .pending
  | _ => none

def encodeResult : ControlCommandResult → Put ε
  | .accepted payload => seq [u16 1, bytes payload]
  | .rejected error => seq [u16 2, encodeError error]

/-- mirrors plugins/cluster-plugin/src/control_codec.rs:300-313, the arms of the match -/
def decodeResultBody : Get CodecError ControlCommandResult :=
  match tag with
  | 1 => do
    let payload ← Reader.bytes
    return .accepted payload
  | 2 => do
    let error ← decodeError
    return .rejected error
  | tag => fail (.invalidTag "command result" tag)

def decodeResult : Get CodecError ControlCommandResult := do
  let tag ← Reader.u16
  decodeResultBody tag

def encodeStateResponse (response : ControlResponse) : Put ε :=
  seq [u16 response.schemaVersion, uuid response.commandId.value,
    u64 response.controlRevision, u16 (workflowStatusTag response.workflowStatus),
    encodeResult response.result]

def decodeSchema : Get CodecError UInt16 := do
  let schemaVersion ← Reader.u16
  if supported schemaVersion then return schemaVersion
  else fail (.unsupportedSchema schemaVersion)

def responseSchemaSupported (schemaVersion : UInt16) : Bool :=
  CONTROL_SCHEMA_VERSION ≤ schemaVersion && schemaVersion ≤ FEATURE_SCHEMA_VERSION

def decodeStateResponse : Get CodecError ControlResponse := do
  let schemaVersion ← decodeSchema responseSchemaSupported
  let commandId ← Reader.uuid
  let controlRevision ← Reader.u64
  let workflowStatus ← Reader.tagged "workflow status" workflowStatusOfTag
  let result ← decodeResult
  return { schemaVersion, commandId := ⟨commandId⟩, controlRevision, workflowStatus, result }

theorem schema_lawful : LawfulOn (fun v => supported v = true) (u16 (ε := ε)) (decodeSchema supported) := by
  refine LawfulAs.single ?_
  refine LawfulAs.guard id u16_lawful (fun v hv => ⟨trivial, hv⟩) fun v _ hv => ?_
  exact LawfulAs.pure (fun _ hb => hb.2) ⟨hv, rfl⟩

theorem workflowStatus_lawful : Lawful (fun status => (u16 (workflowStatusTag status) : Put ε))
    (Reader.tagged "workflow status" workflowStatusOfTag) := by
  refine tagged_lawful _ (fun a => by cases a <;> rfl) fun t a h => ?_
  unfold workflowStatusOfTag at h
  split at h <;> cases h <;> rfl

theorem result_lawful : Lawful (encodeResult (ε := ε)) decodeResult := by
  have heq : ∀ r, (encodeResult r : Put ε) =
      seq [u16 (match r with | .accepted _ => 1 | .rejected _ => 2),
        match r with | .accepted p => bytes p | .rejected e => encodeError e] := by
    intro r; cases r <;> rfl
  refine LawfulAs.congr ?_ fun r _ => heq r
  refine LawfulAs.bind _ u16_lawful (fun _ _ => trivial) fun t _ => ?_
  unfold decodeResultBody
  split
  · exact toOn (.arg bytes_lawful .done) (fun x => by cases x <;> simp) rfl
  · exact toOn (.arg error_lawful .done) (fun x => by cases x <;> simp) rfl
  · refine LawfulAs.fail fun r hr => ?_
    cases r <;> simp_all

theorem stateResponse_lawful :
    LawfulOn (fun r : ControlResponse => responseSchemaSupported r.schemaVersion = true)
      (encodeStateResponse (ε := ε)) decodeStateResponse :=
  toOn (.arg (schema_lawful _) <| .arg uuid_lawful <| .arg u64_lawful <|
    .arg workflowStatus_lawful <| .arg result_lawful .done) (fun x => by cases x; simp) rfl

/-! ## Field limits -/

def validateString (value : String) : Except CodecError Unit :=
  if (utf8 value).length > MAX_STRING_BYTES then .error (.limitExceeded "string") else .ok ()

def validateBytes (value : Bytes) : Except CodecError Unit :=
  if value.length > MAX_BYTES then .error (.limitExceeded "byte field") else .ok ()

def validateOptionalString : Option String → Except CodecError Unit
  | some value => validateString value
  | none => .ok ()

def validateMember (member : ClusterMember) : Except CodecError Unit := do
  [member.clusterId, member.nodeId, member.publicKey, member.credentialSerial,
    member.credentialIssuerNodeId, member.credentialIssuerPublicKey, member.credentialSignature,
    member.negotiatedProtocol.localPluginVersion,
    member.negotiatedProtocol.remotePluginVersion].forM validateString
  validateOptionalString member.endpoint
  if member.negotiatedProtocol.features.length > MAX_LIST_ITEMS then
    .error (.limitExceeded "feature list")
  else member.negotiatedProtocol.features.forM validateString

def validateAssignment (assignment : ExecutionAssignment) : Except CodecError Unit :=
  validateString assignment.nodeId

/-- mirrors plugins/cluster-plugin/src/control_codec.rs:426-429, the body of the loop -/
def validateLabel (label : PlacementLabel) : Except CodecError Unit := do
  validateString label.key
  validateString label.value

def validateLabels (labels : List PlacementLabel) : Except CodecError Unit :=
  if labels.length > MAX_LIST_ITEMS then .error (.limitExceeded "label list")
  else labels.forM validateLabel

def validatePane (pane : LogicalPaneRecord) : Except CodecError Unit := do
  validateOptionalString pane.name
  validateOptionalString pane.availabilityReason
  validateOptionalString pane.placement.explicitNodeId
  validateLabels pane.placement.requiredLabels
  validateLabels pane.placement.preferredLabels
  match pane.execution with
  | some assignment => validateAssignment assignment
  | none => .ok ()

def validateTab (tab : LogicalTabRecord) : Except CodecError Unit := do
  validateOptionalString tab.name
  validateBytes tab.layout

/-- mirrors plugins/cluster-plugin/src/control_codec.rs:377-391 -/
def validateLaunchSpec : Option WorkerLaunchSpec → Except CodecError Unit
  | some spec => do
    validateOptionalString spec.program
    validateOptionalString spec.cwd
    if spec.args.length > MAX_LIST_ITEMS ∨ spec.env.length > MAX_LIST_ITEMS then
      .error (.limitExceeded "launch spec items")
    else do
      spec.args.forM validateString
      spec.env.forM validateLabel
  | none => .ok ()

/-- mirrors plugins/cluster-plugin/src/control_codec.rs:352-402 -/
def validateRequest : ControlCommandRequest → Except CodecError Unit
  | .upsertMember member => validateMember member
  | .setMemberState nodeId expectedCredentialSerial _ => do
    validateString nodeId
    validateString expectedCredentialSerial
  | .createWorkspace _ name | .renameWorkspace _ _ name => validateOptionalString name
  | .putTab tab _ => validateTab tab
  | .removeTab .. | .removePane .. | .pruneDedup .. => .ok ()
  | .putPane pane _ => validatePane pane
  | .assignExecution _ _ _ assignment launchSpec => do
    validateAssignment assignment
    validateLaunchSpec launchSpec
  | .setPaneAvailability _ _ assignment _ reason => do
    validateAssignment assignment
    validateOptionalString reason
  | .completeWorkflow _ response => validateBytes response

def validateCommand (command : ControlCommand) : Except CodecError Unit := do
  validateString command.principalId
  validateRequest command.request

/-! The limits checked by `validate_*` are those the writer asserts and the
reader enforces. -/

@[simp] theorem both_ok {x y : Except CodecError Unit} :
    (x >>= fun _ => y) = .ok () ↔ x = .ok () ∧ y = .ok () := by
  cases x <;> simp [bind, Except.bind]

@[simp] theorem forM_ok {α : Type} {f : α → Except CodecError Unit} {l : List α} :
    forM l f = .ok () ↔ ∀ a ∈ l, f a = .ok () := forM_eq_ok

@[simp] theorem check_ok {p : Prop} [Decidable p] {e : CodecError} {x : Except CodecError Unit} :
    (if p then .error e else x) = .ok () ↔ ¬ p ∧ x = .ok () := by
  split <;> simp_all

@[simp] theorem validateString_ok {s : String} :
    validateString s = .ok () ↔ (utf8 s).length ≤ MAX_STRING_BYTES := by simp [validateString]

variable {b : Bytes}

@[simp] theorem validateBytes_ok : validateBytes b = .ok () ↔ b.length ≤ MAX_BYTES := by
  simp [validateBytes]

@[simp] theorem validateOptionalString_ok {v : Option String} :
    validateOptionalString v = .ok () ↔ ∀ s, v = some s → (utf8 s).length ≤ MAX_STRING_BYTES := by
  cases v <;> simp [validateOptionalString]

theorem lt_of_le_maxListItems {n : Nat} (h : n ≤ MAX_LIST_ITEMS) : n < 2 ^ 32 := by
  unfold MAX_LIST_ITEMS at h; omega

theorem writes_boundedList {α : Type} {p : α → Put ε} {l : List α} :
    l.length ≤ MAX_LIST_ITEMS ∧ Writes (list p l) ↔
      l.length ≤ MAX_LIST_ITEMS ∧ ∀ a ∈ l, Writes (p a) := by
  rw [writes_list]
  have : l.length ≤ MAX_LIST_ITEMS → l.length < 2 ^ 32 := lt_of_le_maxListItems
  tauto

@[simp] theorem writes_memberState (s : ClusterMemberState) : Writes (encodeMemberState s : Put ε) :=
  writes_u16 _

@[simp] theorem writes_capabilities (c : ClusterNodeCapabilities) :
    Writes (encodeCapabilities c : Put ε) := by simp [encodeCapabilities]

theorem validateMember_ok {m : ClusterMember} :
    validateMember m = .ok () ↔ m.ListsBounded ∧ Writes (encodeMember m : Put ε) := by
  have h := writes_boundedList (ε := ε) (p := string) (l := m.negotiatedProtocol.features)
  simp only [writes_string] at h
  simp [validateMember, encodeMember, encodeProtocol]
  tauto

theorem validateLabel_ok {l : PlacementLabel} :
    validateLabel l = .ok () ↔ Writes (encodeLabel l : Put ε) := by
  simp [validateLabel, encodeLabel]

theorem validateLabels_ok {ls : List PlacementLabel} : validateLabels ls = .ok () ↔
    ls.length ≤ MAX_LIST_ITEMS ∧ Writes (encodeLabels ls : Put ε) := by
  rw [encodeLabels, writes_boundedList]
  simp [validateLabels, validateLabel_ok (ε := ε)]

theorem validateAssignment_ok {a : ExecutionAssignment} :
    validateAssignment a = .ok () ↔ Writes (encodeAssignment a : Put ε) := by
  simp [validateAssignment, encodeAssignment]

@[simp] theorem writes_restartPolicy (p : PaneRestartPolicy) : Writes (encodeRestartPolicy p : Put ε) :=
  writes_u16 _

@[simp] theorem writes_availability (a : PaneAvailability) : Writes (encodeAvailability a : Put ε) :=
  writes_u16 _

@[simp] theorem writes_workspaceId (w : WorkspaceId) : Writes (encodeWorkspaceId w : Put ε) :=
  writes_uuid _

theorem validatePane_ok {p : LogicalPaneRecord} :
    validatePane p = .ok () ↔ p.ListsBounded ∧ Writes (encodePane p : Put ε) := by
  have hx : (match p.execution with
      | some assignment => validateAssignment assignment
      | none => .ok ()) = .ok () ↔ Writes (Writer.optional (encodeAssignment (ε := ε)) p.execution) := by
    cases p.execution <;> simp [Writer.optional, validateAssignment_ok (ε := ε)]
  simp [validatePane, encodePane, encodePlacement, validateLabels_ok (ε := ε), hx]
  tauto

theorem validateTab_ok {t : LogicalTabRecord} :
    validateTab t = .ok () ↔ Writes (encodeTab t : Put ε) := by
  simp [validateTab, encodeTab]

theorem validateLaunchSpec_ok {v : Option WorkerLaunchSpec} : validateLaunchSpec v = .ok () ↔
    (∀ s, v = some s → s.ListsBounded) ∧ Writes (encodeLaunchSpec v : Put ε) := by
  cases v with
  | none => simp [validateLaunchSpec, encodeLaunchSpec, Writer.optional]
  | some s =>
    have h1 := writes_boundedList (ε := ε) (p := Writer.string) (l := s.args)
    have h2 := writes_boundedList (ε := ε) (p := encodeLabel) (l := s.env)
    simp only [Writer.writes_string] at h1
    simp [validateLaunchSpec, encodeLaunchSpec, Writer.optional, encodeLaunchSpecFields, encodeLabels,
      validateLabel_ok (ε := ε)]
    tauto

theorem validateRequest_ok {r : ControlCommandRequest} :
    validateRequest r = .ok () ↔ r.ListsBounded ∧ Writes (encodeRequest r : Put ε) := by
  cases r with
  | upsertMember m => simp [validateRequest, encodeRequest, validateMember_ok (ε := ε)]
  | putTab t _ => simp [validateRequest, encodeRequest, validateTab_ok (ε := ε)]
  | putPane p _ => simp [validateRequest, encodeRequest, validatePane_ok (ε := ε)]
  | assignExecution p r g a s =>
    simp [validateRequest, encodeRequest, validateLaunchSpec_ok (ε := ε), validateAssignment_ok (ε := ε)]
    tauto
  | setPaneAvailability p r a v n =>
    simp [validateRequest, encodeRequest, validateAssignment_ok (ε := ε)]
  | _ => simp [validateRequest, encodeRequest]

theorem encodeRequest_inj {r r' : ControlCommandRequest} (hr : r.ListsBounded)
    (hr' : r'.ListsBounded) (hb : (encodeRequest r : Put ε) = .ok b)
    (hb' : (encodeRequest r' : Put ε) = .ok b) : r = r' := by
  have h1 := request_lawful.roundtrip [] hr hb
  have h2 := request_lawful.roundtrip [] hr' hb'
  rw [h1] at h2
  simp only [Except.ok.injEq, Prod.mk.injEq, and_true] at h2
  exact h2

/-! ## Commands -/

/-- A write behind `validate(..).expect(..)`. -/
def expectValid (check : Except CodecError Unit) (put : Put ε) : Put ε :=
  match check with
  | .ok () => put
  | .error _ => .error .panicked

theorem expectValid_ok {check : Except CodecError Unit} {put : Put ε} :
    expectValid check put = .ok b ↔ check = .ok () ∧ put = .ok b := by
  cases check <;> simp [expectValid]

def CODEC_MAGIC : Bytes := [66, 77, 67, 77, 68, 48, 48, 49]

def FEATURE_COMMAND_MAGIC : Bytes := [66, 77, 67, 77, 68, 48, 48, 50]

def RESPONSE_MAGIC : Bytes := [66, 77, 82, 69, 83, 48, 48, 49]

variable (command : ControlCommand)

/-- mirrors plugins/cluster-plugin/src/control_codec.rs:57-62, the hashed bytes -/
def fingerprintInput : Put ε :=
  expectValid (validateCommand command) (encodeRequest command.request)

def requestFingerprint (sha256 : Bytes → Digest) (command : ControlCommand) : Outcome ε Digest :=
  (fingerprintInput command).map sha256

def encodeCommandFields : Put ε :=
  seq [raw CODEC_MAGIC, u16 command.schemaVersion, string command.principalId,
    uuid command.commandId.value, u64 command.issuedAtUnixMs,
    encodeRequest command.request]

def encodeControlCommand : Put ε :=
  expectValid (validateCommand command) (encodeCommandFields command)

def decodeCommandFields : Get CodecError ControlCommand := do
  Reader.magic CODEC_MAGIC
  let schemaVersion ← decodeSchema (· == CONTROL_SCHEMA_VERSION)
  let principalId ← Reader.string
  let commandId ← Reader.uuid
  let issuedAtUnixMs ← Reader.u64
  let request ← decodeRequest
  return { schemaVersion, principalId, commandId := ⟨commandId⟩, issuedAtUnixMs, request }

def decodeControlCommand (bytes : Bytes) : Outcome CodecError ControlCommand :=
  Reader.whole decodeCommandFields bytes

theorem commandFields_lawful : LawfulOn
    (fun c : ControlCommand => c.schemaVersion = CONTROL_SCHEMA_VERSION ∧ c.request.ListsBounded)
    (encodeCommandFields (ε := ε)) decodeCommandFields :=
  toOn (.arg (magic_lawful CODEC_MAGIC) <| .arg (schema_lawful _) <|
    .arg string_lawful <| .arg uuid_lawful <| .arg u64_lawful <|
    .arg request_lawful .done) (fun x => by cases x; simp) rfl

theorem validateCommand_ok {c : ControlCommand} : validateCommand c = .ok () ↔
    c.request.ListsBounded ∧ Writes (encodeCommandFields c : Put ε) := by
  simp [validateCommand, encodeCommandFields, validateRequest_ok (ε := ε)]
  tauto

theorem command_canonical : CanonicalCodec
    (fun c : ControlCommand => c.schemaVersion = CONTROL_SCHEMA_VERSION ∧ validateCommand c = .ok ())
    (encodeControlCommand (ε := ε)) decodeControlCommand := by
  refine whole_canonical commandFields_lawful (fun c hc => ?_) fun c hc hw => ?_
  · obtain ⟨hl, hw⟩ := validateCommand_ok.mp hc.2
    exact ⟨⟨hc.1, hl⟩, hw⟩
  · rw [encodeControlCommand, validateCommand_ok.mpr ⟨hc.2, hw⟩]; rfl

/-! ## Responses -/

def encodeControlResponse (response : ControlResponse) : Put ε :=
  seq [raw RESPONSE_MAGIC, encodeStateResponse response]

def decodeControlResponse (bytes : Bytes) : Outcome CodecError ControlResponse :=
  Reader.whole (do Reader.magic RESPONSE_MAGIC; decodeStateResponse) bytes

def ControlCommandError.WithinLimits : ControlCommandError → Prop
  | .notFound _ s | .alreadyExists _ s | .invalidReference _ s | .invalidTransition s
  | .memberInactive s => (utf8 s).length ≤ MAX_STRING_BYTES
  | .notLeader l => ∀ s, l = some s → (utf8 s).length ≤ MAX_STRING_BYTES
  | _ => True

def ControlResponse.WithinLimits (r : ControlResponse) : Prop :=
  match r.result with
  | .accepted payload => payload.length ≤ MAX_BYTES
  | .rejected e => e.WithinLimits

@[simp] theorem writes_error {e : ControlCommandError} : Writes (encodeError e : Put ε) ↔ e.WithinLimits := by
  cases e <;> simp [encodeError, ControlCommandError.WithinLimits, encodeResourceKind]

theorem writes_stateResponse {r : ControlResponse} :
    Writes (encodeStateResponse r : Put ε) ↔ r.WithinLimits := by
  cases h : r.result <;> simp [encodeStateResponse, ControlResponse.WithinLimits, encodeResult, h]

theorem response_canonical : CanonicalCodec
    (fun r : ControlResponse => responseSchemaSupported r.schemaVersion = true ∧ r.WithinLimits)
    (encodeControlResponse (ε := ε)) decodeControlResponse := by
  have h : LawfulOn (fun r : ControlResponse => responseSchemaSupported r.schemaVersion = true)
      (encodeControlResponse (ε := ε)) (do Reader.magic RESPONSE_MAGIC; decodeStateResponse) := by
    refine LawfulAs.bind (fun _ => ()) (magic_lawful RESPONSE_MAGIC) (fun _ _ => trivial) fun _ _ => ?_
    exact (stateResponse_lawful.weaken fun r => by simp).last
  refine whole_canonical h (fun r hr => ⟨hr.1, ?_⟩) fun _ _ _ => rfl
  simpa [encodeControlResponse, writes_stateResponse] using hr.2

/-! ## Feature activations -/

variable (command : FeatureActivationCommand)

def encodeFeatureFields : Put ε :=
  seq [raw FEATURE_COMMAND_MAGIC, u16 FEATURE_SCHEMA_VERSION,
    string command.principalId, uuid command.commandId.value,
    u64 command.issuedAtUnixMs, u64 command.expectedControlRevision,
    u16 command.readSchemaFloor, u16 command.writeSchemaFloor,
    string command.feature]

def validateFeature : Except CodecError Unit := do
  validateString command.principalId
  validateString command.feature

def encodeFeatureActivation : Put ε :=
  expectValid (validateFeature command) (encodeFeatureFields command)

def decodeFeatureFields : Get CodecError FeatureActivationCommand := do
  Reader.magic FEATURE_COMMAND_MAGIC
  let _ ← decodeSchema (· == FEATURE_SCHEMA_VERSION)
  let principalId ← Reader.string
  let commandId ← Reader.uuid
  let issuedAtUnixMs ← Reader.u64
  let expectedControlRevision ← Reader.u64
  let readSchemaFloor ← Reader.u16
  let writeSchemaFloor ← Reader.u16
  let feature ← Reader.string
  return ⟨principalId, ⟨commandId⟩, issuedAtUnixMs, expectedControlRevision, readSchemaFloor,
    writeSchemaFloor, feature⟩

def decodeFeatureActivation (bytes : Bytes) : Outcome CodecError FeatureActivationCommand :=
  match Reader.whole decodeFeatureFields bytes with
  | .error fault => .error fault
  | .ok command =>
    match validateFeature command with
    | .ok () => .ok command
    | .error e => .error (.error e)

theorem featureFields_lawful : Lawful (encodeFeatureFields (ε := ε)) decodeFeatureFields :=
  LawfulAs.toOnOf (.arg (magic_lawful FEATURE_COMMAND_MAGIC) <| .arg (schema_lawful _) <|
    .arg string_lawful <| .arg uuid_lawful <| .arg u64_lawful <|
    .arg u64_lawful <| .arg u16_lawful <| .arg u16_lawful <|
    .arg string_lawful .done) (fun x => by cases x; simp) fun x hx => by
      simp only [beq_iff_eq] at hx
      rw [encodeFeatureFields, ← hx.2.1]

theorem validateFeature_ok {c : FeatureActivationCommand} :
    validateFeature c = .ok () ↔ Writes (encodeFeatureFields c : Put ε) := by
  simp [validateFeature, encodeFeatureFields]

theorem decodeFeatureActivation_eq (b : Bytes) :
    decodeFeatureActivation b = Reader.whole decodeFeatureFields b := by
  unfold decodeFeatureActivation
  cases h : Reader.whole decodeFeatureFields b with
  | error f => rfl
  | ok c =>
    obtain ⟨-, o, ho, -⟩ := (featureFields_lawful (ε := Unit)).strict (whole_ok.mp h)
    simp only [validateFeature_ok.mpr ⟨o, ho⟩]

theorem feature_canonical : CanonicalCodec
    (fun c : FeatureActivationCommand => validateFeature c = .ok ())
    (encodeFeatureActivation (ε := ε)) decodeFeatureActivation := by
  have hd : decodeFeatureActivation = Reader.whole decodeFeatureFields :=
    funext decodeFeatureActivation_eq
  rw [hd]
  refine whole_canonical featureFields_lawful (fun c hc => ⟨trivial, validateFeature_ok.mp hc⟩) ?_
  intro c _ hw
  rw [encodeFeatureActivation, validateFeature_ok.mpr hw]; rfl

/-! ## The codec as a whole -/

theorem fingerprintInput_inj {c c' : ControlCommand}
    (h : (fingerprintInput c : Put ε) = .ok b) (h' : (fingerprintInput c' : Put ε) = .ok b) :
    c.request = c'.request := by
  obtain ⟨hv, hb⟩ := expectValid_ok.mp h
  obtain ⟨hv', hb'⟩ := expectValid_ok.mp h'
  exact encodeRequest_inj (validateCommand_ok (ε := ε).mp hv).1 (validateCommand_ok (ε := ε).mp hv').1 hb hb'

/-- **Canonical commands.** A schema-1 command within the limits is decoded
back from its encoding; no input makes a decoder panic; an accepted input is
the encoding of what it decodes to, so a command has one accepted encoding;
commands with different requests have different fingerprint inputs. Responses
and feature activations obey the same two laws. -/
theorem commands_responses_features_canonical : CanonicalCodec
      (fun c : ControlCommand => c.schemaVersion = CONTROL_SCHEMA_VERSION ∧ validateCommand c = .ok ())
      (encodeControlCommand (ε := ε)) decodeControlCommand ∧
    (∀ b b' c, decodeControlCommand b = .ok c → decodeControlCommand b' = .ok c → b = b') ∧
    (∀ c c' b, (fingerprintInput c : Put ε) = .ok b → (fingerprintInput c' : Put ε) = .ok b →
      c.request = c'.request) ∧
    CanonicalCodec
      (fun r : ControlResponse => responseSchemaSupported r.schemaVersion = true ∧ r.WithinLimits)
      (encodeControlResponse (ε := ε)) decodeControlResponse ∧
    CanonicalCodec (fun c : FeatureActivationCommand => validateFeature c = .ok ())
      (encodeFeatureActivation (ε := ε)) decodeFeatureActivation :=
  ⟨command_canonical, fun _ _ _ hb hb' => (command_canonical (ε := ε)).unique hb hb',
    fun _ _ _ => fingerprintInput_inj, response_canonical, feature_canonical⟩

/-- A prune command, encoded and decoded back. -/
theorem pruneDedup_decodes_back :
    ∃ b, encodeControlCommand (ε := Unit) ⟨1, "p", ⟨7⟩, 3, .pruneDedup 9⟩ = .ok b ∧
      decodeControlCommand b = .ok ⟨1, "p", ⟨7⟩, 3, .pruneDedup 9⟩ :=
  commands_responses_features_canonical.1.roundtrip _ ⟨rfl, by decide⟩

end Bmux.Control
