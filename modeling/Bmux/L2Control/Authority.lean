import Bmux.L2Control.CommandCodec

/-!
# Membership authority (`plugins/cluster-plugin/src`)

Some transitions of the control state depend on committed Raft membership and
on signatures: capability publications, the principal bootstrap, feature
activations and protocol refreshes. The checks the plugin makes itself are
modelled as they are; the primitives it takes from outside (SHA-256, Ed25519
keys and signatures, the membership credential, endpoint syntax) are the
fields of `Env`, so every result below holds for all of them.
-/
namespace Bmux.Control
open Canonical Wire Std Reader Writer

abbrev PublicKey := BitVec 256

abbrev NodeId := BitVec 256

/-- What the control plane takes from outside. -/
structure Env where
  sha256 : Bytes → Digest
  /-- `str::parse::<iroh::PublicKey>` with the text of its error. -/
  parsePublicKey : String → Except String PublicKey
  /-- `iroh::PublicKey::from_bytes` accepts these bytes. -/
  publicKeyValid : BitVec 256 → Bool
  /-- `Display` of an `iroh::PublicKey`. -/
  displayPublicKey : PublicKey → String
  /-- `iroh::Signature::try_from`, with the text of its error. -/
  parseSignature : Bytes → Except String Unit
  /-- `key.verify(payload, signature)`. -/
  verify : PublicKey → Bytes → Bytes → Bool
  verifyMembershipCredential : ClusterMember → UInt64 → Except String Unit
  validateAdvertisedEndpoint : String → Except String Unit
  verifyNodeSignature : String → Bytes → Bytes → Except String Unit

def ensure (p : Prop) [Decidable p] (reason : String) : Except String Unit :=
  if p then .ok () else .error reason

def orFail {α : Type} : Except String α → Outcome String α
  | .ok a => .ok a
  | .error e => .error (.error e)

/-! ## Committed membership -/

/-- `openraft::LogId`: the term and node of the leader that wrote the entry. -/
structure LogId where
  term : UInt64
  leaderNodeId : NodeId
  index : UInt64
  deriving DecidableEq, Repr

instance : TransOrd NodeId := inferInstance

/-- `openraft::StoredMembership`: where it was committed, the joint voter
configurations, and every node (voters and learners). -/
structure StoredMembership where
  logId : Option LogId
  jointConfig : List (ExtTreeSet NodeId compare)
  nodes : ExtTreeSet NodeId compare
  deriving DecidableEq

def StoredMembership.hasVoter (m : StoredMembership) : Bool := m.jointConfig.any fun config => !config.isEmpty

variable (env : Env)

def nodeIdString (node : NodeId) : String :=
  if env.publicKeyValid node then "node:" ++ env.displayPublicKey node else "node:<invalid>"

/-- mirrors plugins/cluster-plugin/src/membership.rs:230-242 -/
def parseNodeId (value : String) : Except String NodeId :=
  if "node:".toList <+: value.toList then
    match env.parsePublicKey (String.ofList (value.toList.drop 5)) with
    | .ok key => .ok key
    | .error error => .error ("invalid node public key: " ++ error)
  else .error "node ID must start with 'node:'"

/-! ## Capability reports -/

/-- mirrors plugins/cluster-plugin-api/bpdl/cluster-plugin.bpdl:42-56 -/
structure CapabilityReport where
  reportVersion : UInt16
  clusterId : String
  nodeId : String
  credentialSerial : String
  membershipTerm : UInt64
  membershipLeaderId : String
  membershipLogIndex : UInt64
  expectedReportRevision : UInt64
  commandId : CommandId
  schemaMin : UInt32
  schemaMax : UInt32
  features : List String
  signature : Bytes
  deriving DecidableEq, Repr

variable (report : CapabilityReport)

/-- mirrors plugins/cluster-plugin/src/capability_publication.rs:13-31, negated -/
@[reducible] def CapabilityReport.WellFormed : Prop :=
  report.reportVersion = 1 ∧ report.commandId.value ≠ 0 ∧ report.schemaMin ≠ 0 ∧
  report.schemaMin ≤ report.schemaMax ∧
  report.clusterId ≠ "" ∧ (utf8 report.clusterId).length ≤ 128 ∧
  report.nodeId ≠ "" ∧ (utf8 report.nodeId).length ≤ 128 ∧
  report.credentialSerial ≠ "" ∧ (utf8 report.credentialSerial).length ≤ 1024 ∧
  report.membershipLeaderId ≠ "" ∧ (utf8 report.membershipLeaderId).length ≤ 128 ∧
  report.features.length ≤ 128 ∧
  (∀ feature ∈ report.features, feature ≠ "" ∧ (utf8 feature).length ≤ 128) ∧
  report.features.IsChain (· < ·)

def CAPABILITY_DOMAIN : Bytes := utf8 "bmux.cluster.supported-capabilities.v1\x00"

/-- mirrors plugins/cluster-plugin/src/capability_publication.rs:33-51 -/
def encodeReportFields : Put String :=
  seq [raw CAPABILITY_DOMAIN, u16 report.reportVersion, string report.clusterId,
    string report.nodeId, string report.credentialSerial,
    u64 report.membershipTerm, string report.membershipLeaderId,
    u64 report.membershipLogIndex, u64 report.expectedReportRevision,
    uuid report.commandId.value, u32 report.schemaMin, u32 report.schemaMax,
    list string report.features]

def signingPayload : Put String :=
  if report.WellFormed then encodeReportFields report
  else .error (.error "invalid capability report representation or bounds")

/-- mirrors plugins/cluster-plugin/src/capability_publication.rs:58-96 -/
def verifyReport (member : ClusterMember)
    (membership : StoredMembership) (clusterId : String) (verifiedAtUnixMs : UInt64) :
    Outcome String Unit := do
  let payload ← signingPayload report
  match membership.logId with
  | none => .error (.error "missing committed membership")
  | some position =>
  match parseNodeId env report.nodeId with
  | .error _ => .error (.error "invalid report node identity")
  | .ok node => do
    orFail (ensure (report.signature.length = 64 ∧ report.clusterId = clusterId ∧
        member.clusterId = clusterId ∧ report.nodeId = member.nodeId ∧
        report.credentialSerial = member.credentialSerial ∧ member.state = .active ∧
        node ∈ membership.nodes ∧ report.membershipTerm = position.term ∧
        report.membershipLeaderId = nodeIdString env position.leaderNodeId ∧
        report.membershipLogIndex = position.index) "capability report authority mismatch")
    orFail (env.verifyMembershipCredential member verifiedAtUnixMs)
    let key ← orFail (env.parsePublicKey member.publicKey)
    orFail (env.parseSignature report.signature)
    orFail (ensure (env.verify key payload report.signature = true) "invalid capability report signature")

/-- mirrors plugins/cluster-plugin/src/capability_publication.rs:125-143, the loop over the
reports; `seen` are the recipients so far -/
def verifyReports (env : Env) (members : ExtTreeMap String ClusterMember compare)
    (membership : StoredMembership) (clusterId : String) (verifiedAtUnixMs : UInt64) :
    List String → List CapabilityReport → Outcome String Unit
  | _, [] => .ok ()
  | seen, report :: rest => do
    orFail (ensure (report.nodeId ∉ seen) "duplicate bridge recipient")
    match members[report.nodeId]? with
    | none => .error (.error "bridge member missing")
    | some member => do
      verifyReport env report member membership clusterId verifiedAtUnixMs
      orFail (ensure ("capability-publication-v1" ∈ report.features)
        "recipient does not support capability publication representation")
      verifyReports env members membership clusterId verifiedAtUnixMs (report.nodeId :: seen) rest

def activeMembers (members : ExtTreeMap String ClusterMember compare) : List ClusterMember :=
  (members.toList.map Prod.snd).filter fun member => member.state = .active

def verifyBridge (reports : List CapabilityReport)
    (members : ExtTreeMap String ClusterMember compare) (membership : StoredMembership)
    (clusterId : String) (verifiedAtUnixMs : UInt64) : Outcome String Unit := do
  let maxRecipients := 128
  orFail (ensure (reports ≠ [] ∧ reports.length ≤ maxRecipients) "invalid bridge recipient count")
  orFail (ensure (membership.hasVoter = true ∧
      (membership.nodes.toList.take (maxRecipients + 1)).length = reports.length ∧
      ((activeMembers members).take (maxRecipients + 1)).length = reports.length)
    "bridge evidence must cover exact committed active membership")
  verifyReports env members membership clusterId verifiedAtUnixMs [] reports

/-! ## Publication batches -/

structure PublicationCommand where
  reports : List CapabilityReport
  verifiedAtUnixMs : UInt64
  deriving DecidableEq, Repr

def PUBLICATION_MAGIC : Bytes := [66, 77, 67, 65, 80, 48, 48, 49]

/-- mirrors plugins/cluster-plugin/src/capability_publication.rs:174-183, the loop over the
reports; `commandIds` are the identities so far -/
def encodeReports : List Uuid → List CapabilityReport → Put String
  | _, [] => .ok []
  | commandIds, report :: rest =>
    if report.commandId.value ∈ commandIds then .error (.error "duplicate publication mutation identity")
    else if report.signature.length ≠ 64 then .error (.error "invalid report signature length")
    else seq [(signingPayload report).bind bytes, bytes report.signature,
      encodeReports (report.commandId.value :: commandIds) rest]

def PublicationCommand.encode (command : PublicationCommand) : Put String :=
  if command.reports = [] ∨ command.reports.length > 128 ∨
      ¬ (command.reports.map CapabilityReport.nodeId).IsChain (· < ·) then
    .error (.error "invalid publication report count or order")
  else seq [raw PUBLICATION_MAGIC, u16 1, u64 command.verifiedAtUnixMs,
    u16 (UInt16.ofNat command.reports.length), encodeReports [] command.reports]

/-- mirrors plugins/cluster-plugin/src/control_codec.rs:30-49 -/
def CodecError.text : CodecError → String
  | .truncated => "canonical command is truncated"
  | .invalidMagic => "canonical command magic is invalid"
  | .unsupportedSchema version => "unsupported control schema version " ++ toString version
  | .invalidTag typeName tag => "invalid " ++ typeName ++ " tag " ++ toString tag
  | .invalidBoolean value => "invalid canonical boolean " ++ toString value
  | .invalidUtf8 => "canonical string is not UTF-8"
  | .limitExceeded name => "canonical " ++ name ++ " exceeds its limit"
  | .trailingBytes => "canonical command has trailing bytes"

def decodeReportFields : Get CodecError CapabilityReport := do
  magic CAPABILITY_DOMAIN
  let reportVersion ← u16
  let clusterId ← string
  let nodeId ← string
  let credentialSerial ← string
  let membershipTerm ← u64
  let membershipLeaderId ← string
  let membershipLogIndex ← u64
  let expectedReportRevision ← u64
  let commandId ← uuid
  let schemaMin ← u32
  let schemaMax ← u32
  let features ← list "report features" 128 string
  return ⟨reportVersion, clusterId, nodeId, credentialSerial, membershipTerm, membershipLeaderId,
    membershipLogIndex, expectedReportRevision, ⟨commandId⟩, schemaMin, schemaMax, features, []⟩

def decodeReportPayload (bytes : Bytes) : Outcome CodecError CapabilityReport :=
  whole decodeReportFields bytes

/-- mirrors plugins/cluster-plugin/src/capability_publication.rs:213-216, one turn of the loop -/
def decodeReport : Get CodecError CapabilityReport := do
  let payload ← bytes
  let report ← StateT.lift (decodeReportPayload payload)
  let signature ← bytes
  return { report with signature }

def decodeReportCount : Get CodecError UInt16 := do
  let count ← u16
  if count ≠ 0 ∧ count ≤ 128 then return count else fail (.limitExceeded "publication reports")

def decodePublicationFields : Get CodecError PublicationCommand := do
  magic PUBLICATION_MAGIC
  let _ ← decodeSchema (· == 1)
  let verifiedAtUnixMs ← u64
  let count ← decodeReportCount
  let reports ← repeatGet decodeReport count.toNat
  return { reports, verifiedAtUnixMs }

def PublicationCommand.decode (bytes : Bytes) : Outcome String PublicationCommand :=
  if bytes.length > 3 * 1024 * 1024 then .error (.error "publication command exceeds limit")
  else match whole decodePublicationFields bytes with
    | .error .panicked => .error .panicked
    | .error (.error e) => .error (.error (CodecError.text e))
    | .ok command => command.encode.bind fun _ => .ok command

/-! ## Principal bootstrap -/

structure BootstrapStatement where
  schemaVersion : UInt16
  clusterId : String
  membershipTerm : UInt64
  membershipLeaderId : String
  membershipLogIndex : UInt64
  principalId : Uuid
  principalPublicKey : String
  commandId : CommandId
  deriving DecidableEq, Repr

structure VoterApproval where
  nodeId : String
  signature : Bytes
  deriving DecidableEq, Repr

structure BootstrapProof where
  statement : BootstrapStatement
  principalSignature : Bytes
  voterApprovals : List VoterApproval
  deriving DecidableEq, Repr

structure BootstrapCommand where
  proof : BootstrapProof
  expectedControlRevision : UInt64
  verifiedAtUnixMs : UInt64
  deriving DecidableEq, Repr

def MAX_APPROVALS : Nat := 128

def BOOTSTRAP_DOMAIN : Bytes := utf8 "bmux.cluster.principal-bootstrap.v1\x00"

/-- mirrors plugins/cluster-plugin/src/principal_bootstrap.rs:133-170 -/
def bootstrapSigningPayload (statement : BootstrapStatement) : Except String Bytes := do
  ensure (statement.schemaVersion = 1 ∧ statement.clusterId ≠ "" ∧
      (utf8 statement.clusterId).length ≤ 256 ∧ statement.principalId ≠ 0 ∧
      statement.commandId.value ≠ 0) "invalid bootstrap statement identity or version"
  match env.parsePublicKey statement.principalPublicKey with
  | .error _ => .error "invalid principal key"
  | .ok key => do
    ensure (env.displayPublicKey key = statement.principalPublicKey) "noncanonical principal key"
    let leader ← parseNodeId env statement.membershipLeaderId
    ensure (nodeIdString env leader = statement.membershipLeaderId) "noncanonical membership leader"
    let clusterId := utf8 statement.clusterId
    return BOOTSTRAP_DOMAIN ++ beBytes 2 statement.schemaVersion.toNat ++ beBytes 2 clusterId.length ++
      clusterId ++ beBytes 8 statement.membershipTerm.toNat ++ beBytes 32 leader.toNat ++
      beBytes 8 statement.membershipLogIndex.toNat ++ beBytes 16 statement.principalId.toNat ++
      beBytes 32 key.toNat ++ beBytes 16 statement.commandId.value.toNat

/-- mirrors plugins/cluster-plugin/src/principal_bootstrap.rs:222-243, the loop over the
approvals; `approved` are the signers so far -/
def verifyApprovals (env : Env) (membership : StoredMembership)
    (members : ExtTreeMap String ClusterMember compare) (clusterId : String) (payload : Bytes)
    (nowUnixMs : UInt64) : List NodeId → List VoterApproval → Except String (List NodeId)
  | approved, [] => .ok approved
  | approved, approval :: rest => do
    let node ← parseNodeId env approval.nodeId
    ensure ((∃ config ∈ membership.jointConfig, node ∈ config) ∧ node ∉ approved)
      "bootstrap signer is duplicate or not a committed voter"
    match members[approval.nodeId]? with
    | none => .error "bootstrap signer has no credential"
    | some member => do
      ensure (member.clusterId = clusterId) "bootstrap signer credential belongs to another cluster"
      ensure (member.nodeId = approval.nodeId ∧ member.state = .active)
        "bootstrap signer is inactive or mismatched"
      env.verifyMembershipCredential member nowUnixMs
      env.verifyNodeSignature approval.nodeId payload approval.signature
      verifyApprovals env membership members clusterId payload nowUnixMs (node :: approved) rest

/-- mirrors plugins/cluster-plugin/src/principal_bootstrap.rs:177-247 -/
def verifyProof (proof : BootstrapProof) (clusterId : String)
    (membership : StoredMembership) (members : ExtTreeMap String ClusterMember compare)
    (nowUnixMs : UInt64) : Except String Unit := do
  let statement := proof.statement
  match membership.logId with
  | none => .error "bootstrap requires committed membership"
  | some log => do
    ensure (statement.clusterId = clusterId ∧ statement.membershipTerm = log.term ∧
        statement.membershipLeaderId = nodeIdString env log.leaderNodeId ∧
        statement.membershipLogIndex = log.index) "bootstrap membership or cluster mismatch"
    ensure (proof.voterApprovals.length ≤ MAX_APPROVALS) "too many bootstrap approvals"
    let payload ← bootstrapSigningPayload env statement
    match env.parsePublicKey statement.principalPublicKey with
    | .error _ => .error "invalid principal key"
    | .ok principal => do
      ensure (proof.principalSignature.length = 64) "invalid principal signature"
      ensure (env.verify principal payload proof.principalSignature = true) "principal proof failed"
      let configs := membership.jointConfig
      ensure (configs ≠ [] ∧ configs.length ≤ 2 ∧
          ∀ config ∈ configs, config.isEmpty = false ∧ config.size ≤ MAX_APPROVALS)
        "bootstrap requires one or two nonempty bounded voter configurations"
      let approved ← verifyApprovals env membership members clusterId payload nowUnixMs [] proof.voterApprovals
      ensure (∀ config ∈ configs, config.size / 2 < (config.toList.filter (· ∈ approved)).length)
        "bootstrap requires a majority of every committed voter configuration"

end Bmux.Control
