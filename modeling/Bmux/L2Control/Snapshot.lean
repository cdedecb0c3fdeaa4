import Bmux.L2Control.State
import Bmux.Core.TreeMap

/-!
# Snapshots of the control state (`plugins/cluster-plugin/src/control_state_codec.rs`)

A snapshot is one of five nested formats, chosen by what the state holds: the
plain records (`BMSTA002`), with schema floors and features (`BMSTA003`), with
a principal bootstrap (`BMSTA004`), wrapped with refresh outcomes
(`BMSTA005`) and wrapped once more with the publication history (`BMSTA006`).
`BMSTA001` is still read.

The source's encoder and decoder call themselves on the wrapped snapshot. The
nested bytes may not start with the wrapper's own magic, so the recursion is
at most three deep; it is written out here layer by layer.
-/
namespace Bmux.Control
open Std Canonical Wire Writer

/-- mirrors plugins/cluster-plugin/src/control_state.rs:26-37 -/
inductive StateCodecError where
  | truncated
  | invalidMagic
  | unsupportedSnapshotFormat (version : UInt16)
  | unsupportedCodec (version : UInt16)
  | unsupportedSchema (version : UInt16)
  | invalidUtf8
  | invalidBoolean (value : UInt8)
  | limitExceeded (name : String)
  | trailingBytes
  | invalidState (reason : String)
  deriving DecidableEq, Repr

/-- mirrors plugins/cluster-plugin/src/control_state_codec.rs:13-26 -/
def StateCodecError.ofCodec : CodecError → StateCodecError
  | .truncated => .truncated
  | .invalidMagic => .invalidMagic
  | .unsupportedSchema version => .unsupportedSchema version
  | .invalidBoolean value => .invalidBoolean value
  | .invalidUtf8 => .invalidUtf8
  | .limitExceeded name => .limitExceeded name
  | .trailingBytes => .trailingBytes
  | .invalidTag _ _ => .invalidState "invalid canonical enum tag"

def CONTROL_CODEC_VERSION : UInt16 := 1
def SNAPSHOT_FORMAT_VERSION : UInt16 := 3
def PREVIOUS_SNAPSHOT_FORMAT_VERSION : UInt16 := 2
def SNAPSHOT_MAGIC : Bytes := [66, 77, 83, 84, 65, 48, 48, 51]
def PREVIOUS_SNAPSHOT_MAGIC : Bytes := [66, 77, 83, 84, 65, 48, 48, 50]
def LEGACY_SNAPSHOT_MAGIC : Bytes := [66, 77, 83, 84, 65, 48, 48, 49]
def MAX_SNAPSHOT_ITEMS : Nat := 1000000
def MAX_SNAPSHOT_BYTES : Nat := 256 * 1024 * 1024

def BOOTSTRAP_SNAPSHOT_MAGIC : Bytes := [66, 77, 83, 84, 65, 48, 48, 52]
def REFRESH_SNAPSHOT_MAGIC : Bytes := [66, 77, 83, 84, 65, 48, 48, 53]
def PUBLICATION_SNAPSHOT_MAGIC : Bytes := [66, 77, 83, 84, 65, 48, 48, 54]

/-! ## Encoding -/

def checkPut (p : Prop) [Decidable p] (e : StateCodecError) : Put StateCodecError :=
  if p then .ok [] else .error (.error e)

def writeCount (count : Nat) : Put StateCodecError :=
  if count > MAX_SNAPSHOT_ITEMS then .error (.error (.limitExceeded "item count"))
  else u32 (UInt32.ofNat count)

def writeMap {κ β : Type} [Ord κ] [TransOrd κ] (put : κ × β → Put StateCodecError)
    (m : ExtTreeMap κ β compare) : Put StateCodecError :=
  seq [writeCount m.size, seq (m.toList.map put)]

def limitBytes (put : Put StateCodecError) : Put StateCodecError :=
  put.bind fun bytes =>
    if bytes.length > MAX_SNAPSHOT_BYTES then .error (.error (.limitExceeded "bytes")) else .ok bytes

variable (s : ControlState)

def ControlState.advanced : Bool :=
  s.readSchemaFloor ≠ CONTROL_SCHEMA_VERSION || s.writeSchemaFloor ≠ CONTROL_SCHEMA_VERSION ||
    !s.activatedFeatures.isEmpty

/-- mirrors plugins/cluster-plugin/src/control_state_codec.rs:95-111 -/
def encodeHeader : Put StateCodecError :=
  if s.principalBootstrap.isSome then
    seq [checkPut (¬ (s.advanced = false ∨ s.readSchemaFloor < 3 ∨ s.writeSchemaFloor < 3))
        (.invalidState "bootstrap requires schema floor 3"),
      raw BOOTSTRAP_SNAPSHOT_MAGIC, u16 4]
  else if s.advanced then seq [raw SNAPSHOT_MAGIC, u16 SNAPSHOT_FORMAT_VERSION]
  else seq [raw PREVIOUS_SNAPSHOT_MAGIC, u16 PREVIOUS_SNAPSHOT_FORMAT_VERSION]

/-- mirrors plugins/cluster-plugin/src/control_state_codec.rs:116-123 -/
def encodeFloors : Put StateCodecError :=
  if s.advanced then
    seq [u16 s.readSchemaFloor, u16 s.writeSchemaFloor,
      writeCount s.activatedFeatures.size, seq (s.activatedFeatures.toList.map string)]
  else .ok []

def encodeMemberEntry (entry : String × ClusterMember) : Put StateCodecError :=
  seq [checkPut (entry.1 = entry.2.nodeId) (.invalidState "member map key mismatch"),
    string entry.1, encodeMember entry.2]

def encodeWorkspaceEntry (entry : Uuid × WorkspaceRecord) : Put StateCodecError :=
  seq [checkPut (entry.1 = entry.2.workspaceId.value) (.invalidState "workspace map key mismatch"),
    uuid entry.1, encodeWorkspace entry.2]

def encodeTabEntry (entry : Uuid × LogicalTabRecord) : Put StateCodecError :=
  seq [checkPut (entry.1 = entry.2.tabId.value) (.invalidState "tab map key mismatch"),
    uuid entry.1, encodeTab entry.2]

def encodePaneEntry (entry : Uuid × LogicalPaneRecord) : Put StateCodecError :=
  seq [checkPut (entry.1 = entry.2.paneId.value) (.invalidState "pane map key mismatch"),
    uuid entry.1, encodePane entry.2]

/-- mirrors plugins/cluster-plugin/src/control_state_codec.rs:162-171 -/
def encodeDedupEntry (entry : DedupKey × DedupRecord) : Put StateCodecError :=
  seq [string entry.1.principalId, uuid entry.1.commandId,
    digest entry.2.fingerprint, u64 entry.2.issuedAtUnixMs,
    (encodeControlCommand entry.2.command).bind bytes, encodeStateResponse entry.2.response]

/-- mirrors plugins/cluster-plugin/src/control_state_codec.rs:175-184 -/
def encodeFeatureDedupEntry (entry : DedupKey × FeatureDedupRecord) : Put StateCodecError :=
  seq [string entry.1.principalId, uuid entry.1.commandId,
    digest entry.2.fingerprint, u64 entry.2.issuedAtUnixMs,
    (encodeFeatureActivation entry.2.command).bind bytes, encodeStateResponse entry.2.response]

def encodeFeatureTable : Put StateCodecError :=
  if s.advanced then writeMap encodeFeatureDedupEntry s.featureDedup else .ok []

section
variable (env : Env)

variable (record : PrincipalBootstrapRecord)

def validateBootstrapRecord (revision : UInt64) : Except StateCodecError Unit :=
  match env.parsePublicKey record.publicKey with
  | .error _ => .error (.invalidState "invalid principal key")
  | .ok key =>
    if env.displayPublicKey key ≠ record.publicKey ∨ record.principalId = 0 ∨ record.commandId = 0 ∨
        record.committedRevision = 0 ∨ record.committedRevision > revision then
      .error (.invalidState "invalid bootstrap record")
    else .ok ()

def encodeBootstrapRecord (revision : UInt64) : Put StateCodecError :=
  match validateBootstrapRecord env record revision with
  | .error e => .error (.error e)
  | .ok () => seq [uuid record.principalId, string record.publicKey,
      uuid record.commandId, digest record.statementFingerprint,
      u64 record.committedRevision]

variable (s : ControlState)

/-- mirrors plugins/cluster-plugin/src/control_state_codec.rs:186-188 -/
def encodeBootstrap : Put StateCodecError :=
  match s.principalBootstrap with
  | some record => encodeBootstrapRecord env record s.revision
  | none => .ok []

/-- mirrors plugins/cluster-plugin/src/control_state_codec.rs:87-188 -/
def encodeFields : Put StateCodecError :=
  seq [
    checkPut (s.schemaVersion = CONTROL_SCHEMA_VERSION) (.unsupportedSchema s.schemaVersion),
    encodeHeader s, u16 CONTROL_CODEC_VERSION, u16 s.schemaVersion,
    string s.clusterId, u64 s.revision, encodeFloors s,
    writeMap encodeMemberEntry s.members, writeMap encodeWorkspaceEntry s.workspaces,
    writeMap encodeTabEntry s.tabs, writeMap encodePaneEntry s.panes,
    writeMap encodeDedupEntry s.dedup,
    encodeFeatureTable s, encodeBootstrap env s]

def encodeBaseSnapshot : Put StateCodecError := limitBytes (encodeFields env s)

/-- mirrors plugins/cluster-plugin/src/control_state_codec.rs:38-45 -/
def encodeRefreshEntry (revision : UInt64) (entry : Uuid × (Digest × UInt64)) : Put StateCodecError :=
  seq [checkPut (¬ (entry.1 = 0 ∨ entry.2.2 = 0 ∨ entry.2.2 > revision))
      (.invalidState "invalid refresh outcome"),
    uuid entry.1, digest entry.2.1, u64 entry.2.2]

def encodeRefreshSnapshot : Put StateCodecError :=
  if s.refreshOutcomes.size > 1024 then .error (.error (.limitExceeded "refresh outcomes"))
  else limitBytes <| seq [raw REFRESH_SNAPSHOT_MAGIC,
    (encodeBaseSnapshot env { s with refreshOutcomes := ∅ }).bind bytes,
    writeMap (encodeRefreshEntry s.revision) s.refreshOutcomes]

/-- mirrors plugins/cluster-plugin/src/control_state_codec.rs:81-84: a state without
publication history -/
def encodeUnpublished : Put StateCodecError :=
  if s.refreshOutcomes.isEmpty then encodeBaseSnapshot env s else encodeRefreshSnapshot env s

/-- mirrors plugins/cluster-plugin/src/control_state_codec.rs:67-74 -/
def encodePublication (entry : PublicationCommand × UInt64) : Put StateCodecError :=
  seq [match entry.1.encode with
    | .ok bytes => Writer.bytes bytes
    | .error .panicked => .error .panicked
    | .error (.error _) => .error (.error (.invalidState "invalid publication")),
    u64 entry.2]

def encodeSnapshot : Put StateCodecError :=
  if s.publicationHistory ≠ [] then
    if s.publicationHistory.length > 64 then .error (.error (.limitExceeded "publication history"))
    else limitBytes <| seq [raw PUBLICATION_SNAPSHOT_MAGIC,
      (encodeUnpublished env { s with publicationHistory := [] }).bind bytes,
      u16 (UInt16.ofNat s.publicationHistory.length),
      seq (s.publicationHistory.map encodePublication)]
  else encodeUnpublished env s

end
/-! ## Decoding -/

def lift {α : Type} (get : Get CodecError α) : Get StateCodecError α := mapError .ofCodec get

def checkGet (p : Prop) [Decidable p] (e : StateCodecError) : Get StateCodecError Unit :=
  if p then pure () else fail e

def wholeState {α : Type} (get : Get StateCodecError α) (bytes : Bytes) : Outcome StateCodecError α :=
  match get.run bytes with
  | .error fault => .error fault
  | .ok (value, rest) => if rest = [] then .ok value else .error (.error .trailingBytes)

def readCount : Get StateCodecError Nat := do
  let count ← lift Reader.u32
  checkGet (¬ count.toNat > MAX_SNAPSHOT_ITEMS) (.limitExceeded "item count")
  return count.toNat

/-- mirrors plugins/cluster-plugin/src/control_state_codec.rs:538-543, the loop -/
def readEntries {κ β : Type} [Ord κ] [TransOrd κ] (get : Get StateCodecError (κ × β)) :
    Nat → ExtTreeMap κ β compare → Get StateCodecError (ExtTreeMap κ β compare)
  | 0, m => pure m
  | n + 1, m => do
    let (key, value) ← get
    checkGet (key ∉ m) (.invalidState "duplicate map key")
    readEntries get n (m.insert key value)

def readMap {κ β : Type} [Ord κ] [TransOrd κ] (get : Get StateCodecError (κ × β)) :
    Get StateCodecError (ExtTreeMap κ β compare) := do
  let count ← readCount
  readEntries get count ∅

/-- mirrors plugins/cluster-plugin/src/control_state_codec.rs:314-321, the loop -/
def readFeatures : Nat → ExtTreeSet String compare → Get StateCodecError (ExtTreeSet String compare)
  | 0, features => pure features
  | n + 1, features => do
    let feature ← lift Reader.string
    checkGet (¬ (feature = "" ∨ feature ∈ features))
      (.invalidState "activated feature list is empty or duplicated")
    readFeatures n (features.insert feature)

/-- mirrors plugins/cluster-plugin/src/control_state_codec.rs:309-329 -/
def decodeFloors (advanced : Bool) : Get StateCodecError (UInt16 × UInt16 × ExtTreeSet String compare) :=
  if advanced then do
    let readSchemaFloor ← lift Reader.u16
    let writeSchemaFloor ← lift Reader.u16
    let count ← readCount
    let features ← readFeatures count ∅
    return (readSchemaFloor, writeSchemaFloor, features)
  else return (CONTROL_SCHEMA_VERSION, CONTROL_SCHEMA_VERSION, ∅)

def decodeEntry {κ β : Type} [DecidableEq κ] (key : Get CodecError κ) (value : Get CodecError β) (id : β → κ)
    (reason : String) : Get StateCodecError (κ × β) := do
  let k ← lift key
  let v ← lift value
  checkGet (k = id v) (.invalidState reason)
  return (k, v)

/-- mirrors plugins/cluster-plugin/src/control_state_codec.rs:331-362 -/
def decodeMemberEntry : Get StateCodecError (String × ClusterMember) :=
  decodeEntry Reader.string decodeMember ClusterMember.nodeId "member map key mismatch"
def decodeWorkspaceEntry : Get StateCodecError (Uuid × WorkspaceRecord) :=
  decodeEntry Reader.uuid decodeWorkspace (·.workspaceId.value) "workspace map key mismatch"
def decodeTabEntry : Get StateCodecError (Uuid × LogicalTabRecord) :=
  decodeEntry Reader.uuid decodeTab (·.tabId.value) "tab map key mismatch"
def decodePaneEntry : Get StateCodecError (Uuid × LogicalPaneRecord) :=
  decodeEntry Reader.uuid decodePane (·.paneId.value) "pane map key mismatch"

/-- mirrors plugins/cluster-plugin/src/control_state_codec.rs:363-394 -/
def decodeDedupEntry : Get StateCodecError (DedupKey × DedupRecord) := do
  let principalId ← lift Reader.string
  let commandId ← lift Reader.uuid
  let fingerprint ← lift Reader.digest
  let issuedAtUnixMs ← lift Reader.u64
  let bytes ← lift Reader.bytes
  let command ← lift (StateT.lift (decodeControlCommand bytes))
  let response ← lift decodeStateResponse
  checkGet (command.principalId = principalId ∧ command.commandId.value = commandId)
    (.invalidState "dedup command identity mismatch")
  checkGet (response.commandId.value = commandId) (.invalidState "dedup response command mismatch")
  return (⟨principalId, commandId⟩, ⟨fingerprint, issuedAtUnixMs, command, response⟩)

/-- mirrors plugins/cluster-plugin/src/control_state_codec.rs:395-428 -/
def decodeFeatureDedupEntry : Get StateCodecError (DedupKey × FeatureDedupRecord) := do
  let principalId ← lift Reader.string
  let commandId ← lift Reader.uuid
  let fingerprint ← lift Reader.digest
  let issuedAtUnixMs ← lift Reader.u64
  let bytes ← lift Reader.bytes
  let command ← lift (StateT.lift (decodeFeatureActivation bytes))
  let response ← lift decodeStateResponse
  checkGet (command.principalId = principalId ∧ command.commandId.value = commandId ∧
    response.commandId.value = commandId) (.invalidState "feature dedup identity mismatch")
  return (⟨principalId, commandId⟩, ⟨fingerprint, issuedAtUnixMs, command, response⟩)

def decodeFeatureTable (advanced : Bool) : Get StateCodecError (ExtTreeMap DedupKey FeatureDedupRecord compare) :=
  if advanced then readMap decodeFeatureDedupEntry else pure ∅

/-- mirrors plugins/cluster-plugin/src/control_state_codec.rs:270-303: the schema version, whether
floors and features follow, and whether a bootstrap record does -/
def decodeHeader : Get StateCodecError (UInt16 × Bool × Bool) := do
  let magic ← lift (Reader.take 8)
  if magic = SNAPSHOT_MAGIC ∨ magic = BOOTSTRAP_SNAPSHOT_MAGIC ∨ magic = PREVIOUS_SNAPSHOT_MAGIC then
    let format ← lift Reader.u16
    let expected := if magic = BOOTSTRAP_SNAPSHOT_MAGIC then 4
      else if magic = SNAPSHOT_MAGIC then SNAPSHOT_FORMAT_VERSION else PREVIOUS_SNAPSHOT_FORMAT_VERSION
    checkGet (format = expected) (.unsupportedSnapshotFormat format)
    let codec ← lift Reader.u16
    checkGet (codec = CONTROL_CODEC_VERSION) (.unsupportedCodec codec)
    let schemaVersion ← lift Reader.u16
    return (schemaVersion, magic ≠ PREVIOUS_SNAPSHOT_MAGIC, magic = BOOTSTRAP_SNAPSHOT_MAGIC)
  else if magic = LEGACY_SNAPSHOT_MAGIC then
    let schemaVersion ← lift Reader.u16
    return (schemaVersion, false, false)
  else fail .invalidMagic

def checkState (p : Prop) [Decidable p] (reason : String) : Except StateCodecError Unit :=
  if p then .ok () else .error (.invalidState reason)

/-- mirrors plugins/cluster-plugin/src/control_state_codec.rs:565-588, one pane -/
def validatePaneReferences (s : ControlState) (pane : LogicalPaneRecord) : Except StateCodecError Unit :=
  match s.tabs[pane.tabId.value]? with
  | none => .error (.invalidState "pane references missing tab")
  | some tab => do
    checkState (tab.workspaceId.value = pane.workspaceId.value ∧ pane.workspaceId.value ∈ s.workspaces)
      "pane workspace/tab mismatch"
    checkState (∀ assignment, pane.execution = some assignment → assignment.generation ≠ 0)
      "execution generation must be positive"

def validateReferences (s : ControlState) : Except StateCodecError Unit := do
  checkState (¬ (s.readSchemaFloor < CONTROL_SCHEMA_VERSION ∨ s.writeSchemaFloor < CONTROL_SCHEMA_VERSION ∨
      s.readSchemaFloor > s.writeSchemaFloor ∨
      (s.writeSchemaFloor = CONTROL_SCHEMA_VERSION ∧ s.activatedFeatures.isEmpty = false)))
    "control feature floors are inconsistent"
  s.tabs.toList.forM fun entry =>
    checkState (entry.2.workspaceId.value ∈ s.workspaces) "tab references missing workspace"
  s.panes.toList.forM fun entry => validatePaneReferences s entry.2
  s.members.toList.forM fun entry =>
    checkState (entry.2.clusterId = s.clusterId) "member belongs to another cluster"

section
variable (env : Env)

/-- mirrors plugins/cluster-plugin/src/control_state_codec.rs:430-446 -/
def decodeBootstrapRecord (revision : UInt64) (readSchemaFloor writeSchemaFloor : UInt16) :
    Get StateCodecError PrincipalBootstrapRecord := do
  checkGet (¬ (readSchemaFloor < 3 ∨ writeSchemaFloor < 3)) (.invalidState "bootstrap requires schema floor 3")
  let principalId ← lift Reader.uuid
  let publicKey ← lift Reader.string
  let commandId ← lift Reader.uuid
  let statementFingerprint ← lift Reader.digest
  let committedRevision ← lift Reader.u64
  let record : PrincipalBootstrapRecord :=
    ⟨principalId, publicKey, commandId, statementFingerprint, committedRevision⟩
  StateT.lift ((validateBootstrapRecord env record revision).mapError .error)
  return record

def decodeBootstrap (bootstrapFormat : Bool) (revision : UInt64) (readSchemaFloor writeSchemaFloor : UInt16) :
    Get StateCodecError (Option PrincipalBootstrapRecord) :=
  if bootstrapFormat then do
    let record ← decodeBootstrapRecord env revision readSchemaFloor writeSchemaFloor
    return some record
  else return none

/-- mirrors plugins/cluster-plugin/src/control_state_codec.rs:270-468 -/
def decodeFields : Get StateCodecError ControlState := do
  let (schemaVersion, advanced, bootstrapFormat) ← decodeHeader
  checkGet (schemaVersion = CONTROL_SCHEMA_VERSION) (.unsupportedSchema schemaVersion)
  let clusterId ← lift Reader.string
  let revision ← lift Reader.u64
  let (readSchemaFloor, writeSchemaFloor, activatedFeatures) ← decodeFloors advanced
  let members ← readMap decodeMemberEntry
  let workspaces ← readMap decodeWorkspaceEntry
  let tabs ← readMap decodeTabEntry
  let panes ← readMap decodePaneEntry
  let dedup ← readMap decodeDedupEntry
  let featureDedup ← decodeFeatureTable advanced
  let principalBootstrap ← decodeBootstrap env bootstrapFormat revision readSchemaFloor writeSchemaFloor
  return ⟨schemaVersion, clusterId, revision, readSchemaFloor, writeSchemaFloor, activatedFeatures,
    members, workspaces, tabs, panes, principalBootstrap, [], ∅, dedup, featureDedup⟩

/-- mirrors plugins/cluster-plugin/src/control_state_codec.rs:197-202, 270-471: a snapshot that is
no wrapper -/
def decodePlain (bytes : Bytes) : Outcome StateCodecError ControlState := do
  if bytes.length > MAX_SNAPSHOT_BYTES then .error (.error (.limitExceeded "bytes"))
  else do
    let s ← wholeState (decodeFields env) bytes
    (validateReferences s).mapError .error
    return s

/-- mirrors plugins/cluster-plugin/src/control_state_codec.rs:250-261 -/
def decodeRefreshEntry (revision : UInt64) : Get StateCodecError (Uuid × (Digest × UInt64)) := do
  let id ← lift Reader.uuid
  let fingerprint ← lift Reader.digest
  let committed ← lift Reader.u64
  checkGet (¬ (id = 0 ∨ committed = 0 ∨ committed > revision)) (.invalidState "invalid refresh outcome")
  return (id, (fingerprint, committed))

/-- mirrors plugins/cluster-plugin/src/control_state_codec.rs:244-269 -/
def decodeRefreshFields : Get StateCodecError ControlState := do
  let base ← lift Reader.bytes
  checkGet (¬ (REFRESH_SNAPSHOT_MAGIC <+: base ∨ PUBLICATION_SNAPSHOT_MAGIC <+: base))
    (.invalidState "nested refresh snapshot")
  let s ← StateT.lift (decodePlain env base)
  let refreshOutcomes ← readMap (decodeRefreshEntry s.revision)
  checkGet (¬ (refreshOutcomes.isEmpty ∨ refreshOutcomes.size > 1024))
    (.invalidState "invalid refresh outcome count")
  return { s with refreshOutcomes }

/-- A wrapper, told by its magic, or what `inner` decodes. -/
def decodeWrapped (magic : Bytes) (fields : Get StateCodecError ControlState)
    (inner : Bytes → Outcome StateCodecError ControlState) (bytes : Bytes) :
    Outcome StateCodecError ControlState :=
  if bytes.length > MAX_SNAPSHOT_BYTES then .error (.error (.limitExceeded "bytes"))
  else if magic <+: bytes then wholeState fields (bytes.drop 8)
  else inner bytes

def decodeUnpublished : Bytes → Outcome StateCodecError ControlState :=
  decodeWrapped REFRESH_SNAPSHOT_MAGIC (decodeRefreshFields env) (decodePlain env)

end

/-- What the decoder has seen of the publication history: the last revision,
the command ids, and the next report revision of each node. -/
structure Tally where
  lastRevision : UInt64
  ids : ExtTreeSet Uuid compare
  revisions : ExtTreeMap String UInt64 compare

def Tally.start : Tally := ⟨0, ∅, ∅⟩

/-- mirrors plugins/cluster-plugin/src/control_state_codec.rs:226-237, one report -/
def tallyReport (clusterId : String) (t : Tally) (report : CapabilityReport) : Except StateCodecError Tally :=
  let expected := t.revisions[report.nodeId]?.getD 0
  if report.clusterId ≠ clusterId ∨ report.expectedReportRevision ≠ expected ∨
      report.commandId.value ∈ t.ids then .error (.invalidState "invalid publication history")
  else match checkedSucc expected with
    | none => .error (.invalidState "report revision overflow")
    | some next => .ok { t with
        ids := t.ids.insert report.commandId.value
        revisions := t.revisions.insert report.nodeId next }

/-- mirrors plugins/cluster-plugin/src/control_state_codec.rs:221-239, one turn of the loop -/
def tallyEntry (s : ControlState) (t : Tally) (entry : PublicationCommand × UInt64) :
    Except StateCodecError Tally := do
  checkState (¬ (entry.2 ≤ t.lastRevision ∨ entry.2 > s.revision)) "invalid publication revision"
  let t ← entry.1.reports.foldlM (tallyReport s.clusterId) t
  return { t with lastRevision := entry.2 }

def decodePublication (bytes : Bytes) : Outcome StateCodecError PublicationCommand :=
  match PublicationCommand.decode bytes with
  | .ok command => .ok command
  | .error .panicked => .error .panicked
  | .error (.error _) => .error (.error (.invalidState "invalid publication command"))

/-- mirrors plugins/cluster-plugin/src/control_state_codec.rs:216-240, the loop -/
def readHistory (s : ControlState) : Nat → Tally → Get StateCodecError (List (PublicationCommand × UInt64))
  | 0, _ => pure []
  | n + 1, t => do
    let bytes ← lift Reader.bytes
    let command ← StateT.lift (decodePublication bytes)
    let revision ← lift Reader.u64
    let t ← StateT.lift ((tallyEntry s t (command, revision)).mapError .error)
    let rest ← readHistory s n t
    return (command, revision) :: rest

/-- mirrors plugins/cluster-plugin/src/control_state_codec.rs:203-243 -/
def decodePublicationSnapshot (env : Env) : Get StateCodecError ControlState := do
  let base ← lift Reader.bytes
  checkGet (¬ PUBLICATION_SNAPSHOT_MAGIC <+: base) (.invalidState "nested publication snapshot")
  let s ← StateT.lift (decodeUnpublished env base)
  let count ← lift Reader.u16
  checkGet (¬ (count = 0 ∨ count > 64)) (.limitExceeded "publication history")
  let publicationHistory ← readHistory s count.toNat .start
  return { s with publicationHistory }

def decodeSnapshot (env : Env) : Bytes → Outcome StateCodecError ControlState :=
  decodeWrapped PUBLICATION_SNAPSHOT_MAGIC (decodePublicationSnapshot env) (decodeUnpublished env)

end Bmux.Control
