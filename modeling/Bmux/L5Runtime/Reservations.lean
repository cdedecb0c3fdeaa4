import Bmux.Core.Sections
import Bmux.L1Encoding.Canonical

/-!
# Durable admission of terminal executions

`ReservationStore` is the directory of an execution authority: one file per launch, per input,
per retirement and per resolution. Every access holds the lock of the store, so each use of
`with_store` is one critical section here. A call that runs an effect (create a process, write
to a pane, terminate a process) is cut into the sections before and after that effect.

* Files are read back as the values that were written, so `serde_json` does not appear; two
  values have the same JSON exactly when they are equal.
* A revision counts the commits of one file, as a natural number.
* What the process sees outside of the store is an argument: whether the call is admitted and
  the lock granted, how each commit turns out, the runtime's status of an execution, and what
  its capture spool says.
-/
namespace Bmux.Reservations
open Canonical (Uuid)
open SectionM (load refuse lift publish)

/-! ## Records -/

/-- mirrors plugins/pane-runtime-plugin-api/bpdl/pane-runtime-plugin.bpdl:150-157.
`env` is an ordered map, given by its entries. -/
structure ProgramOptions where
  program : String
  args : List String
  cwd : Option String
  env : List (String × String)
  cols : Nat
  rows : Nat
  deriving DecidableEq, Repr

structure ExecutionRef where
  sessionId : Uuid
  paneId : Uuid
  executionToken : Uuid
  deriving DecidableEq, Repr

structure CaptureCursor where
  execution : ExecutionRef
  spoolGeneration : Uuid
  offset : Nat
  deriving DecidableEq, Repr

inductive LaunchPhase where
  | reserved | launching | running | exited | uncertain | failed | retired
  deriving DecidableEq, Repr

inductive InputPhase where
  | accepted | writing | completed | uncertain | rejected
  deriving DecidableEq, Repr

inductive ResolutionAction where
  | cancelUnstarted | terminateOwnedExecution | acknowledgeUncertainInput
  deriving DecidableEq, Repr

inductive RecoveryError where
  | denied (reason : String)
  | unavailable (reason : String)
  | invalidOptions (reason : String)
  | conflict (reason : String)
  | notFound (reason : String)
  | capacity (reason : String)
  | revisionConflict (actualRevision : Nat)
  | recoveryRequired (reason : String)
  | operationFailed (reason : String)
  deriving DecidableEq, Repr

inductive ExecutionError where
  | unavailable
  | notFound
  | staleExecution
  | denied (reason : String)
  | invalidOptions (reason : String)
  | launchFailed (reason : String)
  | operationFailed (reason : String)
  deriving DecidableEq, Repr

structure LaunchReservation where
  execution : ExecutionRef
  launchMutationId : Uuid
  revision : Nat
  options : ProgramOptions
  initialCursor : CaptureCursor
  deriving DecidableEq, Repr

structure LaunchReceipt where
  reservation : LaunchReservation
  phase : LaunchPhase
  revision : Nat
  exitCode : Option Nat
  exitSignal : Option String
  cleanupComplete : Bool
  error : Option String
  deriving DecidableEq, Repr

structure InputReceipt where
  execution : ExecutionRef
  inputMutationId : Uuid
  revision : Nat
  phase : InputPhase
  admittedBytes : Nat
  acknowledgedBytes : Nat
  error : Option String
  deriving DecidableEq, Repr

structure ResolutionReceipt where
  execution : ExecutionRef
  resolutionMutationId : Uuid
  revision : Nat
  action : ResolutionAction
  inputMutationId : Option Uuid
  cleanupComplete : Bool
  recoveryRequired : Bool
  error : Option String
  deriving DecidableEq, Repr

structure RetirementReceipt where
  execution : ExecutionRef
  retirementMutationId : Uuid
  revision : Nat
  retired : Bool
  deriving DecidableEq, Repr

inductive SessionEnd where
  | active | draining | ended | recoveryRequired
  deriving DecidableEq, Repr

inductive CaptureIntegrity where
  | capturing | complete | incomplete
  deriving DecidableEq, Repr

inductive ExecutionPhase where
  | running | exited | failed
  deriving DecidableEq, Repr

/-- The fields of a runtime status that admission reads,
plugins/pane-runtime-plugin-api/bpdl/pane-runtime-plugin.bpdl:167-180 -/
structure ExecutionStatus where
  execution : ExecutionRef
  phase : ExecutionPhase
  terminalSessionEnded : Bool
  captureIntegrity : CaptureIntegrity
  exitCode : Option Nat
  signal : Option String
  cleanupComplete : Bool
  error : Option String
  deriving DecidableEq, Repr

/-- mirrors plugins/pane-runtime-plugin-api/bpdl/pane-runtime-plugin.bpdl:264-277.
The supervisor is never named and the timing never complete. -/
structure Reconciliation where
  launch : LaunchReceipt
  captureComplete : Bool
  oldestCursor : CaptureCursor
  continuationCursor : CaptureCursor
  recoveryRequired : Bool
  sessionEnd : SessionEnd
  terminalSessionEnded : Bool
  captureIntegrity : CaptureIntegrity
  deriving DecidableEq, Repr

structure CaptureBoundary where
  bytes : Nat
  eof : Bool
  error : Option String
  deriving DecidableEq, Repr

/-- The capture spool of an execution: `none` if there is none, an error if reading it fails. -/
abbrev Capture := Option (Except String CaptureBoundary)

structure EnvironmentEntry where
  key : List UInt8
  value : List UInt8
  encoding : Option String
  deriving DecidableEq, Repr

/-! ## The files of the store -/

structure StoredReservation where
  version : Nat
  receipt : LaunchReceipt
  environment : Option (List EnvironmentEntry)
  deriving DecidableEq, Repr

structure StoredInput where
  version : Nat
  data : List UInt8
  receipt : InputReceipt
  deriving DecidableEq, Repr

/-- The committed intent of a retirement, `(4, expected, receipt)`. -/
structure StoredRetirement where
  version : Nat
  expected : Nat
  receipt : RetirementReceipt
  deriving DecidableEq, Repr

/-- The arguments of a resolution, whose JSON is compared on a retry. -/
structure ResolutionRequest where
  reference : ExecutionRef
  mutation : Uuid
  expected : Nat
  action : ResolutionAction
  input : Option Uuid
  grace : Nat
  deriving DecidableEq, Repr

/-- The intent of a resolution, and its receipt once it is settled. -/
structure StoredResolution where
  version : Nat
  request : ResolutionRequest
  receipt : Option ResolutionReceipt
  deriving DecidableEq, Repr

/-- Files by the identities in their names. The order of the list is that of the directory. -/
abbrev Directory (κ ν : Type) := AList (fun _ : κ => ν)

/-- mirrors plugins/pane-runtime-plugin/src/runtime/reservations.rs:335-339.
Inputs, retirements and resolutions are named by an execution token and a mutation. -/
structure ReservationStore where
  launches : Directory Uuid StoredReservation
  inputs : Directory (Uuid × Uuid) StoredInput
  retirements : Directory (Uuid × Uuid) StoredRetirement
  resolutions : Directory (Uuid × Uuid) StoredResolution

def ReservationStore.empty : ReservationStore := ⟨∅, ∅, ∅, ∅⟩

def failed (error : String) : RecoveryError := .operationFailed error

def noSuchFile : String := "No such file or directory (os error 2)"

/-- What the process around the store answers during one critical section. -/
structure Host where
  /-- The fence of managed idling and the readiness of the runtime. -/
  admission : Except RecoveryError Unit
  /-- `with_store`: the authority is activated and its lock is granted. -/
  access : Except RecoveryError Unit
  /-- How the commits of the section turn out. -/
  publications : List Publication
  /-- Is this path a directory? -/
  isDir : String → Bool
  /-- The derived `Debug` text of an error of the runtime. -/
  debug : ExecutionError → String

/-! ## Validation -/

def validEntry (entry : EnvironmentEntry) : Bool :=
  (entry.encoding.isNone || entry.encoding == some "unix-bytes") && !entry.key.isEmpty && !entry.key.contains 0
    && !entry.key.contains '='.toNat.toUInt8 && !entry.value.contains 0

/-- The loop of `validate`, plugins/pane-runtime-plugin/src/runtime/environment.rs:16-28:
`prior` are the entries before this one, latest first. -/
def validateEntries (prior : List EnvironmentEntry) (bytes : Nat) : List EnvironmentEntry → Except String Unit
  | [] => .ok ()
  | entry :: entries =>
    let bytes := bytes + entry.key.length + entry.value.length
    if bytes > 1024 * 1024 ∨ ¬ validEntry entry ∨ prior.any (fun p => p.key = entry.key) then
      .error "invalid, duplicate, incompatible, or oversized native environment"
    else validateEntries (entry :: prior) bytes entries

def validateEnvironment (entries : List EnvironmentEntry) : Except String Unit :=
  if entries.length > 4096 then .error "environment entry limit exceeded" else validateEntries [] 0 entries

def validateSize (cols rows : Nat) : Except ExecutionError Unit :=
  if cols = 0 ∨ rows = 0 ∨ cols > 1000 ∨ rows > 1000 then .error (.invalidOptions "PTY dimensions must be 1..=1000")
  else .ok ()

/-- Variables a program's options may not set, plugins/pane-runtime-plugin/src/runtime/execution.rs:675-680 -/
def RUNTIME_OWNED : List String :=
  ["TERM", "COLORTERM", "TERM_PROGRAM", "TERM_PROGRAM_VERSION", "BMUX_PANE_ID", "APPLICATION_RESURRECTION_HOST"]

/-- mirrors plugins/pane-runtime-plugin/src/runtime/execution.rs:645-689 -/
def validateOptions (isDir : String → Bool) (options : ProgramOptions) : Except ExecutionError Unit := do
  let nul (s : String) : Bool := s.toList.contains '\x00'
  if options.program = "" ∨ nul options.program ∨ options.args.any nul then
    throw (.invalidOptions "program and arguments must be non-NUL; program must not be empty")
  validateSize options.cols options.rows
  if options.env.any (fun (key, value) => key = "" ∨ key.toList.contains '=' ∨ nul key ∨ nul value) then
    throw (.invalidOptions "invalid environment entry")
  if let some cwd := options.cwd then
    if nul cwd ∨ ¬ cwd.startsWith "/" ∨ ¬ isDir cwd then
      throw (.invalidOptions "cwd must be an existing absolute execution-host directory")
  if options.env.any (fun (key, _) => RUNTIME_OWNED.contains key) then
    throw (.invalidOptions "environment cannot override runtime-owned terminal or execution identity")

/-! ## Reading and committing -/

namespace ReservationStore

variable (s : ReservationStore)

def read (mutation : Uuid) : Except RecoveryError StoredReservation :=
  match s.launches.lookup mutation with
  | none => .error (failed noSuchFile)
  | some stored =>
    if stored.version ≠ 4 ∧ stored.version ≠ 5 then
      .error (.recoveryRequired "unsupported execution authority format")
    else if decide (stored.version = 5) ≠ stored.environment.isSome then
      .error (.recoveryRequired "invalid execution environment format")
    else match (stored.environment.map validateEnvironment).getD (.ok ()) with
      | .error reason => .error (.recoveryRequired reason)
      | .ok () => .ok stored

def findIn (reference : ExecutionRef) : List Uuid → Except RecoveryError StoredReservation
  | [] => .error (.notFound "execution has no durable admission")
  | mutation :: rest => do
    let stored ← s.read mutation
    if stored.receipt.reservation.execution = reference then return stored
    else findIn reference rest

def find (reference : ExecutionRef) : Except RecoveryError StoredReservation :=
  s.findIn reference s.launches.keys

def setLaunch (stored : StoredReservation) : ReservationStore :=
  { s with launches := s.launches.insert stored.receipt.reservation.launchMutationId stored }

variable (key : Uuid × Uuid)

def setInput (stored : StoredInput) : ReservationStore :=
  { s with inputs := s.inputs.insert key stored }

def setRetirement (stored : StoredRetirement) : ReservationStore :=
  { s with retirements := s.retirements.insert key stored }

def setResolution (stored : StoredResolution) : ReservationStore :=
  { s with resolutions := s.resolutions.insert key stored }

end ReservationStore

abbrev StoreM := SectionM RecoveryError ReservationStore

def commit (stored : StoredReservation) : StoreM Unit := publish failed (·.setLaunch stored)

/-! ## Reserving -/

/-- The identities that `Uuid::new_v4` draws for a reservation. -/
structure Drawn where
  sessionId : Uuid
  paneId : Uuid
  executionToken : Uuid
  spoolGeneration : Uuid

/-- The reservation that is committed, plugins/pane-runtime-plugin/src/runtime/reservations.rs:440-458 -/
def LaunchReservation.new (mutation : Uuid) (options : ProgramOptions) (drawn : Drawn) : LaunchReservation :=
  let execution := ⟨drawn.sessionId, drawn.paneId, drawn.executionToken⟩
  { execution, launchMutationId := mutation, revision := 1, options,
    initialCursor := ⟨execution, drawn.spoolGeneration, 0⟩ }

/-- Its launch file, plugins/pane-runtime-plugin/src/runtime/reservations.rs:459-472 -/
def StoredReservation.new (reservation : LaunchReservation) (environment : Option (List EnvironmentEntry)) :
    StoredReservation where
  version := if environment.isSome then 5 else 4
  environment := environment
  receipt := { reservation, phase := .reserved, revision := 1, exitCode := none, exitSignal := none,
               cleanupComplete := false, error := none }

variable (host : Host)

variable (stored : StoredReservation) (mutation : Uuid) (options : ProgramOptions)

/-- mirrors plugins/pane-runtime-plugin/src/runtime/reservations.rs:388-474, the method of the
store behind both requests -/
def reserveIn (environment : Option (List EnvironmentEntry)) (authorize : Uuid → Except RecoveryError Unit)
    (drawn : Drawn) :
    StoreM LaunchReservation := do
  let s ← load
  if mutation ∈ s.launches then
    let stored ← lift (s.read mutation)
    lift (authorize stored.receipt.reservation.execution.sessionId)
    refuse (environment ≠ stored.environment) (.conflict "conflicting environment semantics")
    refuse (options ≠ stored.receipt.reservation.options) (.conflict "conflicting launch mutation identity")
    return stored.receipt.reservation
  else
    refuse (s.launches.keys.length ≥ 128) (.capacity "execution authority capacity exhausted")
    lift ((validateOptions host.isDir options).mapError (fun e => .invalidOptions (host.debug e)))
    let reservation := LaunchReservation.new mutation options drawn
    lift (authorize reservation.execution.sessionId)
    commit (.new reservation environment)
    return reservation

def reserve (authorize : Uuid → Except RecoveryError Unit) (drawn : Drawn) : StoreM LaunchReservation := do
  lift host.admission
  lift host.access
  reserveIn host mutation options none authorize drawn

def reserveEnvironment (environment : List EnvironmentEntry) (authorize : Uuid → Except RecoveryError Unit)
    (drawn : Drawn) :
    StoreM LaunchReservation := do
  lift ((validateEnvironment environment).mapError .operationFailed)
  refuse (options.env ≠ []) (.conflict "complete environment cannot include overlay")
  lift host.access
  reserveIn host mutation options (some environment) authorize drawn

/-! ## Launching -/

def StoredReservation.moved (phase : LaunchPhase) : StoredReservation :=
  { stored with receipt := { stored.receipt with phase, revision := stored.receipt.revision + 1 } }

def StoredReservation.blamed (phase : LaunchPhase) (error : String) : StoredReservation :=
  { stored with receipt := { stored.receipt with phase, revision := stored.receipt.revision + 1, error := some error } }

variable (reservation : LaunchReservation)

/-- The first section of a launch, plugins/pane-runtime-plugin/src/runtime/reservations.rs:84-106:
is this call the one that runs the effect, and the receipt. -/
def admitLaunch (authorize : Uuid → Except String Unit) :
    StoreM (Bool × LaunchReceipt) := do
  lift host.admission
  lift host.access
  let s ← load
  let stored ← lift (s.read reservation.launchMutationId)
  lift ((authorize stored.receipt.reservation.execution.sessionId).mapError .denied)
  refuse (reservation ≠ stored.receipt.reservation) (.conflict "reservation does not match committed admission")
  if stored.receipt.phase ≠ .reserved then return (false, stored.receipt)
  else
    commit (stored.moved .launching)
    return (true, (stored.moved .launching).receipt)

/-- The answer of a launch that runs no effect, plugins/pane-runtime-plugin/src/runtime/reservations.rs:107-119 -/
def replayLaunch (receipt : LaunchReceipt) : Except RecoveryError LaunchReceipt :=
  if receipt.phase = .launching ∨ receipt.phase = .uncertain then
    .error (.recoveryRequired "launch intent already committed; reconcile retained identity, never relaunch")
  else .ok receipt

/-- The second section, plugins/pane-runtime-plugin/src/runtime/reservations.rs:120-121 -/
def launchEnvironment : StoreM (Option (List EnvironmentEntry)) := do
  lift host.access
  let s ← load
  let stored ← lift (s.read reservation.launchMutationId)
  return stored.environment

/-- The receipt after the create effect, plugins/pane-runtime-plugin/src/runtime/reservations.rs:140-154 -/
def StoredReservation.launched (debug : ExecutionError → String) (stored : StoredReservation)
    (reservation : LaunchReservation) : Except ExecutionError ExecutionRef → StoredReservation
  | .ok reference =>
    if reference = reservation.execution then stored.moved .running
    else stored.blamed .uncertain "runtime identity differs from admission"
  | .error error => stored.blamed .uncertain ("launch effect requires reconciliation: " ++ debug error)

/-- The last section, plugins/pane-runtime-plugin/src/runtime/reservations.rs:138-157 -/
def completeLaunch (result : Except ExecutionError ExecutionRef) :
    StoreM LaunchReceipt := do
  lift host.access
  let s ← load
  let stored ← lift (s.read reservation.launchMutationId)
  commit (stored.launched host.debug reservation result)
  return (stored.launched host.debug reservation result).receipt

/-! ## Reconciling -/

/-- The receipt as the runtime's status has it, plugins/pane-runtime-plugin/src/runtime/reservations.rs:788-795 -/
def LaunchReceipt.observed (receipt : LaunchReceipt) (status : ExecutionStatus) : LaunchReceipt :=
  { receipt with
    exitCode := status.exitCode
    exitSignal := status.signal
    cleanupComplete := status.cleanupComplete
    error := status.error
    phase := if status.terminalSessionEnded then .exited else receipt.phase }

def Capture.boundary : Capture → Except RecoveryError (Option CaptureBoundary)
  | none => .ok none
  | some (.ok boundary) => .ok (some boundary)
  | some (.error error) => .error (failed error)

/-- The part of `reconcile` that follows the status, plugins/pane-runtime-plugin/src/runtime/reservations.rs:780-812:
the receipt, whether the session ended, and whether recovery is needed. -/
def observe (stored : StoredReservation) :
    Except ExecutionError ExecutionStatus → StoreM (LaunchReceipt × Bool × Bool)
  | .ok status =>
    let receipt := stored.receipt.observed status
    if receipt ≠ stored.receipt then do
      let receipt := { receipt with revision := receipt.revision + 1 }
      commit { stored with receipt }
      return (receipt, status.terminalSessionEnded, receipt.error.isSome)
    else return (receipt, status.terminalSessionEnded, receipt.error.isSome)
  | .error _ =>
    if stored.receipt.phase ∈ [.reserved, .retired, .exited] then
      return (stored.receipt, decide (stored.receipt.phase ∈ [.exited, .retired]), false)
    else return (stored.receipt, false, true)

variable (reference : ExecutionRef)

/-- mirrors plugins/pane-runtime-plugin/src/runtime/reservations.rs:755-848. The status is read
before the section. -/
def reconcile (current : Except ExecutionError ExecutionStatus)
    (capture : Capture) : StoreM Reconciliation := do
  lift host.access
  let s ← load
  let stored ← lift (s.find reference)
  let boundary ← lift capture.boundary
  let (receipt, ended, recovery) ← observe stored current
  let complete := boundary.any (fun b => b.eof && b.error.isNone)
  let recovery := recovery || boundary.any (·.error.isSome)
  let oldest := receipt.reservation.initialCursor
  return { launch := receipt
           captureComplete := complete
           oldestCursor := oldest
           continuationCursor := { oldest with offset := boundary.elim 0 (·.bytes) }
           recoveryRequired := recovery
           sessionEnd := if recovery then .recoveryRequired else if ended then .ended else .active
           terminalSessionEnded := ended
           captureIntegrity := if complete then .complete else if recovery then .incomplete else .capturing }

/-! ## Input -/

variable (mutation : Uuid)

def inputReceipt : StoreM InputReceipt := do
  lift host.access
  let s ← load
  let _ ← lift (s.find reference)
  let stored ← lift ((s.inputs.lookup (reference.executionToken, mutation)).elim (.error (failed noSuchFile)) .ok)
  refuse (stored.version ≠ 4 ∨ stored.receipt.execution ≠ reference)
    (.recoveryRequired "unsupported or mismatched input receipt")
  return stored.receipt

def validateInputAuthority (launch : LaunchReceipt) (state : ExecutionStatus)
    (captureError : Bool) : Except RecoveryError Unit :=
  if launch.reservation.execution ≠ reference ∨ state.execution ≠ reference then
    .error (.recoveryRequired "stale execution input authority")
  else if launch.phase ≠ .running ∨ state.phase ≠ .running ∨ state.terminalSessionEnded ∨ launch.error.isSome
      ∨ state.error.isSome ∨ state.captureIntegrity = .incomplete ∨ captureError then
    .error (.recoveryRequired "execution authority is not currently writable; reconcile/resolve before input")
  else .ok ()

def validateFreshInput (s : ReservationStore) (reference : ExecutionRef)
    (current : Except ExecutionError ExecutionStatus) (capture : Capture) : Except RecoveryError Unit := do
  let launch ← s.find reference
  let state ← current.mapError (fun e => .recoveryRequired ("input authority unavailable: " ++ host.debug e))
  let boundary ← capture.boundary
  validateInputAuthority reference launch.receipt state (boundary.any (·.error.isSome))

/-- The receipt that is committed before the bytes are written,
plugins/pane-runtime-plugin/src/runtime/reservations.rs:1064-1076 -/
def StoredInput.new (data : List UInt8) : StoredInput where
  version := 4
  data := data
  receipt := { execution := reference, inputMutationId := mutation, revision := 1, phase := .writing,
               admittedBytes := data.length, acknowledgedBytes := 0, error := none }

/-- The first section of a send, plugins/pane-runtime-plugin/src/runtime/reservations.rs:1026-1082:
is this call the one that writes, and the receipt. -/
def claimInput (data : List UInt8)
    (current : Except ExecutionError ExecutionStatus) (capture : Capture) : StoreM (Bool × StoredInput) := do
  lift host.admission
  refuse (data.length > 65536) (.invalidOptions "input exceeds 65536 bytes")
  lift host.access
  let s ← load
  let _ ← lift (s.find reference)
  match s.inputs.lookup (reference.executionToken, mutation) with
  | some stored =>
    refuse (stored.version ≠ 4 ∨ stored.receipt.execution ≠ reference) (.recoveryRequired "input receipt unsupported")
    refuse (stored.data ≠ data) (.conflict "conflicting input mutation")
    return (false, stored)
  | none =>
    lift (validateFreshInput host s reference current capture)
    refuse (s.inputs.keys.length ≥ 4096) (.capacity "retained input receipt capacity exhausted")
    let stored := StoredInput.new reference mutation data
    publish failed (·.setInput (reference.executionToken, mutation) stored)
    return (true, stored)

/-- The receipt after the write, from the copy that was claimed before it,
plugins/pane-runtime-plugin/src/runtime/reservations.rs:1090-1101 -/
def StoredInput.written (debug : ExecutionError → String) (claim : StoredInput) :
    Except ExecutionError Unit → StoredInput
  | .ok () => { claim with receipt := { claim.receipt with
      revision := claim.receipt.revision + 1, phase := .completed, acknowledgedBytes := claim.receipt.admittedBytes } }
  | .error error => { claim with receipt := { claim.receipt with
      revision := claim.receipt.revision + 1, phase := .uncertain, error := some (debug error) } }

/-- The last section of a send, plugins/pane-runtime-plugin/src/runtime/reservations.rs:1089-1113 -/
def completeInput (claim : StoredInput)
    (result : Except ExecutionError Unit) : StoreM InputReceipt := do
  lift host.access
  publish failed (·.setInput (reference.executionToken, mutation) (claim.written host.debug result))
  return (claim.written host.debug result).receipt

/-! ## Retiring -/

/-- An input of the execution that keeps it from being retired,
plugins/pane-runtime-plugin/src/runtime/reservations.rs:1184-1205 -/
def ReservationStore.unresolvedInput (s : ReservationStore) (reference : ExecutionRef) : Bool :=
  s.inputs.entries.any fun entry =>
    entry.1.1 = reference.executionToken ∧
      (entry.2.version ≠ 4 ∨ entry.2.receipt.phase ∈ [.writing, .accepted, .uncertain])

/-- mirrors plugins/pane-runtime-plugin/src/runtime/reservations.rs:1116-1220 -/
def retire (expected : Nat) (capture : Capture) :
    StoreM RetirementReceipt := do
  lift host.admission
  lift host.access
  let s ← load
  match s.retirements.lookup (reference.executionToken, mutation) with
  | some retained =>
    refuse (retained.version ≠ 4 ∨ retained.expected ≠ expected ∨ retained.receipt.execution ≠ reference)
      (.conflict "conflicting retirement mutation")
    let stored ← lift (s.find reference)
    if stored.receipt.revision = expected then
      commit { stored with receipt := { stored.receipt with phase := .retired, revision := retained.receipt.revision } }
      return retained.receipt
    else
      refuse (stored.receipt.revision ≠ retained.receipt.revision ∨ stored.receipt.phase ≠ .retired)
        (.recoveryRequired "retirement intent conflicts with retained authority")
      return retained.receipt
  | none =>
    let stored ← lift (s.find reference)
    refuse (stored.receipt.revision ≠ expected) (.revisionConflict stored.receipt.revision)
    let boundary ← lift ((capture.getD (.error noSuchFile)).mapError failed)
    refuse (boundary.eof = false ∨ boundary.error.isSome ∨ stored.receipt.phase ≠ .exited ∨ stored.receipt.error.isSome)
      (.recoveryRequired "retirement requires retained terminal end and durable complete capture")
    refuse (s.unresolvedInput reference) (.recoveryRequired "unresolved input receipts prevent retirement")
    let receipt : RetirementReceipt :=
      { execution := reference, retirementMutationId := mutation, revision := expected + 1, retired := true }
    -- The intent is durable before the launch receipt changes, so a retry can finish the change.
    publish failed (·.setRetirement (reference.executionToken, mutation) ⟨4, expected, receipt⟩)
    commit { stored with receipt := { stored.receipt with phase := .retired, revision := receipt.revision } }
    return receipt

/-! ## Resolving -/

variable (request : ResolutionRequest)

/-- The first section of a resolution, plugins/pane-runtime-plugin/src/runtime/reservations.rs:1240-1287:
the receipt of a settled resolution, or `none` if this call settles it. -/
def claimResolution : StoreM (Option ResolutionReceipt) := do
  lift host.admission
  lift host.access
  let s ← load
  match s.resolutions.lookup (request.reference.executionToken, request.mutation) with
  | some retained =>
    refuse (retained.version ≠ 4 ∨ retained.request ≠ request) (.conflict "conflicting resolution mutation")
    refuse (retained.receipt = none) (.recoveryRequired "resolution intent unsettled; no effect replay")
    return retained.receipt
  | none =>
    let stored ← lift (s.find request.reference)
    refuse (stored.receipt.revision ≠ request.expected) (.revisionConflict stored.receipt.revision)
    refuse (request.action = .cancelUnstarted ∧ stored.receipt.phase ≠ .reserved)
      (.recoveryRequired "launch intent already exists; cannot cancel as unstarted")
    publish failed (·.setResolution (request.reference.executionToken, request.mutation) ⟨4, request, none⟩)
    return none

/-- The effect of a resolution, given what terminating the execution does,
plugins/pane-runtime-plugin/src/runtime/reservations.rs:1291-1307 -/
def resolutionEffect (terminated : Except ExecutionError Unit) :
    Except String Unit :=
  match request.action with
  | .terminateOwnedExecution => terminated.mapError host.debug
  | .cancelUnstarted => .ok ()
  | .acknowledgeUncertainInput => if request.input = none then .error "input mutation is required" else .ok ()

/-- The receipt of an input whose uncertainty is acknowledged,
plugins/pane-runtime-plugin/src/runtime/reservations.rs:1362-1366 -/
def StoredInput.acknowledged (value : StoredInput) : StoredInput :=
  { value with receipt := { value.receipt with
      phase := .rejected, revision := value.receipt.revision + 1,
      error := some "uncertainty explicitly acknowledged; consumption not asserted" } }

/-- Acknowledging an input, plugins/pane-runtime-plugin/src/runtime/reservations.rs:1339-1368 -/
def acknowledgeInput (input : Option Uuid) : StoreM Unit := do
  let id ← lift (input.elim (.error (.invalidOptions "input mutation required")) .ok)
  let s ← load
  let value ← lift ((s.inputs.lookup (reference.executionToken, id)).elim (.error (failed noSuchFile)) .ok)
  refuse (value.version ≠ 4 ∨ value.receipt.execution ≠ reference) (.recoveryRequired "input authority mismatch")
  refuse (value.receipt.phase ≠ .writing ∧ value.receipt.phase ≠ .uncertain) (.conflict "input is not uncertain")
  publish failed (·.setInput (reference.executionToken, id) value.acknowledged)

variable (stored : StoredReservation) (effect : Except String Unit)

/-- What a resolution does beside the launch file, plugins/pane-runtime-plugin/src/runtime/reservations.rs:1333-1370 -/
def applyResolution : StoreM Unit :=
  if effect.isOk ∧ request.action = .acknowledgeUncertainInput then acknowledgeInput request.reference request.input
  else pure ()

def StoredReservation.settled (action : ResolutionAction) (effect : Except String Unit) : StoredReservation :=
  match effect, action with
  | .ok (), .cancelUnstarted => stored.blamed .failed "unstarted launch explicitly cancelled"
  | _, _ => stored.moved stored.receipt.phase

/-- The receipt of a resolution, plugins/pane-runtime-plugin/src/runtime/reservations.rs:1374-1383 -/
def ResolutionReceipt.new : ResolutionReceipt where
  execution := request.reference
  resolutionMutationId := request.mutation
  revision := stored.receipt.revision
  action := request.action
  inputMutationId := request.input
  cleanupComplete := stored.receipt.cleanupComplete
  recoveryRequired := !effect.isOk
  error := match effect with | .ok () => none | .error e => some e

def settleResolution : StoreM ResolutionReceipt := do
  lift host.access
  let s ← load
  let stored ← lift (s.find request.reference)
  refuse (stored.receipt.revision ≠ request.expected) (.revisionConflict stored.receipt.revision)
  applyResolution request effect
  let stored := stored.settled request.action effect
  commit stored
  let receipt := ResolutionReceipt.new request stored effect
  publish failed (·.setResolution (request.reference.executionToken, request.mutation) ⟨4, request, some receipt⟩)
  return receipt

end Bmux.Reservations
