import Bmux.L5Runtime.Reservations

/-!
# The live projection of an execution

`runtime/live_presentation.rs` answers a client's poll from observations of an execution that goes on
changing: its revision, its status and its screen, each sampled apart, and only the screen together
with the revision it shows. The `n`-th observation of an execution is what it answers at the time `n`,
so any evolution is one; a poll looks from its own time on.

`live_projection`: a client that polls with its last cursor holds the screen of that cursor.
-/
namespace Bmux.Live
open Canonical (Uuid)
open Reservations (ExecutionRef ExecutionError ExecutionPhase)

/-- mirrors plugins/pane-runtime-plugin/src/runtime/execution.rs:543-551, without the durable watermark, which is
not read here -/
structure LiveRevision where
  gridRevision : Nat
  resetRevision : Nat
  geometryRevision : Nat
  projectedWatermark : Nat
  captureFailure : Option String

/-- The fields of a status that a cursor has. -/
structure Status where
  phase : ExecutionPhase
  outputWatermark : Nat
  outputDrained : Bool
  terminalSessionEnded : Bool
  error : Option String

@[ext]
structure LiveCursor where
  execution : ExecutionRef
  sourceEpoch : Uuid
  sourceResetRevision : Nat
  gridRevision : Nat
  geometryRevision : Nat
  projectedRawWatermark : Nat
  durableRawWatermark : Nat
  targetExited : Bool
  outputDrained : Bool
  terminalSessionEnded : Bool
  recoveryRequired : Bool
  deriving DecidableEq

structure LiveFrame (Screen : Type) where
  cursor : LiveCursor
  screen : Option Screen

inductive LiveError where
  | invalidRequest (reason : String)
  | oversized (maxBytes : Nat)
  | authority (error : ExecutionError)

/-- An execution as it is seen from outside. -/
structure Execution (Screen : Type) where
  reference : ExecutionRef
  liveRevision : Nat → Except ExecutionError LiveRevision
  status : Nat → Except ExecutionError Status
  liveScreen : Nat → Except ExecutionError (Screen × LiveRevision)
  authorize : Nat → Except ExecutionError Unit
  /-- the pieces in which a frame's JSON text is written -/
  encode : LiveFrame Screen → Option (List (List UInt8))

def sameGrid (a b : LiveCursor) : Bool :=
  a.execution = b.execution ∧ a.sourceEpoch = b.sourceEpoch ∧ a.sourceResetRevision = b.sourceResetRevision ∧
    a.gridRevision = b.gridRevision ∧ a.geometryRevision = b.geometryRevision

def sameCursor (a b : LiveCursor) : Bool :=
  sameGrid a b ∧ a.projectedRawWatermark = b.projectedRawWatermark ∧ a.durableRawWatermark = b.durableRawWatermark ∧
    a.targetExited = b.targetExited ∧ a.outputDrained = b.outputDrained ∧
    a.terminalSessionEnded = b.terminalSessionEnded ∧ a.recoveryRequired = b.recoveryRequired

def ResponseBudget.write (remaining : Nat) (bytes : List UInt8) : Option Nat :=
  if bytes.length ≤ remaining then some (remaining - bytes.length) else none

/-- What ends a wait for a change. -/
inductive Wake where
  | changed
  | closed (error : String)
  | elapsed

structure Poll where
  start : Nat
  timeoutMs : Nat
  maxBytes : Nat
  /-- whether the subscription and the owner's runtime are there -/
  driven : Except ExecutionError Unit
  /-- the deadline is over after these -/
  wakes : List Wake

section
variable {Screen : Type} (ex : Execution Screen) (after : Option LiveCursor) (maxBytes : Nat) (t : Nat)

/-- mirrors plugins/pane-runtime-plugin/src/runtime/live_presentation.rs:61-79 -/
def cursor : Except LiveError LiveCursor := do
  let revision ← (ex.liveRevision t).mapError .authority
  let status ← (ex.status (t + 1)).mapError .authority
  return {
    execution := ex.reference
    sourceEpoch := ex.reference.executionToken
    sourceResetRevision := revision.resetRevision
    gridRevision := revision.gridRevision
    geometryRevision := revision.geometryRevision
    projectedRawWatermark := revision.projectedWatermark
    durableRawWatermark := status.outputWatermark
    targetExited := status.phase ≠ .running
    outputDrained := status.outputDrained
    terminalSessionEnded := status.terminalSessionEnded
    recoveryRequired := revision.captureFailure.isSome || status.error.isSome }

/-- The screen with the cursor it was captured at,
plugins/pane-runtime-plugin/src/runtime/live_presentation.rs:130-146 -/
def capture : Except LiveError (LiveFrame Screen) := do
  let (screen, revision) ← (ex.liveScreen (t + 2)).mapError fun error =>
    if error = .operationFailed "screen exceeds response budget" then .oversized maxBytes else .authority error
  let current ← cursor ex (t + 3)
  return ⟨{ current with
    sourceResetRevision := revision.resetRevision
    gridRevision := revision.gridRevision
    geometryRevision := revision.geometryRevision
    projectedRawWatermark := revision.projectedWatermark }, some screen⟩

/-- What a client after the cursor `after` is given,
plugins/pane-runtime-plugin/src/runtime/live_presentation.rs:125-147 -/
def frame (before : LiveCursor) : Except LiveError (LiveFrame Screen) :=
  if after.any (sameGrid · before) then return ⟨before, none⟩ else capture ex maxBytes t

def readCurrent : Except LiveError (Option (LiveFrame Screen)) := do
  let before ← cursor ex t
  if after.any (sameCursor · before) then return none
  let frame ← frame ex after maxBytes t before
  match (ex.encode frame).bind fun pieces => pieces.foldlM ResponseBudget.write maxBytes with
  | some _ => return some frame
  | none => throw (.oversized maxBytes)

/-- One round of the loop, plugins/pane-runtime-plugin/src/runtime/live_presentation.rs:207-211 -/
def look : Except LiveError (Option (LiveFrame Screen)) := do
  (ex.authorize t).mapError .authority
  let frame ← readCurrent ex after maxBytes (t + 1)
  if frame.isSome then (ex.authorize (t + 6)).mapError .authority
  return frame

def waitOnOwner (t : Nat) : List Wake → Except LiveError (Option (LiveFrame Screen))
  | [] => look ex after maxBytes t
  | wake :: wakes => do
    match ← look ex after maxBytes t, wake with
    | some frame, _ => return some frame
    | none, .changed => waitOnOwner (t + 8) wakes
    | none, .closed error => throw (.authority (.operationFailed error))
    | none, .elapsed =>
      (ex.authorize (t + 7)).mapError .authority
      return none

def validate (p : Poll) : Except LiveError Unit := do
  if p.timeoutMs > 1000 ∨ p.maxBytes = 0 ∨ p.maxBytes > 4 * 1024 * 1024 then
    throw (.invalidRequest "timeout <=1000ms; response budget 1..=4194304")
  if after.any fun cursor => cursor.execution ≠ ex.reference then throw (.authority .staleExecution)

def waitPresent (p : Poll) : Except LiveError (Option (LiveFrame Screen)) := do
  validate ex after p
  (ex.authorize p.start).mapError .authority
  p.driven.mapError .authority
  waitOnOwner ex after p.maxBytes (p.start + 1) p.wakes

variable (grid : Uuid → Nat → Nat → Nat → Screen)

/-- The grid that a cursor identifies. -/
def shown (c : LiveCursor) : Screen := grid c.sourceEpoch c.sourceResetRevision c.gridRevision c.geometryRevision

/-- What a poll from `start` on may answer to a client whose last cursor is `after`. -/
def Answers (start : Nat) : Option (LiveFrame Screen) → Prop
  | none => ∃ t ≥ start, ∃ c, cursor ex t = .ok c ∧ after = some c
  | some frame => frame.screen.or (after.map (shown grid)) = some (shown grid frame.cursor) ∧
      ∃ pieces, ex.encode frame = some pieces ∧ pieces.flatten.length ≤ maxBytes

structure Client (Screen : Type) where
  cursor : Option LiveCursor
  screen : Option Screen

/-- A client polls with its last cursor, and replaces its screen whenever a frame carries one. -/
def Client.poll (client : Client Screen) (p : Poll) : Client Screen :=
  match waitPresent ex client.cursor p with
  | .ok (some frame) => ⟨some frame.cursor, frame.screen.or client.screen⟩
  | _ => client

def Client.Coherent (client : Client Screen) : Prop := client.screen = client.cursor.map (shown grid)

variable {ex after maxBytes t grid} {start : Nat} {r : Option (LiveFrame Screen)}

theorem write_fits {pieces : List (List UInt8)} {remaining left : Nat}
    (h : pieces.foldlM ResponseBudget.write remaining = some left) : pieces.flatten.length ≤ remaining := by
  induction pieces generalizing remaining with
  | nil => simp
  | cons bytes pieces ih =>
    obtain ⟨r, hw, hr⟩ := Option.bind_eq_some_iff.mp h
    grind [ResponseBudget.write]

-- the screen is captured with its revision, which determines the grid of an epoch
variable (hcapture : ∀ t screen revision, ex.liveScreen t = .ok (screen, revision) → screen =
  grid ex.reference.executionToken revision.resetRevision revision.gridRevision revision.geometryRevision)
include hcapture

theorem frame_shows {before : LiveCursor} {f : LiveFrame Screen} (h : frame ex after maxBytes t before = .ok f) :
    f.screen.or (after.map (shown grid)) = some (shown grid f.cursor) := by
  unfold frame at h
  split at h
  next hgrid =>
    cases h
    cases after <;> simp_all [sameGrid, shown]
  next =>
    obtain ⟨⟨screen, revision⟩, hs, h⟩ := bind_eq_ok.mp h
    obtain ⟨current, hc, h⟩ := bind_eq_ok.mp h
    obtain ⟨_, _, hc⟩ := bind_eq_ok.mp hc
    obtain ⟨_, _, hc⟩ := bind_eq_ok.mp hc
    cases hc
    cases h
    exact congrArg some (hcapture _ _ _ (mapError_eq_ok.mp hs))

theorem answers_readCurrent (hle : start ≤ t) (h : readCurrent ex after maxBytes t = .ok r) :
    Answers ex after maxBytes grid start r := by
  obtain ⟨before, hb, h⟩ := bind_eq_ok.mp h
  split at h
  next hsame =>
    cases h
    refine ⟨t, hle, before, hb, ?_⟩
    cases after <;> simp_all [sameCursor, sameGrid, LiveCursor.ext_iff]
  obtain ⟨f, hf, h⟩ := bind_eq_ok.mp h
  split at h
  next left hfit =>
    cases h
    obtain ⟨pieces, hp, hfit⟩ := Option.bind_eq_some_iff.mp hfit
    exact ⟨frame_shows hcapture hf, pieces, hp, write_fits hfit⟩
  next => cases h

theorem answers_look (hle : start ≤ t) (h : look ex after maxBytes t = .ok r) :
    Answers ex after maxBytes grid start r := by
  obtain ⟨_, _, h⟩ := bind_eq_ok.mp h
  obtain ⟨f, hf, h⟩ := bind_eq_ok.mp h
  have : f = r := by
    split at h
    · obtain ⟨_, _, h⟩ := bind_eq_ok.mp h
      exact Except.ok.inj h
    · exact Except.ok.inj h
  exact this ▸ answers_readCurrent hcapture (hle.trans (Nat.le_succ t)) hf

theorem answers_waitOnOwner {wakes : List Wake} (hle : start ≤ t) (h : waitOnOwner ex after maxBytes t wakes = .ok r) :
    Answers ex after maxBytes grid start r := by
  induction wakes generalizing t with
  | nil => exact answers_look hcapture hle h
  | cons wake wakes ih =>
    obtain ⟨f, hf, h⟩ := bind_eq_ok.mp h
    have := answers_look hcapture hle hf
    split at h
    · cases h
      exact this
    · exact ih (hle.trans (Nat.le_add_right t 8)) h
    · cases h
    · obtain ⟨_, _, h⟩ := bind_eq_ok.mp h
      cases h
      exact this

theorem answers_waitPresent {p : Poll} (h : waitPresent ex after p = .ok r) :
    Answers ex after p.maxBytes grid p.start r := by
  obtain ⟨_, _, h⟩ := bind_eq_ok.mp h
  obtain ⟨_, _, h⟩ := bind_eq_ok.mp h
  obtain ⟨_, _, h⟩ := bind_eq_ok.mp h
  exact answers_waitOnOwner hcapture (Nat.le_succ _) h

theorem poll_coherent {client : Client Screen} (h : client.Coherent grid) (p : Poll) :
    (client.poll ex p).Coherent grid := by
  unfold Client.poll
  split
  next f hf => exact h ▸ (answers_waitPresent hcapture hf).1
  next => exact h

/-- However the execution evolves, a client that has polled holds the screen of its cursor, and a next
poll's answer is as its cursor has it and within its budget. -/
theorem live_projection (polls : List Poll) (p : Poll) :
    let client := polls.foldl (Client.poll ex) ⟨none, none⟩
    client.Coherent grid ∧ ∀ r, waitPresent ex client.cursor p = .ok r →
      Answers ex client.cursor p.maxBytes grid p.start r := by
  refine ⟨?_, fun r => answers_waitPresent hcapture⟩
  exact List.foldlRecOn polls _ rfl fun client h p _ => poll_coherent hcapture h p

end
namespace Sample

def revision (t : Nat) : LiveRevision := ⟨t, 0, 0, t, none⟩

/-- An execution whose grid changes at each observation, the number of the change for a screen. -/
def busy : Execution Nat where
  reference := ⟨0, 0, 0⟩
  liveRevision t := .ok (revision t)
  status t := .ok ⟨.running, t, false, false, none⟩
  liveScreen t := .ok (t, revision t)
  authorize _ := .ok ()
  encode _ := some [[0]]

theorem busy_projected :
    let client := [⟨0, 0, 1, .ok (), []⟩, ⟨9, 0, 1, .ok (), []⟩].foldl (Client.poll busy) ⟨none, none⟩
    client.screen = some 13 ∧ client.Coherent fun _ _ grid _ => grid :=
  ⟨rfl, (live_projection (by simp [busy, revision]) _ ⟨18, 0, 1, .ok (), []⟩).1⟩

end Sample
end Bmux.Live
