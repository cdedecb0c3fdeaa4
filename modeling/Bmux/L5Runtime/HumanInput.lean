import Bmux.Core.Run
import Bmux.Core.TreeMap

/-!
# Human input epochs

`plugins/pane-runtime-plugin/src/runtime/human_input.rs` admits the input of a human to a terminal.
An epoch is an entry behind a lock of its own, found by its id in a registry behind another lock. A
push looks its entry up, lets go of the registry and tries the entry's lock, which it holds over the
write; if it ends the epoch it takes the registry's lock as well to remove the entry. `open` scans
the entries under the registry's lock and only tries theirs.

The steps of `step` are the points at which calls can interleave: the registry's lock taken for a
lookup, a removal or one entry of a scan, an entry's lock tried, a write returning. What a caller
finds may be long gone: an epoch is known here by its place in `entries`, which outlives its
registration and keeps apart epochs that happen to be given the same id.

`epochs_sound` collects what holds in every reachable state. No call panics while it holds the
registry's lock, so its poisoning is not modelled; whether an execution accepts input is what the
caller of `push` and `open` was told.
-/
namespace Bmux.HumanInput
open Std (ExtTreeMap)

abbrev Uuid := Nat
abbrev Bytes := List UInt8

structure TerminalExecutionRef where
  sessionId : Uuid
  paneId : Uuid
  executionToken : Uuid
  deriving DecidableEq, Repr

structure HumanInputStream where
  execution : TerminalExecutionRef
  streamId : Uuid
  deriving DecidableEq, Repr

structure HumanInputAck where
  stream : HumanInputStream
  sequence : Nat
  writtenBytes : Nat
  deriving DecidableEq, Repr

inductive HumanInputError where
  | authority (error : String)
  | capacity (reason : String)
  | closed (reason : String)
  | conflict (reason : String)
  | invalid (reason : String)
  | sequence (reason : String)
  | uncertain (reason : String)
  deriving DecidableEq, Repr

def maxPayloadBytes : Nat := 16 * 1024
def maxActiveStreams : Nat := 32
def dedupWindow : Nat := 32
def idleExpiry : Nat := 30 * 60 * 1000

@[ext]
structure RetainedOutcome where
  sequence : Nat
  data : Bytes
  ack : HumanInputAck
  deriving DecidableEq, Repr

structure StreamState where
  stream : HumanInputStream
  nextSequence : Nat
  closed : Bool
  touched : Nat
  retained : List RetainedOutcome
  deriving DecidableEq, Repr

structure Push where
  stream : HumanInputStream
  sequence : Nat
  data : Bytes
  deriving DecidableEq, Repr

def busy : HumanInputError := .capacity "stream has an outstanding request; do not automatically retry input"

def ownerFailed : HumanInputError := .closed "stream owner failed; outstanding effects are uncertain"

/-! ## One epoch -/

namespace StreamState

variable (state : StreamState)

def validate (stream : HumanInputStream) : Except HumanInputError Unit :=
  if state.stream.execution ≠ stream.execution then .error (.conflict "stream belongs to a different exact execution")
  else if state.closed then .error (.closed "stream epoch closed")
  else .ok ()

def expired (now : Nat) : Bool := now - state.touched ≥ idleExpiry

/-- What a push comes to before anything is written. -/
inductive Verdict where
  | refuse (error : HumanInputError)
  | expire
  | replay (ack : HumanInputAck)
  | fresh
  deriving DecidableEq, Repr

/-- The part of `push_with` between the entry's lock and the write.
mirrors plugins/pane-runtime-plugin/src/runtime/human_input.rs:140-166 -/
def examine (now : Nat) (r : Push) : StreamState × Verdict :=
  match state.validate r.stream with
  | .error error => (state, .refuse error)
  | .ok () =>
    if state.expired now then ({ state with closed := true }, .expire)
    else
      ({ state with touched := now },
        match state.retained.find? fun item => item.sequence = r.sequence with
        | some retained =>
          if retained.data = r.data then .replay retained.ack
          else .refuse (.conflict "sequence reused with different payload")
        | none =>
          if r.sequence ≠ state.nextSequence ∨ r.sequence = 2 ^ 64 - 1 then
            .refuse (.sequence ("expected sequence " ++ toString state.nextSequence ++
              "; old evicted outcomes cannot be replayed"))
          else .fresh)

def ackOf (r : Push) : HumanInputAck := { stream := r.stream, sequence := r.sequence, writtenBytes := r.data.length }

/-- A successful write is retained, the oldest outcome making room.
mirrors plugins/pane-runtime-plugin/src/runtime/human_input.rs:174-188 -/
def commit (r : Push) : StreamState :=
  let retained := if state.retained.length = dedupWindow then state.retained.drop 1 else state.retained
  { state with
    nextSequence := state.nextSequence + 1
    retained := retained ++ [{ sequence := r.sequence, data := r.data, ack := ackOf r }] }

end StreamState

open StreamState (ackOf)

/-- An `Arc<Mutex<StreamState>>`. -/
structure Entry where
  state : StreamState
  holder : Option Nat
  poisoned : Bool
  deriving DecidableEq, Repr

inductive TryLock where
  | ok | wouldBlock | poisoned
  deriving DecidableEq, Repr

def Entry.tryLock (e : Entry) : TryLock :=
  if e.holder.isSome then .wouldBlock else if e.poisoned then .poisoned else .ok

/-! ## Calls -/

abbrev Answer := Except HumanInputError Unit

inductive Call where
  | idle
  /-- `push_with`: look the entry up -/
  | pushing (r : Push)
  /-- `push_with`: try the entry's lock -/
  | pushFound (r : Push) (epoch : Nat)
  /-- `push_with`, holding the entry: the write -/
  | writing (r : Push) (epoch : Nat)
  /-- holding the entry: remove it from the registry and answer -/
  | removing (id : Uuid) (epoch : Nat) (answer : Answer)
  /-- `close`: look the entry up -/
  | closing (stream : HumanInputStream)
  /-- `close`: try the entry's lock -/
  | closeFound (stream : HumanInputStream) (epoch : Nat)
  /-- `push` of an execution that accepts no input: look the entry up -/
  | stale (stream : HumanInputStream) (error : HumanInputError)
  /-- `push` of an execution that accepts no input: try the entry's lock -/
  | staleFound (stream : HumanInputStream) (error : HumanInputError) (epoch : Nat)
  /-- `open`, holding the registry: entries yet to be scanned -/
  | opening (execution : TerminalExecutionRef) (pending : List Uuid)
  deriving DecidableEq, Repr

inductive Event where
  | opened (epoch : Nat)
  | wrote (epoch : Nat) (r : Push)
  | failed (epoch : Nat)
  | panicked (epoch : Nat)
  | closed (epoch : Nat)
  | expired (epoch : Nat)
  | invalidated (epoch : Nat)
  | acked (epoch : Nat) (r : Push) (ack : HumanInputAck)
  | answered (caller : Nat) (answer : Answer)
  deriving DecidableEq, Repr

structure State where
  streams : ExtTreeMap Uuid Nat compare
  /-- who holds the registry's lock -/
  registry : Option Nat
  entries : List Entry
  calls : Nat → Call
  now : Nat
  history : List Event

def initial : State :=
  { streams := ∅, registry := none, entries := [], calls := fun _ => .idle, now := 0, history := [] }

inductive WriteOutcome where
  | ok
  | error (reason : String)
  | panic
  deriving DecidableEq, Repr

inductive Input where
  | tick (elapsed : Nat)
  | open (caller : Nat) (execution : TerminalExecutionRef) (live : Answer)
  | scan (caller : Nat)
  | insert (caller : Nat) (candidate : Uuid)
  | push (caller : Nat) (r : Push) (live : Answer)
  | close (caller : Nat) (stream : HumanInputStream)
  | lookup (caller : Nat)
  | lock (caller : Nat)
  | written (caller : Nat) (outcome : WriteOutcome)
  | remove (caller : Nat)

namespace State

variable (s : State)

variable (t : Nat)

def goto (call : Call) (new : Option Event) : State :=
  { s with calls := Function.update s.calls t call, history := s.history ++ new.toList }

def answer (a : Answer) : State := s.goto t .idle (some (.answered t a))

variable (stream : HumanInputStream) (execution : TerminalExecutionRef) (id : Uuid) (i : Nat)

def setEntry (e : Entry) : State := { s with entries := s.entries.set i e }

/-- mirrors plugins/pane-runtime-plugin/src/runtime/human_input.rs:62-71 -/
def scanEntry (pending : List Uuid) (i : Nat) (e : Entry) : State :=
  match e.tryLock with
  | .wouldBlock => s.goto t (.opening execution pending) none
  | .poisoned => { s with streams := s.streams.erase id }.goto t (.opening execution pending) none
  | .ok =>
    if e.state.expired s.now then
      ({ s with streams := s.streams.erase id }.setEntry i { e with state := { e.state with closed := true } }).goto t
        (.opening execution pending) (some (.expired i))
    else if e.state.closed then { s with streams := s.streams.erase id }.goto t (.opening execution pending) none
    else s.goto t (.opening execution pending) none

/-- The end of `open`, with a candidate id that is not taken.
mirrors plugins/pane-runtime-plugin/src/runtime/human_input.rs:72-98 -/
def insertEntry (candidate : Uuid) : Option State :=
  if s.streams.size ≥ maxActiveStreams then
    some ({ s with registry := none }.answer t (.error (.capacity "active HUMAN input stream capacity exhausted")))
  else if s.streams.contains candidate then none
  else
    let state : StreamState :=
      { stream := { execution, streamId := candidate }, nextSequence := 1, closed := false, touched := s.now,
        retained := [] }
    let inserted : State := { s with
      registry := none
      streams := s.streams.insert candidate s.entries.length
      entries := s.entries ++ [{ state, holder := none, poisoned := false }] }
    some (inserted.goto t .idle (some (.opened s.entries.length)))

def lookup (found : Nat → Call) (missing : HumanInputError) : State :=
  match s.streams[id]? with
  | some i => s.goto t (found i) none
  | none => s.answer t (.error missing)

def unknownEpoch : HumanInputError := .closed "unknown, closed, or previous-runtime stream epoch"

/-- mirrors plugins/pane-runtime-plugin/src/runtime/human_input.rs:130-167 -/
def lockPush (r : Push) (i : Nat) (e : Entry) : State :=
  match e.tryLock with
  | .wouldBlock => s.answer t (.error busy)
  | .poisoned =>
    (s.setEntry i { e with holder := some t }).goto t (.removing r.stream.streamId i (.error ownerFailed)) none
  | .ok =>
    let examined := e.state.examine s.now r
    match examined.2 with
    | .refuse error => (s.setEntry i { e with state := examined.1 }).answer t (.error error)
    | .replay ack => (s.setEntry i { e with state := examined.1 }).goto t .idle (some (.acked i r ack))
    | .expire =>
      (s.setEntry i { e with state := examined.1, holder := some t }).goto t
        (.removing r.stream.streamId i (.error (.closed "idle stream epoch expired; do not replay input")))
          (some (.expired i))
    | .fresh =>
      (s.setEntry i { e with state := examined.1, holder := some t }).goto t (.writing r i) (some (.wrote i r))

/-- mirrors plugins/pane-runtime-plugin/src/runtime/human_input.rs:191-206 -/
def lockClose (e : Entry) : State :=
  match e.tryLock with
  | .wouldBlock => s.answer t (.error busy)
  | .poisoned =>
    (s.setEntry i { e with holder := some t }).goto t (.removing stream.streamId i (.error ownerFailed)) none
  | .ok =>
    match e.state.validate stream with
    | .error error => s.answer t (.error error)
    | .ok () =>
      (s.setEntry i { e with state := { e.state with closed := true }, holder := some t }).goto t
        (.removing stream.streamId i (.ok ())) (some (.closed i))

/-- mirrors plugins/pane-runtime-plugin/src/runtime/human_input.rs:260-270 -/
def lockStale (error : HumanInputError) (i : Nat) (e : Entry) : State :=
  if e.tryLock = .ok ∧ e.state.stream.execution = stream.execution then
    (s.setEntry i { e with state := { e.state with closed := true }, holder := some t }).goto t
      (.removing stream.streamId i (.error error)) (some (.invalidated i))
  else s.answer t (.error error)

/-- mirrors plugins/pane-runtime-plugin/src/runtime/human_input.rs:167-189 -/
def finishWrite (r : Push) (i : Nat) (e : Entry) : WriteOutcome → State
  | .ok => (s.setEntry i { e with
      state := e.state.commit r, holder := none }).goto t .idle (some (.acked i r (ackOf r)))
  | .error reason =>
    (s.setEntry i { e with state := { e.state with closed := true } }).goto t
      (.removing r.stream.streamId i (.error (.uncertain reason))) (some (.failed i))
  | .panic => (s.setEntry i { e with holder := none, poisoned := true }).goto t .idle (some (.panicked i))

def removeEntry (a : Answer) (e : Entry) : State :=
  ({ s with streams := s.streams.erase id }.setEntry i { e with holder := none }).answer t a

end State

/-- `none` where the caller is not at that point, or would wait for the registry's lock. -/
def step (s : State) : Input → Option State
  | .tick elapsed => some { s with now := s.now + elapsed }
  | .open t execution live =>
    match s.calls t, s.registry, live with
    | .idle, _, .error error => some (s.answer t (.error error))
    | .idle, none, .ok () => some ({ s with registry := some t }.goto t (.opening execution s.streams.keys) none)
    | _, _, _ => none
  | .scan t =>
    match s.calls t with
    | .opening execution (id :: pending) => do
      let i ← s.streams[id]?
      let e ← s.entries[i]?
      return s.scanEntry t execution id pending i e
    | _ => none
  | .insert t candidate =>
    match s.calls t with
    | .opening execution [] => s.insertEntry t execution candidate
    | _ => none
  | .push t r live =>
    match s.calls t, live with
    | .idle, .error error => some (s.goto t (.stale r.stream error) none)
    | .idle, .ok () =>
      if r.data.isEmpty ∨ r.data.length > maxPayloadBytes then
        some (s.answer t (.error (.invalid "HUMAN input payload must contain 1..=16384 bytes")))
      else some (s.goto t (.pushing r) none)
    | _, _ => none
  | .close t stream =>
    match s.calls t with
    | .idle => some (s.goto t (.closing stream) none)
    | _ => none
  | .lookup t =>
    match s.calls t, s.registry with
    | .pushing r, none => some (s.lookup t r.stream.streamId (.pushFound r) State.unknownEpoch)
    | .closing stream, none => some (s.lookup t stream.streamId (.closeFound stream) State.unknownEpoch)
    | .stale stream error, none => some (s.lookup t stream.streamId (.staleFound stream error) error)
    | _, _ => none
  | .lock t =>
    match s.calls t with
    | .pushFound r i => s.entries[i]?.map (s.lockPush t r i)
    | .closeFound stream i => s.entries[i]?.map (s.lockClose t stream i)
    | .staleFound stream error i => s.entries[i]?.map (s.lockStale t stream error i)
    | _ => none
  | .written t outcome =>
    match s.calls t with
    | .writing r i => s.entries[i]?.map fun e => s.finishWrite t r i e outcome
    | _ => none
  | .remove t =>
    match s.calls t, s.registry with
    | .removing id i a, none => s.entries[i]?.map (s.removeEntry t id i a)
    | _, _ => none

/-! ## What the history says -/

def Event.target : Event → Option Nat
  | .wrote i _ => some i
  | _ => none

def Event.ends : Event → Option Nat
  | .failed i | .panicked i | .closed i | .expired i | .invalidated i => some i
  | _ => none

def Event.writeFor (i : Nat) : Event → Option Push
  | .wrote j r => if j = i then some r else none
  | _ => none

def writes (i : Nat) (history : List Event) : List Push := history.filterMap (Event.writeFor i)

def Entry.Dead (e : Entry) : Prop := e.state.closed = true ∨ e.poisoned = true

instance (e : Entry) : Decidable e.Dead := inferInstanceAs (Decidable (_ ∨ _))

def RetainedOutcome.request (o : RetainedOutcome) (stream : HumanInputStream) : Push :=
  { stream, sequence := o.sequence, data := o.data }

theorem writes_append (i : Nat) (a b : List Event) : writes i (a ++ b) = writes i a ++ writes i b :=
  List.filterMap_append

theorem writeFor_eq_none {i : Nat} {ev : Event} (h : ev.target ≠ some i) : ev.writeFor i = none := by
  cases ev with
  | wrote j r => exact if_neg fun heq => h (by rw [Event.target, heq])
  | _ => rfl

theorem writes_new {i : Nat} {history : List Event} {new : Option Event} (h : ∀ ev ∈ new, ev.target ≠ some i) :
    writes i (history ++ new.toList) = writes i history := by
  rw [writes_append]
  cases new with
  | none => exact List.append_nil _
  | some ev =>
    have hnone : writes i [ev] = [] := List.filterMap_cons_none (writeFor_eq_none (h ev rfl))
    simp [hnone]

theorem writes_wrote (i : Nat) (history : List Event) (r : Push) :
    writes i (history ++ [.wrote i r]) = writes i history ++ [r] := by
  simp [writes, Event.writeFor]

end Bmux.HumanInput
