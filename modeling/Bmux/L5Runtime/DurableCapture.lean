import Bmux.Core.Wire

/-!
# The durable capture (`plugins/pane-runtime-plugin/src/runtime/durable_capture.rs`)

The output and the resizes of an execution are appended to `events.bin` as length-prefixed JSON
records. `capture.json` holds the boundary up to which the file is to be trusted; it is replaced after
the records before it have been synced. A call whose writing or publication fails closes the capture,
so nothing is ever written behind a tail of which nobody knows what is on the disk.

`Io` is how the environment lets a call end. A crash inside a call leaves the disk as one of the
failures does and is a run that stops there; of the file only the synced bytes survive it, followed by
anything. `recovery_exact` shows that what is left is accepted and covers every acknowledged event and
at most the one in flight. Readers refuse limits above 262144, and a clock past 2^64 nanoseconds fails
an append without closing the capture (`Sample.refused`).

`serde_json` is a parameter: an encoder whose records readers take for frames, and a decoder that is
assumed to read back the records of the capture. `Sample` has the text that `serde_json` writes.
-/
namespace Bmux.Capture
open Wire (leBytes ofLe)
open List Option

/-! ## Events -/

inductive EventKind where
  | output (data : Bytes)
  | resize (cols rows : UInt16)
  deriving DecidableEq, Repr

structure CaptureEvent where
  monoNs : Nat
  event : EventKind
  deriving DecidableEq, Repr

def EventKind.data : EventKind → Bytes
  | .output data => data
  | .resize _ _ => []

def EventKind.valid (rawBytes : Nat) : EventKind → Bool
  | .output data => data.length ≤ 8192 ∧ data.length = rawBytes
  | .resize cols rows => rawBytes = 0 ∧ 0 < cols ∧ 0 < rows ∧ cols ≤ 1000 ∧ rows ≤ 1000

structure CaptureEvent.Admitted (e : CaptureEvent) : Prop where
  valid : e.event.valid e.event.data.length = true
  time : e.monoNs < 2 ^ 64

/-- `serde_json::to_vec` and `serde_json::from_slice` for events -/
class SerdeJson where
  encode : CaptureEvent → Bytes
  /-- a record fits a frame -/
  length_encode : ∀ e, e.Admitted → 0 < (encode e).length ∧ (encode e).length ≤ 65536
  decode : Bytes → Except String CaptureEvent

open SerdeJson (encode decode length_encode)

section
variable [SerdeJson]

def frame (e : CaptureEvent) : Bytes := leBytes 4 (encode e).length ++ encode e

def stream (es : List CaptureEvent) : Bytes := es.flatMap frame

def output (es : List CaptureEvent) : Bytes := es.flatMap (·.event.data)

/-! ## Appending -/

structure Boundary where
  version : Nat := 1
  bytes : Nat := 0
  streamBytes : Nat := 0
  eof : Bool := false
  error : Option String := none
  deriving DecidableEq, Repr

structure Disk where
  /-- `capture.json` -/
  boundary : Boundary
  /-- `events.bin` -/
  events : Bytes
  /-- how many of its bytes are durable -/
  synced : Nat

/-- How the environment lets a call end. -/
inductive Io where
  | done
  /-- some bytes were written, then a write or the sync failed -/
  | unsynced (written : Nat) (error : String)
  /-- the commit failed, before or after the new boundary was published -/
  | uncommitted (published : Bool) (error : String)

def Io.published : Io → Bool
  | .done => true
  | .unsynced _ _ => false
  | .uncommitted published _ => published

/-- mirrors plugins/pane-runtime-plugin/src/runtime/durable_capture.rs:16-22. `now` is the time since `origin`; the
last two fields are not in the source and say for which events calls have returned, and which one failed after it
was begun. -/
structure DurableCapture where
  boundary : Boundary
  now : Nat
  failed : Bool
  disk : Disk
  acknowledged : List CaptureEvent
  inFlight : Option CaptureEvent

abbrev Result := Except String Unit

namespace DurableCapture

def create : DurableCapture :=
  { boundary := {}, now := 0, failed := false, disk := ⟨{}, [], 0⟩, acknowledged := [], inFlight := none }

variable (c : DurableCapture)

/-- The end of `append_admitted` and of `end`: write, sync, publish.
mirrors plugins/pane-runtime-plugin/src/runtime/durable_capture.rs:112-139 and 173-189 -/
def persist (event : Option CaptureEvent) (candidate : Boundary) : Io → Result × DurableCapture
  | .done =>
    let events := c.disk.events ++ event.elim [] frame
    (.ok (), { c with
      boundary := candidate
      disk := ⟨candidate, events, events.length⟩
      acknowledged := c.acknowledged ++ event.toList })
  | .unsynced written error =>
    (.error error, { c with
      failed := true
      disk := { c.disk with events := c.disk.events ++ (event.elim [] frame).take written }
      inFlight := event })
  | .uncommitted published error =>
    let events := c.disk.events ++ event.elim [] frame
    (.error error, { c with
      failed := true
      disk := ⟨if published then candidate else c.disk.boundary, events, events.length⟩
      inFlight := event })

def closed : Bool := c.failed || c.boundary.eof || c.boundary.error.isSome

def fail (error : String) : Result × DurableCapture := (.error error, { c with failed := true })

def appendAdmitted (event : EventKind) (rawBytes monoNs : Nat) (io : Io) : Result × DurableCapture :=
  if c.closed then (.error "capture is closed or incomplete", c)
  else if ¬event.valid rawBytes then c.fail "invalid admitted capture event"
  else if 2 ^ 64 ≤ c.boundary.bytes + rawBytes then (.error "raw length overflow", c)
  else if c.boundary.bytes + rawBytes > 64 * 1024 * 1024 then c.fail "durable capture capacity exhausted"
  else
    let next := c.boundary.streamBytes + ((encode ⟨monoNs, event⟩).length + 4)
    if 2 ^ 64 ≤ next then (.error "capture length overflow", c)
    else if next > 256 * 1024 * 1024 then c.fail "ordered capture capacity exhausted"
    else c.persist (some ⟨monoNs, event⟩) { c.boundary with
      bytes := c.boundary.bytes + rawBytes, streamBytes := next } io

/-- The time that passes before a call reads the clock, and how the call ends. -/
structure Moment where
  passed : Nat := 0
  io : Io := .done

def appendEvent (event : EventKind) (rawBytes : Nat) (m : Moment) : Result × DurableCapture :=
  let c := { c with now := c.now + m.passed }
  if 2 ^ 64 ≤ c.now then (.error "out of range integral type conversion attempted", c)
  else c.appendAdmitted event rawBytes c.now m.io

def appendChunk (bytes : Bytes) (m : Moment) : Result × DurableCapture :=
  if c.boundary.bytes + bytes.length > 64 * 1024 * 1024 then
    c.fail "durable capture capacity exhausted; capture incomplete"
  else c.appendEvent (.output bytes) bytes.length m

/-- mirrors plugins/pane-runtime-plugin/src/runtime/durable_capture.rs:141-162; `bytes.chunks(8192)` are the first
8192 bytes and the chunks of the rest -/
def append (c : DurableCapture) (bytes : Bytes) (moments : Nat → Moment) : Result × DurableCapture :=
  if bytes.length > 8192 then
    match c.appendChunk (bytes.take 8192) (moments 0) with
    | (.ok (), c) => c.append (bytes.drop 8192) fun i => moments (i + 1)
    | failure => failure
  else c.appendChunk bytes (moments 0)
termination_by bytes.length

def resize (cols rows : UInt16) (m : Moment) : Result × DurableCapture :=
  c.appendEvent (.resize cols rows) 0 m

def endCapture (error : Option String) (io : Io) : Result × DurableCapture :=
  if c.closed then (.error "capture is closed or incomplete", c)
  else c.persist none { c.boundary with eof := error.isNone, error } io

end DurableCapture

inductive Op where
  | append (bytes : Bytes) (moments : Nat → DurableCapture.Moment)
  | resize (cols rows : UInt16) (m : DurableCapture.Moment)
  | endCapture (error : Option String) (io : Io)

def DurableCapture.call (c : DurableCapture) : Op → Result × DurableCapture
  | .append bytes moments => c.append bytes moments
  | .resize cols rows m => c.resize cols rows m
  | .endCapture error io => c.endCapture error io

def after (ops : List Op) : DurableCapture := ops.foldl (fun c op => (c.call op).2) .create

/-! ## Reading -/

/-- The two files as they are found. -/
structure Files where
  boundary : Boundary
  events : Bytes

def readExact (n : Nat) (file : Bytes) : Except String (Bytes × Bytes) :=
  if file.length < n then .error "failed to fill whole buffer" else .ok (file.take n, file.drop n)

def header (file : Bytes) : Except String (Nat × Bytes) := do
  let (length, file) ← readExact 4 file
  return (ofLe length, file)

section
variable (e : CaptureEvent)

def payload (length : Nat) (file : Bytes) : Except String (CaptureEvent × Bytes) := do
  let (bytes, file) ← readExact length file
  let event ← decode bytes
  return (event, file)

/-- mirrors plugins/pane-runtime-plugin/src/runtime/durable_capture.rs:217-235 -/
def checked (previous raw : Nat) (event : CaptureEvent) : Except String Nat :=
  if event.monoNs < previous then .error "capture timestamps out of order"
  else
    match event.event with
    | .output data =>
      if data.length > 8192 then .error "oversized committed output"
      else if 2 ^ 64 ≤ raw + data.length then .error "capture raw length overflow"
      else .ok (raw + data.length)
    | .resize cols rows =>
      if cols = 0 ∨ rows = 0 ∨ cols > 1000 ∨ rows > 1000 then .error "invalid committed geometry" else .ok raw

/-- mirrors plugins/pane-runtime-plugin/src/runtime/durable_capture.rs:199-236 -/
def validateLoop (streamBytes : Nat) (file : Bytes) (position raw previous : Nat) : Except String Nat :=
  if position < streamBytes then
    if streamBytes - position < 4 then .error "partial committed capture length"
    else
      match header file with
      | .error e => .error e
      | .ok (length, file) =>
        if length = 0 ∨ length > 65536 ∨ position + (4 + length) > streamBytes then
          .error "invalid committed capture frame"
        else
          match payload length file with
          | .error e => .error e
          | .ok (event, file) =>
            match checked previous raw event with
            | .error e => .error e
            | .ok raw => validateLoop streamBytes file (position + (4 + length)) raw event.monoNs
  else .ok raw
termination_by streamBytes - position

/-- mirrors plugins/pane-runtime-plugin/src/runtime/durable_capture.rs:242-263 -/
def openCapture (files : Files) : Except String Boundary :=
  if files.boundary.version ≠ 1 then
    .error "unsupported ordered capture schema; raw-only capture requires explicit migration"
  else if files.boundary.bytes > 64 * 1024 * 1024 ∨ files.boundary.streamBytes > 256 * 1024 * 1024 ∨
      (files.boundary.eof ∧ files.boundary.error.isSome) then .error "invalid ordered capture boundary"
  else if files.events.length < files.boundary.streamBytes then .error "capture shorter than durable boundary"
  else .ok files.boundary

def validateRecovery (files : Files) : Except String Boundary := do
  let boundary ← openCapture files
  let raw ← validateLoop boundary.streamBytes files.events 0 0 0
  if raw ≠ boundary.bytes then .error "capture raw boundary mismatch" else .ok boundary

/-- mirrors plugins/pane-runtime-plugin/src/runtime/durable_capture.rs:309-316 -/
def take (offset max raw : Nat) (data out : Bytes) : Bytes :=
  if raw + data.length > offset then
    let start := offset - raw
    out ++ (data.drop start).take (min (data.length - start) (max - out.length))
  else out

/-- mirrors plugins/pane-runtime-plugin/src/runtime/durable_capture.rs:291-319 -/
def readLoop (streamBytes offset max : Nat) (file : Bytes) (position raw : Nat) (out : Bytes) :
    Except String Bytes :=
  if position < streamBytes ∧ out.length < max then
    match header file with
    | .error e => .error e
    | .ok (length, file) =>
      if length > 65536 ∨ position + (4 + length) > streamBytes then .error "invalid ordered capture frame"
      else
        match payload length file with
        | .error e => .error e
        | .ok (event, file) =>
          match event.event with
          | .output data =>
            readLoop streamBytes offset max file (position + (4 + length)) (raw + data.length)
              (take offset max raw data out)
          | .resize _ _ => readLoop streamBytes offset max file (position + (4 + length)) raw out
  else .ok out
termination_by streamBytes - position

def read (files : Files) (offset max : Nat) : Except String (Boundary × Bytes) := do
  let boundary ← openCapture files
  if offset > boundary.bytes ∨ max = 0 ∨ max > 262144 then .error "invalid capture cursor or read limit"
  else
    let out ← readLoop boundary.streamBytes offset max files.events 0 0 []
    return (boundary, out)

def readAll (files : Files) (offset : Nat) : List Nat → Except String Bytes
  | [] => .ok []
  | max :: limits => do
    let (_, bytes) ← read files offset max
    let rest ← readAll files (offset + bytes.length) limits
    return bytes ++ rest

/-! ## The walkers -/

theorem length_frame : (frame e).length = 4 + (encode e).length := by
  simp [frame]

theorem stream_append (es es' : List CaptureEvent) : stream (es ++ es') = stream es ++ stream es' := flatMap_append

variable (es : List CaptureEvent)

theorem stream_cons : stream (e :: es) = frame e ++ stream es := rfl

omit [SerdeJson] in
theorem output_append (es es' : List CaptureEvent) : output (es ++ es') = output es ++ output es' := flatMap_append

omit [SerdeJson] in
theorem output_cons : output (e :: es) = e.event.data ++ output es := rfl

omit [SerdeJson] in
theorem readExact_append (a b : Bytes) : readExact a.length (a ++ b) = .ok (a, b) := by
  simp [readExact]

/-- A decoder that reads back what the encoder writes for some events. -/
def Decodes : Prop := ∀ e ∈ es, decode (encode e) = .ok e

end

section Walk

variable {e : CaptureEvent} {es : List CaptureEvent}

theorem header_frame (h : e.Admitted) (rest : Bytes) :
    header (frame e ++ rest) = .ok ((encode e).length, encode e ++ rest) := by
  have hsmall := (length_encode e h).2
  have hread := readExact_append (leBytes 4 (encode e).length) (encode e ++ rest)
  rw [Wire.leBytes_length] at hread
  unfold header frame
  rw [append_assoc, hread]
  show Except.ok _ = _
  rw [Wire.ofLe_leBytes (by omega)]

theorem payload_frame (hdecode : decode (encode e) = .ok e) (rest : Bytes) :
    payload (encode e).length (encode e ++ rest) = .ok (e, rest) := by
  unfold payload
  rw [readExact_append]
  show (decode (encode e) >>= fun event => .ok (event, rest)) = _
  rw [hdecode]
  rfl

theorem Decodes.tail (h : Decodes (e :: es)) : Decodes es := fun x hx => h x (mem_cons_of_mem _ hx)

/-- Events in the order of their times. -/
structure Recorded (es : List CaptureEvent) : Prop where
  admitted : ∀ e ∈ es, e.Admitted
  ordered : es.Pairwise fun a b => a.monoNs ≤ b.monoNs

omit [SerdeJson] in
theorem Recorded.tail (h : Recorded (e :: es)) : Recorded es :=
  ⟨fun x hx => h.admitted x (mem_cons_of_mem _ hx), (pairwise_cons.mp h.ordered).2⟩

omit [SerdeJson] in
theorem checked_admitted (h : e.Admitted) {previous raw : Nat} (hprevious : previous ≤ e.monoNs)
    (hraw : raw + e.event.data.length < 2 ^ 64) : checked previous raw e = .ok (raw + e.event.data.length) := by
  have hvalid := h.valid
  unfold checked
  rw [if_neg (not_lt.mpr hprevious)]
  cases he : e.event with
  | output data =>
    rw [he] at hvalid hraw
    have hdata : data.length ≤ 8192 := (of_decide_eq_true hvalid).1
    dsimp only [EventKind.data] at hraw ⊢
    rw [if_neg (by omega), if_neg (by omega)]
  | resize cols rows =>
    rw [he] at hvalid
    obtain ⟨-, hcols, hrows, hcols', hrows'⟩ := of_decide_eq_true hvalid
    dsimp only [EventKind.data]
    rw [if_neg]
    · rfl
    · rintro (h | h | h | h)
      · exact absurd h (UInt16.pos_iff_ne_zero.mp hcols)
      · exact absurd h (UInt16.pos_iff_ne_zero.mp hrows)
      · exact absurd h (UInt16.not_lt.mpr hcols')
      · exact absurd h (UInt16.not_lt.mpr hrows')

theorem validateLoop_stream (hdecode : Decodes es) (h : Recorded es) (rest : Bytes) (position raw previous : Nat)
    (hprevious : ∀ e ∈ es, previous ≤ e.monoNs) (hraw : raw + (output es).length < 2 ^ 64) :
    validateLoop (position + (stream es).length) (stream es ++ rest) position raw previous =
      .ok (raw + (output es).length) := by
  induction es generalizing position raw previous with
  | nil =>
    rw [validateLoop, if_neg (by simp [stream])]
    rfl
  | cons e es ih =>
    have he := h.admitted e mem_cons_self
    obtain ⟨hpos, hsmall⟩ := length_encode e he
    have hlength := length_frame e
    rw [output_cons, length_append] at hraw ⊢
    rw [stream_cons, append_assoc, length_append, validateLoop, if_pos (by omega), if_neg (by omega),
      header_frame he]
    dsimp only
    rw [if_neg (by omega), payload_frame (hdecode e mem_cons_self)]
    dsimp only
    rw [checked_admitted he (hprevious e mem_cons_self) (by omega)]
    dsimp only
    have hrest := ih hdecode.tail h.tail (position + (4 + (encode e).length)) (raw + e.event.data.length) e.monoNs
      (pairwise_cons.mp h.ordered).1 (by omega)
    rw [show position + ((frame e).length + (stream es).length) =
      position + (4 + (encode e).length) + (stream es).length by
      omega, hrest, add_assoc]

omit [SerdeJson] in
theorem take_eq (offset raw : Nat) {max : Nat} (data more out : Bytes) (hout : out.length ≤ max) :
    out ++ ((data ++ more).drop (offset - raw)).take (max - out.length) =
      take offset max raw data out ++
        (more.drop (offset - (raw + data.length))).take (max - (take offset max raw data out).length) ∧
      (take offset max raw data out).length ≤ max := by
  unfold take
  by_cases hend : raw + data.length > offset
  · rw [if_pos hend]
    dsimp only
    have hstart : offset - raw ≤ data.length := by omega
    have hlength : (data.drop (offset - raw)).length = data.length - (offset - raw) := length_drop
    have htake : (data.drop (offset - raw)).take (min (data.length - (offset - raw)) (max - out.length)) =
        (data.drop (offset - raw)).take (max - out.length) := by
      simp [min_comm]
    rw [htake, drop_append_of_le_length hstart, take_append, show offset - (raw + data.length) = 0 by omega,
      append_assoc]
    constructor
    · congr 3
      rw [length_append, length_take]
      omega
    · rw [length_append, length_take]
      omega
  · rw [if_neg hend, drop_append, drop_eq_nil_of_le (by omega), show offset - raw - data.length =
      offset - (raw + data.length) by omega]
    exact ⟨rfl, hout⟩

/-- The loop over the frames of some events puts out their bytes from an offset on. -/
theorem readLoop_stream (hdecode : Decodes es) (h : Recorded es) (rest : Bytes) (offset position raw : Nat)
    {max : Nat} (out : Bytes) (hout : out.length ≤ max) :
    readLoop (position + (stream es).length) offset max (stream es ++ rest) position raw out =
      .ok (out ++ ((output es).drop (offset - raw)).take (max - out.length)) := by
  induction es generalizing position raw out with
  | nil =>
    rw [readLoop, if_neg (by simp [stream])]
    simp [output]
  | cons e es ih =>
    have he := h.admitted e mem_cons_self
    obtain ⟨hpos, hsmall⟩ := length_encode e he
    have hlength := length_frame e
    by_cases hfull : out.length < max
    · rw [stream_cons, append_assoc, length_append, readLoop, if_pos ⟨by omega, hfull⟩, header_frame he]
      dsimp only
      rw [if_neg (by omega), payload_frame (hdecode e mem_cons_self),
        show position + ((frame e).length + (stream es).length) =
          position + (4 + (encode e).length) + (stream es).length by
          omega, output_cons]
      dsimp only
      obtain ⟨htake, hout'⟩ := take_eq offset raw e.event.data (output es) out hout
      cases hk : e.event with
      | output data =>
        rw [hk] at htake hout'
        dsimp only [EventKind.data] at htake hout' ⊢
        rw [ih hdecode.tail h.tail _ _ _ hout', htake]
      | resize cols rows =>
        dsimp only [EventKind.data]
        rw [ih hdecode.tail h.tail _ _ _ hout, nil_append]
    · rw [readLoop, if_neg fun hand => hfull hand.2, Nat.sub_eq_zero_of_le (not_lt.mp hfull), take_zero,
        append_nil]

end Walk

/-! ## What is on the disk -/

/-- A boundary that covers exactly some events. -/
structure Boundary.Covers (b : Boundary) (es : List CaptureEvent) : Prop where
  version : b.version = 1
  bytes : b.bytes = (output es).length
  streamBytes : b.streamBytes = (stream es).length
  bytesFit : b.bytes ≤ 64 * 1024 * 1024
  streamFits : b.streamBytes ≤ 256 * 1024 * 1024
  ended : ¬(b.eof = true ∧ b.error.isSome = true)

/-- Reading the files of some events. -/
structure Exact (files : Files) (es : List CaptureEvent) : Prop where
  recovers : validateRecovery files = .ok files.boundary
  covers : files.boundary.Covers es
  reads : ∀ limits : List Nat, (∀ max ∈ limits, 0 < max ∧ max ≤ 262144) →
    readAll files 0 limits = .ok ((output es).take limits.sum)

section Files

variable {b : Boundary} {es : List CaptureEvent}

theorem Boundary.Covers.openCapture (h : b.Covers es) (rest : Bytes) : openCapture ⟨b, stream es ++ rest⟩ = .ok b := by
  have hstream := h.streamBytes
  unfold Capture.openCapture
  rw [if_neg (not_not.mpr h.version), if_neg, if_neg]
  · dsimp only
    rw [length_append]
    omega
  · rintro (hbytes | hbytes | hended)
    · exact not_lt.mpr h.bytesFit hbytes
    · exact not_lt.mpr h.streamFits hbytes
    · exact h.ended hended

section
variable (hdecode : Decodes es) (h : b.Covers es) (hes : Recorded es)
include hdecode h hes

theorem Boundary.Covers.read (rest : Bytes) {offset max : Nat}
    (hoffset : offset ≤ (output es).length) (hpos : 0 < max) (hmax : max ≤ 262144) :
    read ⟨b, stream es ++ rest⟩ offset max = .ok (b, ((output es).drop offset).take max) := by
  have hloop := readLoop_stream hdecode hes rest offset 0 0 [] (Nat.zero_le max)
  rw [zero_add, ← h.streamBytes] at hloop
  have hbytes := h.bytes
  unfold Capture.read
  rw [h.openCapture]
  show (if offset > b.bytes ∨ max = 0 ∨ max > 262144 then _ else _) = _
  rw [if_neg (by omega), hloop]
  rfl

/-- Successive reads put together are one read of their total length. -/
theorem Boundary.Covers.readAll (rest : Bytes)
    {limits : List Nat} (hlimits : ∀ max ∈ limits, 0 < max ∧ max ≤ 262144) {offset : Nat}
    (hoffset : offset ≤ (output es).length) :
    readAll ⟨b, stream es ++ rest⟩ offset limits = .ok (((output es).drop offset).take limits.sum) := by
  induction limits generalizing offset with
  | nil => rfl
  | cons max limits ih =>
    obtain ⟨hpos, hmax⟩ := hlimits max mem_cons_self
    have hlength : (((output es).drop offset).take max).length = min max ((output es).length - offset) := by
      rw [length_take, length_drop]
    unfold Capture.readAll
    rw [h.read hdecode hes rest hoffset hpos hmax]
    show (Capture.readAll _ (offset + (((output es).drop offset).take max).length) limits >>= _) = _
    rw [ih (fun m hm => hlimits m (mem_cons_of_mem _ hm)) (by omega)]
    show Except.ok _ = _
    rw [sum_cons, take_add, ← drop_drop, hlength]
    congr 3
    -- past the end there is nothing to drop
    rw [drop_drop, drop_drop]
    by_cases hle : max ≤ (output es).length - offset
    · rw [min_eq_left hle]
    · rw [drop_eq_nil_of_le (by omega), drop_eq_nil_of_le (by omega)]

theorem Boundary.Covers.exact {events : Bytes}
    (hevents : stream es <+: events) : Exact ⟨b, events⟩ es := by
  obtain ⟨rest, rfl⟩ := hevents
  refine ⟨?_, h, fun limits hlimits => h.readAll hdecode hes rest hlimits zero_le⟩
  have hfit := h.bytesFit
  rw [h.bytes] at hfit
  have hloop := validateLoop_stream hdecode hes rest 0 0 0
    (fun _ _ => zero_le) (by omega)
  rw [zero_add, zero_add, ← h.streamBytes] at hloop
  unfold validateRecovery
  rw [h.openCapture]
  show (validateLoop b.streamBytes (stream es ++ rest) 0 0 0 >>= _) = _
  rw [hloop]
  show (if (output es).length ≠ b.bytes then _ else _) = _
  rw [if_neg (not_not.mpr h.bytes.symm)]

end

end Files

/-! ## Runs -/

/-- The files cover some events, all of whose frames are durable. -/
structure Disk.Holds (d : Disk) (es : List CaptureEvent) : Prop where
  covers : d.boundary.Covers es
  durable : stream es <+: d.events.take d.synced

namespace DurableCapture

structure Kept (c : DurableCapture) : Prop where
  boundary : c.boundary.Covers c.acknowledged
  recorded : Recorded (c.acknowledged ++ c.inFlight.toList)
  times : ∀ e ∈ c.acknowledged, e.monoNs ≤ c.now
  disk : c.disk.Holds c.acknowledged ∨ c.disk.Holds (c.acknowledged ++ c.inFlight.toList)
  /-- an open capture -/
  synced : c.failed = false → c.inFlight = none ∧ c.disk.events = stream c.acknowledged ∧
    c.disk.synced = c.disk.events.length ∧ c.disk.boundary = c.boundary

/-- What a call does. -/
structure Moves (c : DurableCapture) (r : Result × DurableCapture) (ends : Prop) : Prop where
  kept : r.2.Kept
  time : c.now ≤ r.2.now
  closed : c.closed = true → r.2.closed = true ∧ r.1 ≠ .ok ()
  failed : r.1 ≠ .ok () → r.2.now < 2 ^ 64 → r.2.closed = true
  eof : r.2.disk.boundary.eof = true → c.disk.boundary.eof = true ∨ ends

variable {c : DurableCapture} {ends : Prop}

omit [SerdeJson] in
theorem closed_of_failed (h : c.failed = true) : c.closed = true := by
  unfold closed
  rw [h]
  rfl

omit [SerdeJson] in
theorem closed_eq_false (h : c.closed = false) : c.boundary.eof = false ∧ c.boundary.error = none := by
  unfold closed at h
  simp only [Bool.or_eq_false_iff, isSome_eq_false_iff, isNone_iff_eq_none] at h
  exact ⟨h.1.2, h.2⟩

omit [SerdeJson] in
theorem valid_length {event : EventKind} {n : Nat} (h : event.valid n = true) : event.data.length = n := by
  cases event with
  | output data => exact (of_decide_eq_true h).2
  | resize cols rows => exact (of_decide_eq_true h).1.symm

theorem Moves.trans {c' : DurableCapture} {r : Result × DurableCapture} (h : c.Moves (.ok (), c') ends)
    (h' : c'.Moves r ends) :
    c.Moves r ends where
  kept := h'.kept
  time := le_trans h.time h'.time
  closed hc := absurd rfl (h.closed hc).2
  failed := h'.failed
  eof he := (h'.eof he).elim h.eof .inr

theorem kept_create : create.Kept where
  boundary := ⟨rfl, rfl, rfl, zero_le, zero_le, nofun⟩
  recorded := ⟨nofun, .nil⟩
  times := nofun
  disk := .inl ⟨⟨rfl, rfl, rfl, zero_le, zero_le, nofun⟩, prefix_refl _⟩
  synced _ := ⟨rfl, rfl, rfl, rfl⟩

variable (h : c.Kept)
include h

theorem moves_fail (error : String) : c.Moves (c.fail error) ends where
  kept := { h with synced := nofun }
  time := le_rfl
  closed _ := ⟨closed_of_failed rfl, nofun⟩
  failed _ _ := closed_of_failed rfl
  eof h := .inl h

theorem moves_refused (hclosed : c.closed = true) (error : String) : c.Moves (.error error, c) ends :=
  ⟨h, le_rfl, fun h => ⟨h, nofun⟩, fun _ _ => hclosed, .inl⟩

/-- A boundary that covers what was acknowledged and the next event is published, or the call fails. -/
theorem moves_persist {event : Option CaptureEvent} {candidate : Boundary} {io : Io} (hopen : c.closed = false)
    (hcovers : candidate.Covers (c.acknowledged ++ event.toList))
    (hrecorded : Recorded (c.acknowledged ++ event.toList))
    (htime : ∀ e ∈ event, e.monoNs ≤ c.now) (heof : io.published = true → candidate.eof = true → ends) :
    c.Moves (c.persist event candidate io) ends := by
  have hnot : c.failed = false := by
    rw [← Bool.not_eq_true]
    intro hfailed
    rw [closed_of_failed hfailed] at hopen
    cases hopen
  have hclosed : c.closed = true → False := by rw [hopen]; nofun
  obtain ⟨hnone, hevents, hsynced, hboundary⟩ := h.synced hnot
  have hstream : c.disk.events ++ event.elim [] frame = stream (c.acknowledged ++ event.toList) := by
    rw [stream_append, hevents]
    cases event with
    | none => rfl
    | some e => exact congrArg _ (append_nil _).symm
  -- all of the file is durable
  have hdurable : ∀ es, stream es <+: stream (c.acknowledged ++ event.toList) →
      stream es <+: (c.disk.events ++ event.elim [] frame).take (c.disk.events ++ event.elim [] frame).length := by
    intro es hes
    rwa [take_length, hstream]
  cases io with
  | done =>
    refine ⟨⟨hcovers, ?_, ?_, .inl ⟨hcovers, hdurable _ (prefix_refl _)⟩, fun _ => ⟨hnone, hstream, rfl, rfl⟩⟩,
      le_rfl, fun h => (hclosed h).elim, fun h => absurd rfl h, fun h => .inr (heof rfl h)⟩
    · show Recorded (_ ++ c.inFlight.toList)
      rw [hnone, toList_none, append_nil]
      exact hrecorded
    · exact forall_mem_append.mpr ⟨h.times, fun e he => htime e (mem_toList.mp he)⟩
  | unsynced written error =>
    refine ⟨⟨h.boundary, hrecorded, h.times, .inl ⟨hboundary ▸ h.boundary, ?_⟩, nofun⟩, le_rfl,
      fun h => (hclosed h).elim, fun _ _ => closed_of_failed rfl, .inl⟩
    show stream c.acknowledged <+: List.take c.disk.synced (c.disk.events ++ _)
    rw [hsynced, take_left, hevents]
  | uncommitted published error =>
    refine ⟨⟨h.boundary, hrecorded, h.times, ?_, nofun⟩, le_rfl, fun h => (hclosed h).elim,
      fun _ _ => closed_of_failed rfl, ?_⟩
    · cases published with
      | true => exact .inr ⟨hcovers, hdurable _ (prefix_refl _)⟩
      | false =>
        refine .inl ⟨hboundary ▸ h.boundary, hdurable _ ?_⟩
        rw [stream_append]
        exact prefix_append _ _
    · cases published with
      | true => exact fun h => .inr (heof rfl h)
      | false => exact .inl

theorem Kept.acknowledges : Recorded c.acknowledged :=
  ⟨(forall_mem_append.mp h.recorded.admitted).1, (pairwise_append.mp h.recorded.ordered).1⟩

theorem Kept.recorded_concat {e : CaptureEvent} (he : e.Admitted) (htime : e.monoNs = c.now) :
    Recorded (c.acknowledged ++ [e]) where
  admitted := forall_mem_append.mpr ⟨h.acknowledges.admitted, forall_mem_singleton.mpr he⟩
  ordered := by
    refine pairwise_append.mpr ⟨h.acknowledges.ordered, pairwise_singleton _ _, ?_⟩
    exact fun a ha => forall_mem_singleton.mpr (htime ▸ h.times a ha)

/-- An append that was admitted, at the time of its call. -/
theorem moves_appendAdmitted (event : EventKind) (rawBytes : Nat) (io : Io) (hnow : c.now < 2 ^ 64) :
    c.Moves (c.appendAdmitted event rawBytes c.now io) False := by
  unfold appendAdmitted
  cases hopen : c.closed with
  | true => exact moves_refused h hopen _
  | false =>
    obtain ⟨heof, -⟩ := closed_eq_false hopen
    have hb := h.boundary
    have hbytes := hb.bytesFit
    have hstream := hb.streamFits
    rw [if_neg Bool.false_ne_true]
    by_cases hvalid : event.valid rawBytes = true
    · obtain rfl := valid_length hvalid
      have he : (⟨c.now, event⟩ : CaptureEvent).Admitted := ⟨hvalid, hnow⟩
      have hsmall := (length_encode _ he).2
      have hdata : event.data.length ≤ 8192 := by
        cases event with
        | output data => exact (of_decide_eq_true hvalid).1
        | resize cols rows => exact zero_le
      -- neither sum can overflow
      rw [if_neg (not_not.mpr hvalid), if_neg (by omega)]
      split
      · exact moves_fail h _
      · rename_i hraw
        rw [if_neg (by omega)]
        split
        · exact moves_fail h _
        · rename_i hnext
          refine moves_persist h hopen ⟨hb.version, ?_, ?_, not_lt.mp hraw, not_lt.mp hnext, ?_⟩
            (h.recorded_concat he rfl) ?_ ?_
          · simp [hb.bytes, output]
          · rw [stream_append, hb.streamBytes]
            simp [stream, length_frame, add_comm]
          · rintro ⟨hended, -⟩
            rw [heof] at hended
            cases hended
          · intro e he
            cases he
            exact le_rfl
          · intro _ hended
            rw [heof] at hended
            cases hended
    · rw [if_pos hvalid]
      exact moves_fail h _

theorem moves_appendEvent (event : EventKind) (rawBytes : Nat) (m : Moment) :
    c.Moves (c.appendEvent event rawBytes m) False := by
  have hlater : { c with now := c.now + m.passed }.Kept :=
    { h with times := fun e he => le_trans (h.times e he) (Nat.le_add_right _ _) }
  unfold appendEvent
  dsimp only
  split
  · rename_i hpast
    exact ⟨hlater, Nat.le_add_right _ _, fun hc => ⟨hc, nofun⟩, fun _ hnow => absurd hnow (not_lt.mpr hpast), .inl⟩
  · rename_i hnow
    have hmoves := moves_appendAdmitted hlater event rawBytes m.io (not_le.mp hnow)
    exact { hmoves with time := le_trans (Nat.le_add_right _ _) hmoves.time }

theorem moves_appendChunk (bytes : Bytes) (m : Moment) : c.Moves (c.appendChunk bytes m) False := by
  unfold appendChunk
  split
  · exact moves_fail h _
  · exact moves_appendEvent h _ _ m

theorem moves_append (bytes : Bytes) (moments : Nat → Moment) : c.Moves (c.append bytes moments) False := by
  fun_induction append c bytes moments with
  | case1 c bytes moments _ c' hfirst ih =>
    have hmoves := moves_appendChunk h (bytes.take 8192) (moments 0)
    rw [hfirst] at hmoves
    exact hmoves.trans (ih hmoves.kept)
  | case2 | case3 => exact moves_appendChunk h _ _

theorem moves_endCapture (error : Option String) (io : Io) :
    c.Moves (c.endCapture error io) (error = none ∧ io.published = true) := by
  unfold endCapture
  cases hopen : c.closed with
  | true => exact moves_refused h hopen _
  | false =>
    have hb := h.boundary
    refine moves_persist h hopen ?_ ?_ nofun ?_
    · rw [toList_none, append_nil]
      refine { hb with ended := ?_ }
      cases error <;> nofun
    · rw [toList_none, append_nil]
      exact h.acknowledges
    · intro hpublished heof
      exact ⟨isNone_iff_eq_none.mp heof, hpublished⟩

/-- The call publishes an end without error. -/
def Ends : Op → Prop
  | .endCapture error io => error = none ∧ io.published = true
  | _ => False

theorem moves_call (op : Op) : c.Moves (c.call op) (Ends op) := by
  cases op with
  | append bytes moments => exact moves_append h bytes moments
  | resize cols rows m => exact moves_appendEvent h _ _ m
  | endCapture error io => exact moves_endCapture h error io

end DurableCapture

open DurableCapture (Moves Kept Ends)

theorem after_concat (ops : List Op) (op : Op) : after (ops ++ [op]) = ((after ops).call op).2 := by
  simp [after]

theorem kept_after (ops : List Op) : (after ops).Kept := by
  induction ops using List.reverseRecOn with
  | nil => exact DurableCapture.kept_create
  | append_singleton ops op ih =>
    rw [after_concat]
    exact (DurableCapture.moves_call ih op).kept

theorem ends_of_eof {ops : List Op} (h : (after ops).disk.boundary.eof = true) : ∃ op ∈ ops, Ends op := by
  induction ops using List.reverseRecOn with
  | nil => cases h
  | append_singleton ops op ih =>
    rw [after_concat] at h
    rcases (DurableCapture.moves_call (kept_after ops) op).eof h with h | h
    · obtain ⟨op', hmem, hends⟩ := ih h
      exact ⟨op', mem_append_left _ hmem, hends⟩
    · exact ⟨op, mem_append_right _ (mem_singleton_self op), h⟩

theorem closed_after {front back : List Op} {op : Op} (hfailed : ((after front).call op).1 ≠ .ok ())
    (hnow : (after (front ++ op :: back)).now < 2 ^ 64) : (after (front ++ op :: back)).closed = true := by
  induction back using List.reverseRecOn with
  | nil =>
    rw [after_concat] at hnow ⊢
    exact (DurableCapture.moves_call (kept_after front) op).failed hfailed hnow
  | append_singleton back op' ih =>
    rw [← cons_append, ← append_assoc, after_concat] at hnow ⊢
    have hmoves := DurableCapture.moves_call (kept_after (front ++ op :: back)) op'
    exact (hmoves.closed (ih (lt_of_le_of_lt hmoves.time hnow))).1

/-- **Crash safety.** Whatever is in the file behind the synced bytes, the files cover the acknowledged
events and at most the one in flight, and readers give exactly their output. -/
theorem recovery_exact (ops : List Op)
    (hdecode : Decodes ((after ops).acknowledged ++ (after ops).inFlight.toList)) :
    (∀ events : Bytes, (after ops).disk.events.take (after ops).disk.synced <+: events →
      Exact ⟨(after ops).disk.boundary, events⟩ (after ops).acknowledged ∨
        Exact ⟨(after ops).disk.boundary, events⟩ ((after ops).acknowledged ++ (after ops).inFlight.toList)) ∧
    ((after ops).disk.boundary.eof = true → ∃ io, .endCapture none io ∈ ops ∧ io.published = true) ∧
    (∀ front op back, ops = front ++ op :: back → ((after front).call op).1 ≠ .ok () → (after ops).now < 2 ^ 64 →
      ∀ op', ((after ops).call op').1 ≠ .ok ()) := by
  have h := kept_after ops
  refine ⟨?_, ?_, ?_⟩
  · intro events hevents
    rcases h.disk with hdisk | hdisk
    · exact .inl (hdisk.covers.exact (fun e he =>
        hdecode e (mem_append_left _ he)) h.acknowledges (hdisk.durable.trans hevents))
    · exact .inr (hdisk.covers.exact hdecode h.recorded (hdisk.durable.trans hevents))
  · intro heof
    obtain ⟨op, hmem, hends⟩ := ends_of_eof heof
    cases op with
    | endCapture error io =>
      obtain ⟨rfl, hpublished⟩ := hends
      exact ⟨io, hmem, hpublished⟩
    | append | resize => exact hends.elim
  · rintro front op back rfl hfailed hnow op'
    exact ((DurableCapture.moves_call h op').closed (closed_after hfailed hnow)).2

end

namespace Sample

def ascii (s : String) : Bytes := s.toList.map fun c => UInt8.ofNat c.toNat

def decimal (n : Nat) : Bytes :=
  if n = 0 then ascii "0" else (Nat.digits 10 n).reverse.map fun d => UInt8.ofNat (48 + d)

def items : Bytes → Bytes
  | [] => []
  | [b] => decimal b.toNat
  | b :: bs => decimal b.toNat ++ ascii "," ++ items bs

def text (e : CaptureEvent) : Bytes :=
  ascii "\x7b\"mono_ns\":" ++ decimal e.monoNs ++ ascii ",\"event\":\x7b" ++
    (match e.event with
    | .output data => ascii "\"output\":\x7b\"data\":[" ++ items data ++ ascii "]"
    | .resize cols rows =>
      ascii "\"resize\":\x7b\"cols\":" ++ decimal cols.toNat ++ ascii ",\"rows\":" ++ decimal rows.toNat) ++
    ascii "\x7d\x7d\x7d"

theorem length_decimal {n k : Nat} (hk : 0 < k) (h : n < 10 ^ k) : (decimal n).length ≤ k := by
  unfold decimal
  split
  · exact hk
  · rw [length_map, length_reverse]
    exact (Nat.digits_length_le_iff (by decide) n).mpr h

theorem length_items (bs : Bytes) : (items bs).length ≤ 4 * bs.length := by
  fun_induction items bs with
  | case1 => exact zero_le
  | case2 b =>
    have hb := length_decimal (n := b.toNat) (k := 3) (by decide) (by have := b.toNat_lt; omega)
    simp only [length_singleton]
    omega
  | case3 b bs _ ih =>
    have hb := length_decimal (n := b.toNat) (k := 3) (by decide) (by have := b.toNat_lt; omega)
    have hcomma : (ascii ",").length = 1 := rfl
    rw [length_append, length_append, length_cons]
    omega

theorem length_text (e : CaptureEvent) (h : e.Admitted) :
    0 < (text e).length ∧ (text e).length ≤ 65536 := by
  have hn := length_decimal (k := 20) (by decide) (lt_trans h.time (by decide))
  have hvalid := h.valid
  have hlengths : (ascii "\x7b\"mono_ns\":").length = 11 ∧ (ascii ",\"event\":\x7b").length = 10 ∧
    (ascii "\x7d\x7d\x7d").length = 3 := ⟨rfl, rfl, rfl⟩
  unfold text
  cases he : e.event with
  | output data =>
    rw [he] at hvalid
    have hdata : data.length ≤ 8192 := (of_decide_eq_true hvalid).1
    have hi := length_items data
    have hquoted : (ascii "\"output\":\x7b\"data\":[").length = 18 ∧ (ascii "]").length = 1 := ⟨rfl, rfl⟩
    simp only [length_append]
    omega
  | resize cols rows =>
    have hc := length_decimal (n := cols.toNat) (k := 5) (by decide) (by have := cols.toNat_lt; omega)
    have hr := length_decimal (n := rows.toNat) (k := 5) (by decide) (by have := rows.toNat_lt; omega)
    have hquoted : (ascii "\"resize\":\x7b\"cols\":").length = 17 ∧ (ascii ",\"rows\":").length = 8 := ⟨rfl, rfl⟩
    simp only [length_append]
    omega

def first : CaptureEvent := ⟨5, .output [0x61, 0x62]⟩
def second : CaptureEvent := ⟨7, .output [0x63]⟩

instance : SerdeJson where
  encode := text
  length_encode := length_text
  decode bytes := ([first, second].find? (text · = bytes)).elim (.error "expected value") .ok

def ops : List Op :=
  [.append [0x61, 0x62] fun _ => { passed := 5 }, .append [0x63] fun _ =>
    { passed := 2, io := .uncommitted true "sync" }]

/-- The second event is covered too; a stray byte behind it does not matter. -/
theorem recovered :
    (after ops).acknowledged = [first] ∧ (after ops).inFlight = some second ∧ (after ops).disk.boundary.bytes = 3 ∧
      (Exact ⟨(after ops).disk.boundary, stream [first, second] ++ [0xff]⟩ (after ops).acknowledged ∨
        Exact ⟨(after ops).disk.boundary, stream [first, second] ++ [0xff]⟩
          ((after ops).acknowledged ++ (after ops).inFlight.toList)) := by
  have hdecode : Decodes ((after ops).acknowledged ++ (after ops).inFlight.toList) := by
    unfold Decodes
    decide +kernel
  have hdurable : (after ops).disk.events.take (after ops).disk.synced = stream [first, second] := by decide +kernel
  refine ⟨by decide +kernel, by decide +kernel, by decide +kernel, (recovery_exact ops hdecode).1 _ ?_⟩
  rw [hdurable]
  exact prefix_append _ _

def late : Op := .append [] fun _ => { passed := 2 ^ 64 }

/-- A limit that is too large is refused, and the failure of a late append does not close the capture. -/
theorem refused : read ⟨{}, []⟩ 0 262145 = .error "invalid capture cursor or read limit" ∧
    ((after []).call late).1 = .error "out of range integral type conversion attempted" ∧
    ((after [late]).call (.endCapture none .done)).1 = .ok () := by
  refine ⟨by decide +kernel, by decide +kernel, by decide +kernel⟩

end Sample
end Bmux.Capture
