import Bmux.Core.TreeMap

/-!
# The output of a pane and its readers

`OutputFanoutBuffer` in `plugins/pane-runtime-plugin/src/runtime.rs` keeps the end of what a pane has
written, with the stream offset of its first byte, and a cursor into the stream per client. A push
appends a chunk and evicts from the front; how much depends on a counter that it shares with the
buffers of other panes, so what a push observes of it is an argument here.

The buffer also tracks escape sequences, as spans of offsets at which a parser must not be started:
a client whose bytes were evicted resumes at the first offset outside of them.

Offsets are numbers here: a stream of 2^64 bytes is out of reach. The sentinel `u64::MAX` of a span
that has no end yet is `none`.
-/
namespace Bmux.Output
open Std (ExtTreeMap)

abbrev ClientId := Nat
abbrev Bytes := List UInt8

inductive EscSeqPhase where
  | ground | escape | csi | osc | oscEsc | dcs | dcsEsc | sos | sosEsc
  deriving DecidableEq, Repr

namespace EscSeqPhase

/-- mirrors plugins/pane-runtime-plugin/src/runtime.rs:4789-4856 -/
def advance (phase : EscSeqPhase) (byte : UInt8) : EscSeqPhase :=
  if byte = 0x18 ∨ byte = 0x1A then .ground
  else
    match phase with
    | .ground => if byte = 0x1B then .escape else .ground
    | .escape =>
      if byte = 0x5B then .csi
      else if byte = 0x5D then .osc
      else if byte = 0x50 then .dcs
      else if byte = 0x58 ∨ byte = 0x5E ∨ byte = 0x5F then .sos
      else if byte = 0x1B ∨ 0x20 ≤ byte ∧ byte ≤ 0x2F then .escape
      else .ground
    | .csi =>
      if 0x40 ≤ byte ∧ byte ≤ 0x7E then .ground
      else if byte = 0x1B then .escape
      else .csi
    | .osc => if byte = 0x07 then .ground else if byte = 0x1B then .oscEsc else .osc
    | .oscEsc => if byte = 0x5C then .ground else if byte = 0x1B then .escape else .osc
    | .dcs => if byte = 0x1B then .dcsEsc else .dcs
    | .dcsEsc => if byte = 0x5C then .ground else if byte = 0x1B then .escape else .dcs
    | .sos => if byte = 0x1B then .sosEsc else .sos
    | .sosEsc => if byte = 0x5C then .ground else if byte = 0x1B then .escape else .sos

def isGround (phase : EscSeqPhase) : Bool := phase = .ground

end EscSeqPhase

/-- From the byte after an ESC to the first offset after the sequence, if it is over. -/
abbrev Span := Nat × Option Nat

structure OutputFanoutBuffer where
  maxBytes : Nat
  startOffset : Nat
  data : Bytes
  cursors : ExtTreeMap ClientId Nat compare
  escPhase : EscSeqPhase
  escSpans : List Span

structure OutputRead where
  bytes : Bytes
  streamStart : Nat
  streamEnd : Nat
  streamGap : Bool
  deriving DecidableEq, Repr

def closeLast (resume : Nat) (spans : List Span) : List Span :=
  match spans.getLast? with
  | some (start, none) => spans.dropLast ++ [(start, some resume)]
  | _ => spans

/-- The loop of `push_chunk_with_node_cap` over the bytes of a chunk.
mirrors plugins/pane-runtime-plugin/src/runtime.rs:4961-4979 -/
def trackEscapes : EscSeqPhase → List Span → Nat → Bytes → EscSeqPhase × List Span
  | prev, spans, _, [] => (prev, spans)
  | prev, spans, offset, byte :: rest =>
    let next := prev.advance byte
    let spans :=
      if prev.isGround && !next.isGround then spans ++ [(offset + 1, none)]
      else if !prev.isGround && next.isGround then closeLast (offset + 1) spans
      else spans
    trackEscapes next spans (offset + 1) rest

/-- What an eviction sees of the counter of retained bytes, and whether its exchange succeeds. -/
structure Observation where
  retained : Nat
  exchanged : Bool
  deriving DecidableEq, Repr

/-- `binary_search_by` on spans in ascending order: the place of the one that starts at the target, or
where it would be, less one.
mirrors plugins/pane-runtime-plugin/src/runtime.rs:5162-5165 -/
def searchIndex (spans : List Span) (target : Nat) : Nat :=
  match spans.findIdx? fun span => span.1 = target with
  | some i => i
  | none => (spans.countP fun span => span.1 < target) - 1

namespace OutputFanoutBuffer

def withAccounting (maxBytes : Nat) : OutputFanoutBuffer :=
  { maxBytes := max maxBytes 1, startOffset := 0, data := [], cursors := ∅, escPhase := .ground, escSpans := [] }

variable (b : OutputFanoutBuffer)

def endOffset : Nat := b.startOffset + b.data.length

variable (client : ClientId)

def registerClientAtTail : OutputFanoutBuffer :=
  { b with cursors := b.cursors.insert client b.endOffset }

def unregisterClient : OutputFanoutBuffer :=
  { b with cursors := b.cursors.erase client }

def acknowledgeSnapshot (offset : Nat) : OutputFanoutBuffer :=
  match b.cursors[client]? with
  | none => b
  | some current => { b with cursors := b.cursors.insert client (min (max current offset) b.endOffset) }

def dropFront (n : Nat) : OutputFanoutBuffer :=
  { b with data := b.data.drop n, startOffset := b.startOffset + n }

/-- The eviction loop; the counter is read once in each round, last in the one that finds nothing to
remove.
mirrors plugins/pane-runtime-plugin/src/runtime.rs:4981-5017 -/
def evict (nodeMaxBytes : Nat) : Nat → OutputFanoutBuffer → List Observation → Option OutputFanoutBuffer
  | _, _, [] => none
  | contentionRetries, b, seen :: rest =>
    let localExcess := b.data.length - b.maxBytes
    let nodeExcess := seen.retained - nodeMaxBytes
    let remove := min (max localExcess nodeExcess) b.data.length
    if remove = 0 then if rest = [] then some b else none
    else if seen.exchanged then evict nodeMaxBytes 0 (b.dropFront remove) rest
    else if contentionRetries + 1 < 8 then evict nodeMaxBytes (contentionRetries + 1) b rest
    else evict nodeMaxBytes 0 (b.dropFront 1) rest

def prune : OutputFanoutBuffer :=
  { b with escSpans := b.escSpans.dropWhile fun span => span.2.any fun safeResume => safeResume ≤ b.startOffset }

/-- `none` if the observations are not those of a whole eviction.
mirrors plugins/pane-runtime-plugin/src/runtime.rs:4945-5031 -/
def pushChunkWithNodeCap (chunk : Bytes) (nodeMaxBytes : Nat) (seen : List Observation) :
    Option OutputFanoutBuffer :=
  let tracked := trackEscapes b.escPhase b.escSpans b.endOffset chunk
  let extended := { b with data := b.data ++ chunk, escPhase := tracked.1, escSpans := tracked.2 }
  (evict nodeMaxBytes 0 extended seen).map prune

def firstSafeOffsetAtOrAfter (target : Nat) : Nat :=
  (((b.escSpans.drop (searchIndex b.escSpans target)).take 2).findSome? fun span =>
    if span.1 ≤ target ∧ ∀ safeResume ∈ span.2, target < safeResume then some (span.2.getD b.endOffset)
    else none).getD target

def readForClient (maxBytes : Nat) : OutputRead × OutputFanoutBuffer :=
  let limit := max maxBytes 1
  let cursor := b.cursors[client]?.getD b.endOffset
  let streamGap : Bool := cursor < b.startOffset
  let streamStart := if streamGap then b.firstSafeOffsetAtOrAfter b.startOffset else cursor
  let toRead := min (b.endOffset - streamStart) limit
  let bytes := (b.data.drop (streamStart - b.startOffset)).take toRead
  ({ bytes, streamStart, streamEnd := streamStart + bytes.length, streamGap },
    { b with cursors := b.cursors.insert client (streamStart + bytes.length) })

def readAt (cursor limit : Nat) : OutputRead :=
  let streamGap : Bool := cursor < b.startOffset ∨ cursor > b.endOffset
  let streamStart := min (max cursor b.startOffset) b.endOffset
  if limit = 0 ∨ streamStart = b.endOffset then { bytes := [], streamStart, streamEnd := streamStart, streamGap }
  else
    let bytes := (b.data.drop (streamStart - b.startOffset)).take (min (b.endOffset - streamStart) limit)
    { bytes, streamStart, streamEnd := streamStart + bytes.length, streamGap }

def readRecentWithOffsets (maxBytes : Nat) : OutputRead :=
  let nothing : OutputRead := { bytes := [], streamStart := b.endOffset, streamEnd := b.endOffset, streamGap := false }
  if b.data.isEmpty ∨ maxBytes = 0 then nothing
  else
    let safeStart := b.firstSafeOffsetAtOrAfter (b.endOffset - min b.data.length maxBytes)
    if safeStart ≥ b.endOffset then nothing
    else
      { bytes := b.data.drop (safeStart - b.startOffset), streamStart := safeStart, streamEnd := b.endOffset,
        streamGap := false }

def advanceClientToEnd : OutputFanoutBuffer :=
  if b.cursors.contains client then { b with cursors := b.cursors.insert client b.endOffset } else b

end OutputFanoutBuffer

end Bmux.Output
