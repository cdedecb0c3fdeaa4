import Bmux.Core.Wire

/-!
# Block compression over an async stream (`packages/ipc/src/compressed_stream.rs`)

`CompressedStream` wraps a duplex stream. Writes are buffered until a flush
compresses them into one block, `[compressed_len][uncompressed_len][bytes]`,
and hands it to the inner stream as fast as that accepts it; reads collect a
header and a block, decompress it and serve the result. Every call may return
`Pending` half-way and is resumed by the next one, so the progress of both
directions is kept in the fields.

The inner stream is generic, as in the source (`AsyncRead`, `AsyncWrite`).
`Pipe` is the instance the results are about: a byte queue that answers each
inner call as a schedule says. zstd is a parameter.
-/
namespace Bmux.Ipc
open Wire

inductive ErrorKind where
  | unexpectedEof
  | invalidData
  | writeZero
  | other
  deriving DecidableEq, Repr

structure IoError where
  kind : ErrorKind
  message : String
  deriving DecidableEq, Repr

inductive Poll (α : Type) where
  | ready (value : α)
  | pending
  deriving DecidableEq, Repr

/-- `tokio::io::AsyncRead`: a read fills at most `capacity` bytes; none means end of stream. -/
class AsyncRead (S : Type) where
  pollRead : S → (capacity : Nat) → Poll (Except IoError Bytes) × S

/-- `tokio::io::AsyncWrite`: a write accepts a number of bytes from the front. -/
class AsyncWrite (S : Type) where
  pollWrite : S → Bytes → Poll (Except IoError Nat) × S
  pollFlush : S → Poll (Except IoError Unit) × S
  pollShutdown : S → Poll (Except IoError Unit) × S

/-- `zstd::bulk`: the result of decompression is bounded by the capacity it is given. -/
structure Zstd where
  compress : Bytes → (level : Int) → Except String Bytes
  decompress : Bytes → (capacity : Nat) → Except String Bytes

/-- Blocks kept as they are, which the format allows too. -/
def Zstd.stored : Zstd where
  compress buf _ := .ok buf
  decompress buf capacity := if buf.length ≤ capacity then .ok buf else .error "too small"

inductive ReadState where
  | header
  | block
  | data
  deriving DecidableEq, Repr

/-- mirrors packages/ipc/src/compressed_stream.rs:28-54 -/
structure CompressedStream (S : Type) where
  inner : S
  level : Int
  writeBuf : Bytes
  writeOut : Bytes
  writeOutPos : Nat
  readBuf : Bytes
  readPos : Nat
  headerBuf : Bytes
  readState : ReadState
  blockBuf : Bytes
  blockCompressedLen : Nat
  blockUncompressedLen : Nat
  deriving DecidableEq, Repr

def BLOCK_HEADER_LEN : Nat := 8

/-- A block on the wire; `as u32` drops the upper bits of a length. -/
def blockBytes (compressed : Bytes) (uncompressedLen : Nat) : Bytes :=
  leBytes 4 (compressed.length % 2 ^ 32) ++ leBytes 4 (uncompressedLen % 2 ^ 32) ++ compressed

namespace CompressedStream
variable {S : Type}

/-- mirrors packages/ipc/src/compressed_stream.rs:70-85 -/
def new (inner : S) (level : Int) : CompressedStream S where
  inner := inner
  level := level
  writeBuf := []
  writeOut := []
  writeOutPos := 0
  readBuf := []
  readPos := 0
  headerBuf := []
  readState := .header
  blockBuf := []
  blockCompressedLen := 0
  blockUncompressedLen := 0

/-! ## Writing -/

def pollWrite (s : CompressedStream S) (buf : Bytes) : Poll (Except IoError Nat) × CompressedStream S :=
  (.ready (.ok buf.length), { s with writeBuf := s.writeBuf ++ buf })

/-- The first part of `poll_flush`: buffered data becomes the next block, but only
once the previous one is out. -/
def compressBuffered (zstd : Zstd) (s : CompressedStream S) : Except IoError (CompressedStream S) :=
  if s.writeBuf ≠ [] ∧ s.writeOutPos ≥ s.writeOut.length then
    match zstd.compress s.writeBuf s.level with
    | .error message => .error ⟨.other, message⟩
    | .ok compressed =>
      .ok { s with
        writeOut := blockBytes compressed s.writeBuf.length
        writeOutPos := 0
        writeBuf := [] }
  else .ok s

variable [AsyncWrite S]

/-- The second part of `poll_flush`: hand `write_out` to the inner stream. `none`
says that all of it is out. -/
def writeOutLoop (s : CompressedStream S) : Option (Poll (Except IoError Unit)) × CompressedStream S :=
  if s.writeOutPos < s.writeOut.length then
    match AsyncWrite.pollWrite s.inner (s.writeOut.drop s.writeOutPos) with
    | (.ready (.ok n), inner) =>
      if n = 0 then
        (some (.ready (.error ⟨.writeZero, "zero-length write on compressed stream"⟩)), { s with inner := inner })
      else writeOutLoop { s with inner := inner, writeOutPos := s.writeOutPos + n }
    | (.ready (.error e), inner) => (some (.ready (.error e)), { s with inner := inner })
    | (.pending, inner) => (some .pending, { s with inner := inner })
  else (none, s)
termination_by s.writeOut.length - s.writeOutPos

def pollFlush (zstd : Zstd) (s : CompressedStream S) : Poll (Except IoError Unit) × CompressedStream S :=
  match compressBuffered zstd s with
  | .error e => (.ready (.error e), s)
  | .ok s =>
    match writeOutLoop s with
    | (some result, s) => (result, s)
    | (none, s) =>
      let (result, inner) := AsyncWrite.pollFlush s.inner
      (result, { s with inner := inner })

def pollShutdown (zstd : Zstd) (s : CompressedStream S) : Poll (Except IoError Unit) × CompressedStream S :=
  if s.writeBuf ≠ [] then
    match pollFlush zstd s with
    | (.ready (.ok ()), s) =>
      let (result, inner) := AsyncWrite.pollShutdown s.inner
      (result, { s with inner := inner })
    | (other, s) => (other, s)
  else
    let (result, inner) := AsyncWrite.pollShutdown s.inner
    (result, { s with inner := inner })

end CompressedStream

/-! ## Reading -/

namespace CompressedStream
variable {S : Type}

abbrev ReadResult := Poll (Except IoError Bytes)

/-- The top of the loop: serve decompressed data, or panic in `unreachable!()`
when there is none. -/
def readData (capacity : Nat) (s : CompressedStream S) : Option (ReadResult × CompressedStream S) :=
  if s.readPos < s.readBuf.length then
    let available := s.readBuf.drop s.readPos
    let toCopy := min available.length capacity
    let s' := { s with readPos := s.readPos + toCopy }
    if s'.readPos ≥ s'.readBuf.length then
      some (.ready (.ok (available.take toCopy)),
        { s' with readBuf := [], readPos := 0, readState := .header, headerBuf := [] })
    else some (.ready (.ok (available.take toCopy)), s')
  else none

variable [AsyncRead S]

def blockLoop (s : CompressedStream S) : Option ReadResult × CompressedStream S :=
  if s.blockBuf.length < s.blockCompressedLen then
    match AsyncRead.pollRead s.inner (min (s.blockCompressedLen - s.blockBuf.length) 8192) with
    | (.ready (.ok filled), inner) =>
      if filled.length = 0 then
        (some (.ready (.error ⟨.unexpectedEof, "compressed block truncated"⟩)), { s with inner := inner })
      else blockLoop { s with inner := inner, blockBuf := s.blockBuf ++ filled }
    | (.ready (.error e), inner) => (some (.ready (.error e)), { s with inner := inner })
    | (.pending, inner) => (some .pending, { s with inner := inner })
  else (none, s)
termination_by s.blockCompressedLen - s.blockBuf.length
decreasing_by
  rw [List.length_append]
  omega

variable (zstd : Zstd) (capacity : Nat) (s : CompressedStream S)

/-- `ReadState::Block`: collect the block and decompress it, then around the loop again. -/
def readBlock : Option (ReadResult × CompressedStream S) :=
  match blockLoop s with
  | (some result, s) => some (result, s)
  | (none, s) =>
    match zstd.decompress s.blockBuf s.blockUncompressedLen with
    | .ok data => readData capacity { s with readBuf := data, readPos := 0, readState := .data }
    | .error e => some (.ready (.error ⟨.invalidData, s!"zstd decompress failed: {e}"⟩), s)

def headerLoop (s : CompressedStream S) : Option ReadResult × CompressedStream S :=
  if s.headerBuf.length < BLOCK_HEADER_LEN then
    match AsyncRead.pollRead s.inner 1 with
    | (.ready (.ok filled), inner) =>
      match filled with
      | [] => (some (.ready (.ok [])), { s with inner := inner })
      | byte :: _ => headerLoop { s with inner := inner, headerBuf := s.headerBuf ++ [byte] }
    | (.ready (.error e), inner) => (some (.ready (.error e)), { s with inner := inner })
    | (.pending, inner) => (some .pending, { s with inner := inner })
  else (none, s)
termination_by BLOCK_HEADER_LEN - s.headerBuf.length
decreasing_by
  rw [List.length_append, List.length_singleton]
  omega

def compressedLen (header : Bytes) : Nat := ofLe (header.take 4)
def uncompressedLen (header : Bytes) : Nat := ofLe ((header.drop 4).take 4)

/-- `ReadState::Header`: collect and parse the header, then around the loop again. -/
def readHeader : Option (ReadResult × CompressedStream S) :=
  match headerLoop s with
  | (some result, s) => some (result, s)
  | (none, s) =>
    readBlock zstd capacity { s with
      blockCompressedLen := compressedLen s.headerBuf
      blockUncompressedLen := uncompressedLen s.headerBuf
      blockBuf := []
      readState := .block }

/-- mirrors packages/ipc/src/compressed_stream.rs:89-202. The loop goes round only to
the next state, so it is unrolled along the states; `none` is a panic. -/
def pollRead : Option (ReadResult × CompressedStream S) :=
  match s.readState with
  | .header => readHeader zstd capacity s
  | .block => readBlock zstd capacity s
  | .data => readData capacity s

end CompressedStream

/-! ## The inner stream -/

/-- How the inner stream answers one call: with up to `n + 1` bytes moved, not
yet, or with an error. -/
inductive Reply where
  | ready (n : Nat)
  | pending
  | error (e : IoError)
  deriving DecidableEq, Repr

/-- A byte queue: writes go to its end, reads come from its front, each call as the
schedule says, and not yet once the schedule is used up. Reading at the end of
the queue is the end of the stream. -/
structure Pipe where
  bytes : Bytes
  schedule : List Reply
  deriving DecidableEq, Repr

instance : AsyncRead Pipe where
  pollRead p capacity :=
    match p.schedule with
    | [] => (.pending, p)
    | .ready n :: schedule =>
      (.ready (.ok (p.bytes.take (min (n + 1) capacity))), ⟨p.bytes.drop (min (n + 1) capacity), schedule⟩)
    | .pending :: schedule => (.pending, ⟨p.bytes, schedule⟩)
    | .error e :: schedule => (.ready (.error e), ⟨p.bytes, schedule⟩)

def Pipe.signal (p : Pipe) : Poll (Except IoError Unit) × Pipe :=
  match p.schedule with
  | [] => (.pending, p)
  | .ready _ :: schedule => (.ready (.ok ()), ⟨p.bytes, schedule⟩)
  | .pending :: schedule => (.pending, ⟨p.bytes, schedule⟩)
  | .error e :: schedule => (.ready (.error e), ⟨p.bytes, schedule⟩)

instance : AsyncWrite Pipe where
  pollWrite p buf :=
    match p.schedule with
    | [] => (.pending, p)
    | .ready n :: schedule =>
      (.ready (.ok (min (n + 1) buf.length)), ⟨p.bytes ++ buf.take (min (n + 1) buf.length), schedule⟩)
    | .pending :: schedule => (.pending, ⟨p.bytes, schedule⟩)
    | .error e :: schedule => (.ready (.error e), ⟨p.bytes, schedule⟩)
  pollFlush := Pipe.signal
  pollShutdown := Pipe.signal

end Bmux.Ipc
