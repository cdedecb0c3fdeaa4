import Bmux.Core.Framing
import Bmux.L1Encoding.SerdeRoundtrip

/-!
# Length-prefixed frames (`packages/ipc/src/frame.rs`)

An envelope is encoded positionally and put behind its length; in a compressed
frame a byte that names the compression stands between the two. The decoders
take frames off the front of a buffer that the connection appends to, so they
are called after every chunk until they yield nothing (`Framing`).

The encoders accept an envelope of any protocol version, the decoders only one
of their own. For such envelopes the frames come out as they went in
(`frames_decode`); `Sample.other_version_rejected` is one that does not.
-/
namespace Bmux.Ipc
open Wire Framing List

/-! ## Envelopes -/

def CURRENT_PROTOCOL_VERSION : UInt16 := 4

inductive EnvelopeKind where
  | request
  | response
  | event
  deriving DecidableEq, Repr

/-- mirrors packages/ipc/src/lib.rs:279-287; `ProtocolVersion` is a newtype of `u16` -/
structure Envelope where
  version : UInt16
  requestId : UInt64
  kind : EnvelopeKind
  payload : Codec.Buffer
  deriving DecidableEq

namespace Envelope
open Codec Streams

def new (requestId : UInt64) (kind : EnvelopeKind) (payload : Buffer) : Envelope :=
  ⟨CURRENT_PROTOCOL_VERSION, requestId, kind, payload⟩

def kindTy : Ty :=
  .enum (.cons ⟨"request", by decide⟩ .unit (.cons ⟨"response",
    by decide⟩ .unit (.cons ⟨"event", by decide⟩ .unit .nil)))

def ty : Ty :=
  .struct (.cons ⟨"version", by decide⟩ (.newtypeStruct .u16) (.cons ⟨"request_id", by decide⟩ .u64
    (.cons ⟨"kind", by decide⟩ kindTy (.cons ⟨"payload", by decide⟩ .bytes .nil))))

def kindToVal : EnvelopeKind → kindTy.Val
  | .request => .inl ()
  | .response => .inr (.inl ())
  | .event => .inr (.inr (.inl ()))

def kindOfVal : kindTy.Val → EnvelopeKind
  | .inl () => .request
  | .inr (.inl ()) => .response
  | .inr (.inr (.inl ())) => .event

variable {α : Type} (e : Envelope)

def toVal : ty.Val := (e.version, e.requestId, kindToVal e.kind, e.payload, ())

def ofVal (v : ty.Val) : Envelope := ⟨v.1, v.2.1, kindOfVal v.2.2.1, v.2.2.2.1⟩

theorem ofVal_toVal : ofVal e.toVal = e := by
  obtain ⟨version, requestId, kind, payload⟩ := e
  cases kind <;> rfl

def encode : Except Error Bytes := toPositionalVec ty e.toVal

def decode (bytes : Bytes) : Outcome Error Envelope := (fromPositionalBytes ty bytes).map ofVal

theorem decode_encode {e : Envelope} {bytes : Bytes} (h : e.encode = .ok bytes) : decode bytes = .ok e := by
  obtain ⟨bytes', hwrite, hread⟩ := toVecWithMode_reads .positional ty (by decide) e.toVal
  have hbytes : bytes' = bytes := Except.ok.inj (hwrite.symm.trans h)
  subst hbytes
  have hdecode : fromPositionalBytes ty bytes' = .ok e.toVal := fromBytesWithMode_of_reads hread
  rw [decode, hdecode]
  exact congrArg Except.ok (ofVal_toVal e)

/-- A read that does not panic. -/
def Calm (r : De α) : Prop := ∀ c, (r.exec c).1 ≠ .error .panicked

theorem Calm.bind {α β : Type} {r : De α} {f : α → De β} (h : Calm r) (hf : ∀ a, Calm (f a)) : Calm (r >>= f) := by
  intro c
  rw [exec_bind]
  have hc := h c
  split
  · exact hf _ _
  · next hr =>
    rw [hr] at hc
    exact fun heq => hc (by cases heq; rfl)

theorem calm_pure (a : α) : Calm (pure a) := fun _ => nofun

theorem calm_readVarint (decode : Bytes → Option (α × Nat)) : Calm (readVarint decode) := by
  intro c
  rw [readVarint, exec_of]
  split <;> rintro ⟨⟩

theorem calm_readBytes : Calm readBytes := by
  refine (calm_readVarint _).bind fun len => Calm.bind (fun _ => by rintro ⟨⟩) fun _ =>
    Calm.bind (fun c => ?_) fun _ => Calm.bind (fun c => ?_) fun _ => calm_pure _
  · rw [admitBlob, exec_of]
    repeat' split
    all_goals rintro ⟨⟩
  · rw [Codec.consume, Streams.consume, exec_of]
    split <;> rintro ⟨⟩

theorem calm_deserialize : Calm (deserialize .positional ty) := by
  have htag (tag : TypeTag) : Calm (expectTag .positional tag) := fun _ => by rintro ⟨⟩
  have hkind : Calm (deserialize .positional kindTy) := by
    refine (htag _).bind fun _ c => ?_
    refine ((calm_readVarint _).bind fun _ => calm_pure _).bind (f := fun variant =>
      visitVariant .positional _ variant 0) (fun variant => ?_) _
    rcases variant with name | index
    all_goals
      simp only [visitVariant]
      repeat' split
      all_goals rintro _ ⟨⟩
  refine (htag _).bind fun _ => ?_
  refine ((htag _).bind fun _ => calm_readVarint _).bind fun _ => Calm.bind ?_ fun _ => calm_pure _
  refine ((htag _).bind fun _ => calm_readVarint _).bind fun _ => Calm.bind ?_ fun _ => calm_pure _
  refine hkind.bind fun _ => Calm.bind ?_ fun _ => calm_pure _
  exact ((htag _).bind fun _ => calm_readBytes).bind fun _ => Calm.bind (calm_pure _) fun _ => calm_pure _

theorem decode_calm (bytes : Bytes) : decode bytes ≠ .error .panicked := by
  have h := calm_deserialize ⟨bytes, .new⟩
  rw [decode, fromPositionalBytes, fromBytesWithMode]
  rcases hrun : (deserialize .positional ty).exec ⟨bytes, .new⟩ with ⟨r | r, c⟩
  · rw [hrun] at h
    rintro heq
    cases heq
    exact h rfl
  · rw [finish]
    split <;> rintro ⟨⟩

end Envelope

/-! ## Compression codecs (`packages/ipc/src/compression.rs`) -/

inductive CompressionId where
  | none
  | zstd
  | lz4
  deriving DecidableEq, Repr

namespace CompressionId

def toByte : CompressionId → UInt8
  | .none => 0
  | .zstd => 1
  | .lz4 => 2

def fromByte (b : UInt8) : Option CompressionId :=
  match b with
  | 0 => some .none
  | 1 => some .zstd
  | 2 => some .lz4
  | _ => Option.none

theorem fromByte_toByte (id : CompressionId) : fromByte id.toByte = some id := by
  cases id <;> rfl

end CompressionId

inductive CompressionHint where
  | bulkPayload
  | frame
  deriving DecidableEq, Repr

inductive CompressionError where
  | decompressFailed (message : String)
  | unknownCodec (id : UInt8)
  deriving DecidableEq, Repr

structure CompressionCodec where
  id : CompressionId
  compress : Bytes → CompressionHint → Option Bytes
  decompress : Bytes → Except CompressionError Bytes
  threshold : CompressionHint → Nat

/-- The codecs compiled in by the features `compression-zstd` and `compression-lz4`. -/
structure Codecs where
  zstd : Option CompressionCodec
  lz4 : Option CompressionCodec

def decompressById (codecs : Codecs) (data : Bytes) (id : CompressionId) : Except CompressionError Bytes :=
  match id with
  | .none => .ok data
  | .zstd => match codecs.zstd with
    | some codec => codec.decompress data
    | none => .error (.unknownCodec id.toByte)
  | .lz4 => match codecs.lz4 with
    | some codec => codec.decompress data
    | none => .error (.unknownCodec id.toByte)

/-! ## Frames -/

def FRAME_LEN_BYTES : Nat := 4
def MAX_FRAME_PAYLOAD_SIZE : Nat := 8 * 1048576
def MAX_COMPRESSED_FRAME_SIZE : Nat := 16 * 1048576

inductive FrameEncodeError where
  | payloadTooLarge (actual max : Nat)
  | serialize (e : Codec.Error)
  deriving DecidableEq, Repr

/-- mirrors packages/ipc/src/frame.rs:35-56, the errors of incremental decoding -/
inductive FrameDecodeError where
  | payloadTooLarge (actual max : Nat)
  | unsupportedVersion (actual expected : UInt16)
  | decompress (e : CompressionError)
  | unknownCompression (id : UInt8)
  | deserialize (e : Codec.Error)
  deriving DecidableEq, Repr

variable (envelope : Envelope)

def checkEnvelopePayload : Except FrameEncodeError Unit :=
  if envelope.payload.val.length > MAX_FRAME_PAYLOAD_SIZE then
    .error (.payloadTooLarge envelope.payload.val.length MAX_FRAME_PAYLOAD_SIZE)
  else .ok ()

/-- The first lines of both encoders: an encoded envelope within the limit. -/
def encodePayload : Except FrameEncodeError Bytes := do
  checkEnvelopePayload envelope
  let payload ← (envelope.encode).mapError FrameEncodeError.serialize
  if payload.length > MAX_FRAME_PAYLOAD_SIZE then
    throw (.payloadTooLarge payload.length MAX_FRAME_PAYLOAD_SIZE)
  return payload

def encodeFrame : Except FrameEncodeError Bytes := do
  let payload ← encodePayload envelope
  if payload.length ≥ 2 ^ 32 then throw (.payloadTooLarge payload.length MAX_FRAME_PAYLOAD_SIZE)
  return leBytes FRAME_LEN_BYTES payload.length ++ payload

variable (codecs : Codecs) (frame : Bytes) (codec : Option CompressionCodec)

/-- The payload on the wire and the byte that says how it was compressed: only if
that is worth it. -/
def compressPayload (serialized : Bytes) : Bytes × UInt8 :=
  match codec with
  | some codec =>
    if serialized.length ≥ codec.threshold .frame then
      match codec.compress serialized .frame with
      | some compressed =>
        if compressed.length < serialized.length then (compressed, codec.id.toByte) else (serialized, 0)
      | none => (serialized, 0)
    else (serialized, 0)
  | none => (serialized, 0)

def encodeFrameCompressed : Except FrameEncodeError Bytes := do
  let serialized ← encodePayload envelope
  let (payloadBytes, compByte) := compressPayload codec serialized
  let totalLen := 1 + payloadBytes.length
  if totalLen ≥ 2 ^ 32 then throw (.payloadTooLarge totalLen MAX_COMPRESSED_FRAME_SIZE)
  return leBytes FRAME_LEN_BYTES totalLen ++ compByte :: payloadBytes

def framePayloadLen (bytes : Bytes) : Except FrameDecodeError (Option Nat) :=
  if bytes.length < FRAME_LEN_BYTES then .ok none
  else
    let payloadLen := ofLe (bytes.take FRAME_LEN_BYTES)
    if payloadLen > MAX_FRAME_PAYLOAD_SIZE then .error (.payloadTooLarge payloadLen MAX_FRAME_PAYLOAD_SIZE)
    else .ok (some payloadLen)

def deserializeFault : Fault Codec.Error → Fault FrameDecodeError
  | .panicked => .panicked
  | .error e => .error (.deserialize e)

def decodeEnvelopePayload (payload : Bytes) : Outcome FrameDecodeError Envelope := do
  let envelope ← (Envelope.decode payload).mapError deserializeFault
  if envelope.version ≠ CURRENT_PROTOCOL_VERSION then
    throw (.error (.unsupportedVersion envelope.version CURRENT_PROTOCOL_VERSION))
  return envelope

/-- mirrors packages/ipc/src/frame.rs:35-56, the errors of decoding one exact frame -/
inductive ExactDecodeError where
  | incompleteFrame
  | trailingBytes
  | frame (e : FrameDecodeError)
  deriving DecidableEq, Repr

def exactFault : Fault FrameDecodeError → Fault ExactDecodeError
  | .panicked => .panicked
  | .error e => .error (.frame e)

def decodeFrameExact : Outcome ExactDecodeError Envelope :=
  match framePayloadLen frame with
  | .error e => .error (.error (.frame e))
  | .ok none => .error (.error .incompleteFrame)
  | .ok (some payloadLen) =>
    let totalLen := FRAME_LEN_BYTES + payloadLen
    if frame.length < totalLen then .error (.error .incompleteFrame)
    else if frame.length > totalLen then .error (.error .trailingBytes)
    else (decodeEnvelopePayload ((frame.take totalLen).drop FRAME_LEN_BYTES)).mapError exactFault

def tryDecodeFrame (buffer : Bytes) : Outcome FrameDecodeError (Option Envelope) × Bytes :=
  match framePayloadLen buffer with
  | .error e => (.error (.error e), buffer)
  | .ok none => (.ok none, buffer)
  | .ok (some payloadLen) =>
    let totalLen := FRAME_LEN_BYTES + payloadLen
    if buffer.length < totalLen then (.ok none, buffer)
    else
      let payload := (buffer.take totalLen).drop FRAME_LEN_BYTES
      ((decodeEnvelopePayload payload).map some, buffer.drop totalLen)

/-- The payload of a compressed frame, decompressed as its byte says. -/
def decompressPayload (compByte : UInt8) (payloadBytes : Bytes) : Except FrameDecodeError Bytes :=
  match CompressionId.fromByte compByte with
  | some .none => .ok payloadBytes
  | some id => do
    let data ← (decompressById codecs payloadBytes id).mapError FrameDecodeError.decompress
    if data.length > MAX_FRAME_PAYLOAD_SIZE then throw (.payloadTooLarge data.length MAX_FRAME_PAYLOAD_SIZE)
    return data
  | none => .error (.unknownCompression compByte)

/-- mirrors packages/ipc/src/frame.rs:297-335. With `total_len = 0` the slice of the
payload would begin behind its end. -/
def tryDecodeFrameCompressed (buffer : Bytes) : Outcome FrameDecodeError (Option Envelope) × Bytes :=
  if buffer.length < FRAME_LEN_BYTES + 1 then (.ok none, buffer)
  else
    let totalLen := ofLe (buffer.take FRAME_LEN_BYTES)
    if totalLen > MAX_COMPRESSED_FRAME_SIZE then
      (.error (.error (.payloadTooLarge totalLen MAX_COMPRESSED_FRAME_SIZE)), buffer)
    else
      let expected := FRAME_LEN_BYTES + totalLen
      if buffer.length < expected then (.ok none, buffer)
      else if expected < FRAME_LEN_BYTES + 1 then (.error .panicked, buffer)
      else
        let compByte := buffer.getD FRAME_LEN_BYTES 0
        let payloadBytes := (buffer.take expected).drop (FRAME_LEN_BYTES + 1)
        let result := do
          let decompressed ← (decompressPayload codecs compByte payloadBytes).mapError Fault.error
          decodeEnvelopePayload decompressed
        (result.map some, buffer.drop expected)

/-- The last lines of both decoders of compressed frames, on the bytes of the frame. -/
def decodeCompressed : Outcome FrameDecodeError Envelope := do
  let compByte := frame.getD FRAME_LEN_BYTES 0
  let decompressed ← (decompressPayload codecs compByte (frame.drop (FRAME_LEN_BYTES + 1))).mapError Fault.error
  decodeEnvelopePayload decompressed

def decodeFrameCompressed : Outcome ExactDecodeError Envelope :=
  if frame.length < FRAME_LEN_BYTES + 1 then .error (.error .incompleteFrame)
  else
    let totalLen := ofLe (frame.take FRAME_LEN_BYTES)
    if totalLen > MAX_COMPRESSED_FRAME_SIZE then
      .error (.error (.frame (.payloadTooLarge totalLen MAX_COMPRESSED_FRAME_SIZE)))
    else
      let expected := FRAME_LEN_BYTES + totalLen
      if frame.length < expected then .error (.error .incompleteFrame)
      else if frame.length > expected then .error (.error .trailingBytes)
      else (decodeCompressed codecs (frame.take expected)).mapError exactFault

/-! ## One frame -/

variable {e : Envelope}

variable {payload body part buffer rest : Bytes}

theorem encodePayload_ok (h : encodePayload e = .ok payload) :
    e.encode = .ok payload ∧ payload.length ≤ MAX_FRAME_PAYLOAD_SIZE := by
  obtain ⟨-, -, h⟩ := bind_eq_ok.mp h
  obtain ⟨bytes, hencode, h⟩ := bind_eq_ok.mp h
  by_cases hlarge : bytes.length > MAX_FRAME_PAYLOAD_SIZE
  · rw [if_pos hlarge] at h
    cases h
  · rw [if_neg hlarge] at h
    cases h
    exact ⟨mapError_eq_ok.mp hencode, not_lt.mp hlarge⟩

variable {frame : Bytes}

theorem encodeFrame_ok (h : encodeFrame e = .ok frame) :
    ∃ payload, e.encode = .ok payload ∧ payload.length ≤ MAX_FRAME_PAYLOAD_SIZE ∧
      frame = leBytes FRAME_LEN_BYTES payload.length ++ payload := by
  obtain ⟨payload, hpayload, h⟩ := bind_eq_ok.mp h
  obtain ⟨hencode, hsize⟩ := encodePayload_ok hpayload
  refine ⟨payload, hencode, hsize, ?_⟩
  split at h
  · cases h
  · exact (Except.ok.inj h).symm

variable {codec : Option CompressionCodec}

theorem encodeFrameCompressed_ok (h : encodeFrameCompressed e codec = .ok frame) :
    ∃ serialized, e.encode = .ok serialized ∧ serialized.length ≤ MAX_FRAME_PAYLOAD_SIZE ∧
      frame = leBytes FRAME_LEN_BYTES (1 + (compressPayload codec serialized).1.length) ++
        (compressPayload codec serialized).2 :: (compressPayload codec serialized).1 := by
  obtain ⟨serialized, hpayload, h⟩ := bind_eq_ok.mp h
  obtain ⟨hencode, hsize⟩ := encodePayload_ok hpayload
  refine ⟨serialized, hencode, hsize, ?_⟩
  dsimp only at h
  split at h
  · cases h
  · exact (Except.ok.inj h).symm

theorem decodeEnvelopePayload_encode (h : e.encode = .ok payload)
    (hversion : e.version = CURRENT_PROTOCOL_VERSION) : decodeEnvelopePayload payload = .ok e := by
  rw [decodeEnvelopePayload, Envelope.decode_encode h]
  exact if_neg (not_not.mpr hversion)

theorem ofLe_take_frame {n : Nat} (hn : n < 256 ^ FRAME_LEN_BYTES)
    (hpart : part <+: leBytes FRAME_LEN_BYTES n ++ body) (hlen : FRAME_LEN_BYTES ≤ part.length) :
    ofLe (part.take FRAME_LEN_BYTES) = n := by
  have hlength := leBytes_length FRAME_LEN_BYTES n
  have hfirst : leBytes FRAME_LEN_BYTES n <+: part :=
    prefix_of_prefix_length_le (prefix_append _ _) hpart (by exact hlen)
  obtain ⟨rest, rfl⟩ := hfirst
  rw [take_left' hlength, ofLe_leBytes hn]

theorem framePayloadLen_frame {n : Nat} (hn : n ≤ MAX_FRAME_PAYLOAD_SIZE)
    (hpart : part <+: leBytes FRAME_LEN_BYTES n ++ body) (hlen : FRAME_LEN_BYTES ≤ part.length) :
    framePayloadLen part = .ok (some n) := by
  have hsmall : n < 256 ^ FRAME_LEN_BYTES := lt_of_le_of_lt hn (by decide)
  rw [framePayloadLen, if_neg (not_lt.mpr hlen), ofLe_take_frame hsmall hpart hlen]
  exact if_neg (not_lt.mpr hn)

theorem length_lt_of_strict (h : part <+: body) (hne : part ≠ body) : part.length < body.length :=
  h.length_le.lt_of_ne fun heq => hne (h.eq_of_length heq)

theorem map_some_ne_none {ε α : Type} {x : Except ε α} : x.map some ≠ .ok none := by
  cases x <;> exact nofun

theorem tryDecodeFrame_none (h : tryDecodeFrame buffer = (.ok none, rest)) : rest = buffer := by
  unfold tryDecodeFrame at h
  split at h
  · cases h
  · cases h; rfl
  · dsimp only at h
    split at h
    · cases h; rfl
    · exact absurd (congrArg Prod.fst h) map_some_ne_none

variable {codecs : Codecs}

/-- A frame of length `n`, which is not 0 and within the limit, is all there. -/
def Whole (buffer : Bytes) (n : Nat) : Prop :=
  n ≠ 0 ∧ n ≤ MAX_COMPRESSED_FRAME_SIZE ∧ FRAME_LEN_BYTES + n ≤ buffer.length

/-- A whole frame is taken off the buffer. Any other buffer stays as it is, to be waited for or refused. -/
theorem tryDecodeFrameCompressed_cases (codecs : Codecs) {n : Nat} (hn : ofLe (buffer.take FRAME_LEN_BYTES) = n) :
    (Whole buffer n ∧ tryDecodeFrameCompressed codecs buffer =
      ((decodeCompressed codecs (buffer.take (FRAME_LEN_BYTES + n))).map some, buffer.drop (FRAME_LEN_BYTES + n))) ∨
    ∃ r, tryDecodeFrameCompressed codecs buffer = (r, buffer) ∧ (∀ e, r ≠ .ok (some e)) ∧
      (r = .error .panicked → n = 0 ∧ FRAME_LEN_BYTES ≤ buffer.length) ∧
      (n ≠ 0 → FRAME_LEN_BYTES + n ≤ buffer.length → n > MAX_COMPRESSED_FRAME_SIZE ∧ ∃ f, r = .error (.error f)) := by
  rw [tryDecodeFrameCompressed, hn]
  dsimp only
  split_ifs with hshort hmax hpart hzero
  · exact .inr ⟨_, rfl, nofun, nofun, by omega⟩
  · exact .inr ⟨_, rfl, nofun, nofun, fun _ _ => ⟨hmax, _, rfl⟩⟩
  · exact .inr ⟨_, rfl, nofun, nofun, by omega⟩
  · exact .inr ⟨_, rfl, nofun, fun _ => by omega, by omega⟩
  · refine .inl ⟨⟨by omega, not_lt.mp hmax, not_lt.mp hpart⟩, ?_⟩
    rw [decodeCompressed, getD_eq_getElem?_getD (l := buffer.take _), getElem?_take_of_lt (by omega),
      ← getD_eq_getElem?_getD]

theorem tryDecodeFrameCompressed_none
    (h : tryDecodeFrameCompressed codecs buffer = (.ok none, rest)) : rest = buffer := by
  rcases tryDecodeFrameCompressed_cases codecs rfl with ⟨-, htaken⟩ | ⟨r, hr, -⟩
  · rw [htaken] at h
    exact absurd (congrArg Prod.fst h) map_some_ne_none
  · rw [hr] at h
    exact (congrArg Prod.snd h).symm

def frameDecoder : Decoder UInt8 Envelope (Fault FrameDecodeError) where
  next := tryDecodeFrame
  idle := rfl
  shrinks := by
    intro buffer a rest h
    unfold tryDecodeFrame at h
    split at h
    · cases h
    · cases h
    · dsimp only at h
      split at h
      · cases h
      · next hlen =>
        have hrest := congrArg Prod.snd h
        dsimp only at hrest
        rw [← hrest, List.length_drop]
        simp only [FRAME_LEN_BYTES] at hlen ⊢
        omega

def compressedFrameDecoder (codecs : Codecs) : Decoder UInt8 Envelope (Fault FrameDecodeError) where
  next := tryDecodeFrameCompressed codecs
  idle := rfl
  shrinks := by
    intro buffer a rest h
    rcases tryDecodeFrameCompressed_cases codecs rfl with ⟨⟨-, -, hlen⟩, htaken⟩ | ⟨r, hr, hnone, -⟩
    · rw [htaken] at h
      have hrest : buffer.drop _ = rest := congrArg Prod.snd h
      rw [← hrest, List.length_drop]
      simp only [FRAME_LEN_BYTES] at hlen ⊢
      omega
    · rw [hr] at h
      exact absurd (congrArg Prod.fst h) (hnone a)

/-- The frame of an envelope of the current version is one for the incremental decoder. -/
theorem encodeFrame_frames (hversion : e.version = CURRENT_PROTOCOL_VERSION)
    (h : encodeFrame e = .ok frame) : frameDecoder.Frames e frame := by
  obtain ⟨payload, hencode, hsize, rfl⟩ := encodeFrame_ok h
  have hlength := leBytes_length FRAME_LEN_BYTES payload.length
  constructor
  · intro rest
    have hlen : framePayloadLen (leBytes FRAME_LEN_BYTES payload.length ++ payload ++ rest) =
      .ok (some payload.length) := by
      rw [append_assoc]
      refine framePayloadLen_frame hsize prefix_rfl ?_
      simp
    have htotal : (leBytes FRAME_LEN_BYTES payload.length ++ payload).length = FRAME_LEN_BYTES + payload.length := by
      rw [length_append, hlength]
    change tryDecodeFrame _ = _
    rw [tryDecodeFrame, hlen]
    dsimp only
    rw [if_neg, take_left' htotal, drop_left' hlength, drop_left' htotal,
      decodeEnvelopePayload_encode hencode hversion]
    · rfl
    · rw [length_append]
      omega
  · intro part hpart hne
    have hshort := length_lt_of_strict hpart hne
    rw [length_append] at hshort
    change tryDecodeFrame part = _
    by_cases hheader : part.length < FRAME_LEN_BYTES
    · rw [tryDecodeFrame, framePayloadLen, if_pos hheader]
    · rw [tryDecodeFrame, framePayloadLen_frame hsize hpart (not_lt.mp hheader)]
      exact if_pos hshort

def CompressionCodec.Inverted (codecs : Codecs) (codec : CompressionCodec) : Prop :=
  ∀ data compressed, codec.compress data .frame = some compressed → decompressById codecs compressed codec.id = .ok data

/-- A payload is found again, whether it was compressed or not, and never grows. -/
theorem decompressPayload_compressPayload
    (hcodec : ∀ c ∈ codec, c.Inverted codecs) {serialized : Bytes}
    (hsize : serialized.length ≤ MAX_FRAME_PAYLOAD_SIZE) :
    decompressPayload codecs (compressPayload codec serialized).2 (compressPayload codec serialized).1 =
      .ok serialized ∧ (compressPayload codec serialized).1.length ≤ serialized.length := by
  have hplain : decompressPayload codecs 0 serialized = .ok serialized ∧ serialized.length ≤ serialized.length :=
    ⟨rfl, le_rfl⟩
  unfold compressPayload
  split
  · next c =>
    split
    · split
      · next compressed hcompress =>
        split
        · next hless =>
          refine ⟨?_, le_of_lt hless⟩
          have hdata := hcodec c rfl serialized compressed hcompress
          rw [decompressPayload, CompressionId.fromByte_toByte]
          split
          · next hid =>
            rw [Option.some.inj hid] at hdata
            exact congrArg Except.ok (Except.ok.inj hdata)
          · next id _ hid =>
            rw [← Option.some.inj hid, hdata]
            exact if_neg (not_lt.mpr hsize)
          · next hid => cases hid
        · exact hplain
      · exact hplain
    · exact hplain
  · exact hplain

/-- A frame within the limit is taken off the buffer, whichever compression it names. -/
theorem tryDecodeFrameCompressed_frame {compByte : UInt8} (hencode : e.encode = .ok payload)
    (hversion : e.version = CURRENT_PROTOCOL_VERSION) (hpayload : decompressPayload codecs compByte body = .ok payload)
    (hmax : 1 + body.length ≤ MAX_COMPRESSED_FRAME_SIZE) (rest : Bytes) :
    tryDecodeFrameCompressed codecs (leBytes FRAME_LEN_BYTES (1 + body.length) ++ compByte :: body ++ rest) =
      (.ok (some e), rest) := by
  have hlength := leBytes_length FRAME_LEN_BYTES (1 + body.length)
  have htotal : (leBytes FRAME_LEN_BYTES (1 + body.length) ++ compByte :: body).length =
    FRAME_LEN_BYTES + (1 + body.length) := by
    simp [add_comm body.length]
  have hlen : ofLe ((leBytes FRAME_LEN_BYTES (1 + body.length) ++ compByte :: body ++ rest).take FRAME_LEN_BYTES) =
      1 + body.length := by
    rw [append_assoc, take_left' hlength, ofLe_leBytes (lt_of_le_of_lt hmax (by decide))]
  have hread : decodeCompressed codecs (leBytes FRAME_LEN_BYTES (1 + body.length) ++ compByte :: body) = .ok e := by
    change (decompressPayload codecs compByte body).mapError Fault.error >>= decodeEnvelopePayload = _
    rw [hpayload]
    exact decodeEnvelopePayload_encode hencode hversion
  rcases tryDecodeFrameCompressed_cases codecs hlen with ⟨-, htaken⟩ | ⟨r, -, -, -, hrefused⟩
  · refine htaken.trans ?_
    rw [take_left' htotal, drop_left' htotal, hread]
    rfl
  · refine absurd (hrefused (by omega) ?_).1 (not_lt.mpr hmax)
    rw [length_append]
    omega

theorem encodeFrameCompressed_frames
    (hversion : e.version = CURRENT_PROTOCOL_VERSION) (hcodec : ∀ c ∈ codec, c.Inverted codecs)
    (h : encodeFrameCompressed e codec = .ok frame) : (compressedFrameDecoder codecs).Frames e frame := by
  obtain ⟨serialized, hencode, hsize, rfl⟩ := encodeFrameCompressed_ok h
  obtain ⟨hpayload, hle⟩ := decompressPayload_compressPayload hcodec hsize
  generalize compressPayload codec serialized = packed at hpayload hle ⊢
  obtain ⟨payload, compByte⟩ := packed
  dsimp only at hpayload hle ⊢
  have hmax : 1 + payload.length ≤ MAX_COMPRESSED_FRAME_SIZE := by
    simp only [MAX_FRAME_PAYLOAD_SIZE, MAX_COMPRESSED_FRAME_SIZE] at hsize ⊢
    omega
  refine ⟨tryDecodeFrameCompressed_frame hencode hversion hpayload hmax, fun part hpart hne => ?_⟩
  have hshort := length_lt_of_strict hpart hne
  rw [length_append, leBytes_length, length_cons, add_comm payload.length] at hshort
  change tryDecodeFrameCompressed codecs part = _
  by_cases hheader : part.length < FRAME_LEN_BYTES + 1
  · rw [tryDecodeFrameCompressed, if_pos hheader]
  · rw [tryDecodeFrameCompressed, if_neg hheader, ofLe_take_frame (lt_of_le_of_lt hmax (by decide)) hpart (by omega)]
    rw [if_neg (not_lt.mpr hmax), if_pos hshort]

/-! ## Any buffer -/

theorem decodeCompressed_calm (frame : Bytes) : decodeCompressed codecs frame ≠ .error .panicked := by
  rw [decodeCompressed]
  cases decompressPayload codecs _ _ with
  | error e => exact nofun
  | ok data =>
    have h := Envelope.decode_calm data
    change decodeEnvelopePayload data ≠ _
    rw [decodeEnvelopePayload]
    rcases hdecode : Envelope.decode data with (_ | e) | envelope
    · exact (h hdecode).elim
    · exact nofun
    · change (if _ then _ else _) ≠ _
      split <;> exact nofun

theorem decodeFrameCompressed_take {n : Nat} (hn : ofLe (buffer.take FRAME_LEN_BYTES) = n) (hone : n ≠ 0)
    (hlen : FRAME_LEN_BYTES + n ≤ buffer.length) : decodeFrameCompressed codecs (buffer.take (FRAME_LEN_BYTES + n)) =
      if n > MAX_COMPRESSED_FRAME_SIZE then .error (.error (.frame (.payloadTooLarge n MAX_COMPRESSED_FRAME_SIZE)))
      else (decodeCompressed codecs (buffer.take (FRAME_LEN_BYTES + n))).mapError exactFault := by
  have hlength : (buffer.take (FRAME_LEN_BYTES + n)).length = FRAME_LEN_BYTES + n := length_take_of_le hlen
  rw [decodeFrameCompressed, hlength, if_neg (by omega), take_take, min_eq_left (by omega), hn]
  simp [take_take]

def Agree (r : Outcome FrameDecodeError (Option Envelope)) (exact : Outcome ExactDecodeError Envelope) : Prop :=
  (∃ e, r = .ok (some e) ∧ exact = .ok e) ∨ ∃ f f', r = .error (.error f) ∧ exact = .error (.error f')

/-- A frame of length 0 is waited for, until a byte of the next one is there. -/
theorem tryDecodeFrameCompressed_zero (hn : ofLe (buffer.take FRAME_LEN_BYTES) = 0) :
    tryDecodeFrameCompressed codecs buffer =
      (if buffer.length < FRAME_LEN_BYTES + 1 then .ok none else .error .panicked, buffer) := by
  rw [tryDecodeFrameCompressed]
  dsimp only
  split_ifs <;> first | rfl | omega

/-- **Compressed frames of any content.** Exactly if the length in front is not 0, the decoder does not panic, takes
off the frame of that length or nothing, and agrees with the one for exact frames on a frame that is all there. -/
theorem compressed_frames_safe (codecs : Codecs) (buffer : Bytes) {n : Nat}
    (hn : ofLe (buffer.take FRAME_LEN_BYTES) = n) :
    (∃ r rest, tryDecodeFrameCompressed codecs buffer = (r, rest) ∧ r ≠ .error .panicked ∧
      (rest = buffer ∨ FRAME_LEN_BYTES + n ≤ buffer.length ∧ rest = buffer.drop (FRAME_LEN_BYTES + n)) ∧
      (FRAME_LEN_BYTES + n ≤ buffer.length →
        Agree r (decodeFrameCompressed codecs (buffer.take (FRAME_LEN_BYTES + n))))) ↔
    (FRAME_LEN_BYTES ≤ buffer.length → n ≠ 0) := by
  constructor
  · rintro ⟨r, rest, hrun, hcalm, -, hagree⟩ hlen rfl
    obtain ⟨rfl, -⟩ := Prod.mk.inj ((tryDecodeFrameCompressed_zero hn).symm.trans hrun)
    have h := hagree hlen
    split_ifs at h hcalm
    · rcases h with ⟨e, h, -⟩ | ⟨f, f', h, -⟩ <;> cases h
    · exact hcalm rfl
  intro hone
  rcases tryDecodeFrameCompressed_cases codecs hn with ⟨⟨hne, hmax, hlen⟩, htaken⟩ | ⟨r, hr, -, hpanic, hrefused⟩
  · refine ⟨_, _, htaken, ?_⟩
    rw [decodeFrameCompressed_take hn hne hlen, if_neg (not_lt.mpr hmax)]
    rcases hrun : decodeCompressed codecs _ with (_ | f) | e
    · exact (decodeCompressed_calm _ hrun).elim
    · exact ⟨nofun, .inr ⟨hlen, rfl⟩, fun _ => .inr ⟨f, _, rfl, rfl⟩⟩
    · exact ⟨nofun, .inr ⟨hlen, rfl⟩, fun _ => .inl ⟨e, rfl, rfl⟩⟩
  · refine ⟨r, _, hr, fun h => hone (hpanic h).2 (hpanic h).1, .inl rfl, fun hlen => ?_⟩
    have hne := hone (le_trans (Nat.le_add_right _ _) hlen)
    obtain ⟨hmax, f, rfl⟩ := hrefused hne hlen
    rw [decodeFrameCompressed_take hn hne hlen, if_pos hmax]
    exact .inr ⟨f, _, rfl, rfl⟩

theorem framePayloadLen_ok {n : Nat} (h : framePayloadLen frame = .ok (some n)) :
    ofLe (frame.take FRAME_LEN_BYTES) = n ∧ n ≤ MAX_FRAME_PAYLOAD_SIZE := by
  unfold framePayloadLen at h
  dsimp only at h
  split_ifs at h with hshort hmax
  · cases h
  · obtain rfl := Option.some.inj (Except.ok.inj h)
    exact ⟨rfl, not_lt.mp hmax⟩

theorem CompressionId.fromByte_none {b : UInt8} : fromByte b = some .none ↔ b = 0 := by
  unfold fromByte
  split <;> simp_all

/-- What is decompressed is bounded; what is not compressed is taken as it is. -/
theorem decompressPayload_bound {compByte : UInt8} {data : Bytes}
    (h : decompressPayload codecs compByte payload = .ok data) :
    data.length ≤ MAX_FRAME_PAYLOAD_SIZE ↔ compByte ≠ 0 ∨ payload.length ≤ MAX_FRAME_PAYLOAD_SIZE := by
  unfold decompressPayload at h
  split at h
  · next hid =>
    cases h
    simp [CompressionId.fromByte_none.mp hid]
  · next id hne hid =>
    obtain ⟨d, -, h⟩ := bind_eq_ok.mp h
    split at h
    · cases h
    · next hmax =>
      obtain rfl := Except.ok.inj h
      refine iff_of_true (not_lt.mp hmax) (.inl fun hzero => hne ?_)
      exact Option.some.inj (hid.symm.trans (CompressionId.fromByte_none.mpr hzero))
  · cases h

def firstFrame (buffer : Bytes) : Bytes := buffer.take (FRAME_LEN_BYTES + ofLe (buffer.take FRAME_LEN_BYTES))

/-- **The payload of an envelope is bounded.** Where a compressed frame says that it is not compressed, it is so
exactly if the frame is. -/
theorem payload_bound (codecs : Codecs) (buffer : Bytes) (e : Envelope) :
    ((tryDecodeFrame buffer).1 = .ok (some e) ∨ decodeFrameExact buffer = .ok e →
      ∃ payload, (firstFrame buffer).drop FRAME_LEN_BYTES = payload ∧ decodeEnvelopePayload payload = .ok e ∧
        payload.length ≤ MAX_FRAME_PAYLOAD_SIZE) ∧
    ((tryDecodeFrameCompressed codecs buffer).1 = .ok (some e) ∨ decodeFrameCompressed codecs buffer = .ok e →
      ∃ compByte payload, (firstFrame buffer).getD FRAME_LEN_BYTES 0 = compByte ∧
        decompressPayload codecs compByte ((firstFrame buffer).drop (FRAME_LEN_BYTES + 1)) = .ok payload ∧
        decodeEnvelopePayload payload = .ok e ∧
        (payload.length ≤ MAX_FRAME_PAYLOAD_SIZE ↔
          compByte ≠ 0 ∨ (firstFrame buffer).length ≤ FRAME_LEN_BYTES + 1 + MAX_FRAME_PAYLOAD_SIZE)) := by
  have hread {r : Outcome FrameDecodeError Envelope} :
      r.map some = .ok (some e) ∨ r.mapError exactFault = .ok e → r = .ok e := by
    rintro (h | h)
    · cases r <;> cases h
      rfl
    · exact mapError_eq_ok.mp h
  constructor
  · intro h
    rw [tryDecodeFrame, decodeFrameExact] at h
    rcases hlen : framePayloadLen buffer with f | _ | n <;> rw [hlen] at h <;> dsimp only at h
    · exact h.elim nofun nofun
    · exact h.elim nofun nofun
    · obtain ⟨rfl, hmax⟩ := framePayloadLen_ok hlen
      refine ⟨_, rfl, hread (h.imp (fun h => ?_) fun h => ?_), ?_⟩
      · split at h
        · cases h
        · exact h
      · split_ifs at h
        exact h
      · rw [firstFrame, length_drop, length_take]
        omega
  · intro h
    have hframe : decodeCompressed codecs (firstFrame buffer) = .ok e := by
      refine hread (h.imp (fun h => ?_) fun h => ?_)
      · rcases tryDecodeFrameCompressed_cases codecs rfl with ⟨-, htaken⟩ | ⟨r, hr, hnone, -⟩
        · rw [htaken] at h
          exact h
        · rw [hr] at h
          exact absurd h (hnone e)
      · rw [decodeFrameCompressed] at h
        dsimp only at h
        split_ifs at h
        exact h
    obtain ⟨payload, hpayload, henvelope⟩ := bind_eq_ok.mp hframe
    have hdata := mapError_eq_ok.mp hpayload
    refine ⟨_, _, rfl, hdata, henvelope, ?_⟩
    rw [decompressPayload_bound hdata, length_drop, Nat.sub_le_iff_le_add']

/-! ## Streams of frames -/

/-- Frames of envelopes of the current version, cut into chunks in any way, are
decoded to these envelopes in order with nothing left over; a call that yields
nothing leaves the buffer as it is. For compressed frames each one may have a
codec of its own, or none. -/
theorem frames_decode (codecs : Codecs) (sent : List (Envelope × Bytes)) (chunks : List Bytes)
    (hversion : ∀ p ∈ sent, p.1.version = CURRENT_PROTOCOL_VERSION)
    (hchunks : chunks.flatten = (sent.map Prod.snd).flatten) :
    ((∀ p ∈ sent, encodeFrame p.1 = .ok p.2) → frameDecoder.feed [] chunks = (.ok (sent.map Prod.fst), [])) ∧
    ((∀ p ∈ sent, ∃ codec : Option CompressionCodec, (∀ c ∈ codec, c.Inverted codecs) ∧
        encodeFrameCompressed p.1 codec = .ok p.2) →
      (compressedFrameDecoder codecs).feed [] chunks = (.ok (sent.map Prod.fst), [])) ∧
    (∀ buffer rest, tryDecodeFrame buffer = (.ok none, rest) → rest = buffer) ∧
    ∀ buffer rest, tryDecodeFrameCompressed codecs buffer = (.ok none, rest) → rest = buffer := by
  refine ⟨fun hframes => ?_, fun hframes => ?_, fun _ _ => tryDecodeFrame_none, fun _ _ =>
    tryDecodeFrameCompressed_none⟩
  · exact Decoder.feed_frames (fun p hp => encodeFrame_frames (hversion p hp) (hframes p hp)) hchunks
  · refine Decoder.feed_frames (fun p hp => ?_) hchunks
    obtain ⟨codec, hcodec, hframe⟩ := hframes p hp
    exact encodeFrameCompressed_frames (hversion p hp) hcodec hframe

namespace Sample
open Codec.Varint

def hello : Envelope := .new 7 .request ⟨[1, 2], by decide⟩
def helloFrame : Bytes := [6, 0, 0, 0, 4, 7, 0, 2, 1, 2]

def strip : CompressionCodec where
  id := .lz4
  compress data _ := if data.take 2 = [4, 7] then some (data.drop 2) else none
  decompress data := .ok (4 :: 7 :: data)
  threshold _ := 3

theorem strip_inverted : strip.Inverted ⟨none, some strip⟩ := by
  intro data compressed h
  simp only [strip] at h
  split at h
  · next hfront =>
    cases h
    change Except.ok ([4, 7] ++ data.drop 2) = _
    rw [← hfront, take_append_drop]
  · cases h

def packedFrame : Bytes := [5, 0, 0, 0, 2, 0, 2, 1, 2]

/-- Two plain frames cut inside the second header, and two compressed ones. -/
theorem hello_decoded :
    frameDecoder.feed [] [helloFrame ++ [6, 0], helloFrame.drop 2] = (.ok [hello, hello], []) ∧
    (compressedFrameDecoder ⟨none, some strip⟩).feed [] [packedFrame.take 3, packedFrame.drop 3 ++ packedFrame] =
      (.ok [hello, hello], []) := by
  constructor
  · refine (frames_decode ⟨none, none⟩ [(hello, helloFrame), (hello, helloFrame)]
      [helloFrame ++ [6, 0], helloFrame.drop 2] ?_ rfl).1 ?_
    · decide
    · decide +kernel
  · refine (frames_decode ⟨none, some strip⟩ [(hello, packedFrame), (hello, packedFrame)]
      [packedFrame.take 3, packedFrame.drop 3 ++ packedFrame] ?_ rfl).2.1 ?_
    · decide
    · have hencode : encodeFrameCompressed hello (some strip) = .ok packedFrame := by decide +kernel
      intro p hp
      refine ⟨some strip, ?_, ?_⟩
      · rintro c ⟨⟩
        exact strip_inverted
      · rcases mem_pair.mp hp with rfl | rfl
        · exact hencode
        · exact hencode

/-- The encoder accepts an envelope of another version and the decoder does not. -/
theorem other_version_rejected :
    encodeFrame { hello with version := 5 } = .ok [6, 0, 0, 0, 5, 7, 0, 2, 1, 2] ∧
      frameDecoder.feed [] [[6, 0, 0, 0, 5, 7, 0, 2, 1, 2]] = (.error (.error (.unsupportedVersion 5 4)), []) := by
  decide +kernel

theorem packed_safe : (tryDecodeFrameCompressed ⟨none, some strip⟩ packedFrame).1 ≠ .error .panicked := by
  have hsafe := compressed_frames_safe ⟨none, some strip⟩ packedFrame (n := 5) (by decide)
  obtain ⟨r, rest, h, hr, -⟩ := hsafe.mpr (by decide)
  rw [h]
  exact hr

/-- The slice behind the compression byte of a frame of length 0 ends before it begins. -/
theorem zero_length_panics : (tryDecodeFrameCompressed ⟨none, none⟩ [0, 0, 0, 0, 0]).1 = .error .panicked := rfl

/-- An envelope with as large a payload as the limit has some bytes more, and is read from a frame without
compression. -/
theorem uncompressed_unbounded : ∃ payload e, decodeEnvelopePayload payload = .ok e ∧
    payload.length > MAX_FRAME_PAYLOAD_SIZE ∧
    tryDecodeFrameCompressed ⟨none, none⟩ (leBytes FRAME_LEN_BYTES (1 + payload.length) ++ 0 :: payload) =
      (.ok (some e), []) := by
  have hlength : (replicate MAX_FRAME_PAYLOAD_SIZE (0 : UInt8)).length = MAX_FRAME_PAYLOAD_SIZE := length_replicate
  generalize replicate MAX_FRAME_PAYLOAD_SIZE (0 : UInt8) = data at hlength
  have hheader : [] ++ encodeU16 4 ++ encodeU64 7 ++ encodeU32 0 ++ encodeUsize (UInt64.ofNat MAX_FRAME_PAYLOAD_SIZE) =
      [4, 7, 0, 128, 128, 128, 4] := by decide +kernel
  have hfits : data.length < 2 ^ 64 := hlength ▸ (by decide : MAX_FRAME_PAYLOAD_SIZE < 2 ^ 64)
  have hencode : (Envelope.new 7 .request ⟨data, hfits⟩).encode = .ok ([4, 7, 0, 128, 128, 128, 4] ++ data) := by
    rw [← hheader, ← hlength]
    rfl
  refine ⟨_, _, decodeEnvelopePayload_encode hencode rfl, ?_, ?_⟩
  · rw [length_append, hlength]
    decide
  · rw [← append_nil (leBytes _ _ ++ _)]
    refine tryDecodeFrameCompressed_frame hencode rfl rfl ?_ []
    rw [length_append, hlength]
    decide

end Sample
end Bmux.Ipc
