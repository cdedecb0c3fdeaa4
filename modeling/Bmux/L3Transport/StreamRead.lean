import Bmux.Core.Run
import Bmux.L3Transport.CompressedStream

/-!
# What a read takes in and gives out

`held` is the part of a block the reader has collected, `input` that and all the
inner stream still has, `available` the decompressed data not served yet.
`ReadOutcome` says everything a call can do in these terms: wait, report the end,
serve data, or complete a block and serve from it. A block that decompresses to
nothing leaves the reader in the `Data` state with nothing to serve, which is
the `unreachable!()` arm.

`splitBlocks` says which whole blocks an inbound stream is made of and what is
left over. A block that does not decompress is never passed. Over runs of calls,
no call panics when no block up to such a one is empty, and a call reports the
end of the stream only at a block boundary when what is left over does not stop
inside a header (`read_safe`); `Sample.read_fails` shows what happens otherwise.
-/
namespace Bmux.Ipc
open Wire CompressedStream List

/-! ## Blocks on the wire -/

/-- A header and as many bytes as it announces. -/
structure RawBlock where
  header : Bytes
  body : Bytes
  size : header.length = BLOCK_HEADER_LEN
  fits : body.length = compressedLen header
  deriving DecidableEq, Repr

namespace RawBlock

def bytes (b : RawBlock) : Bytes := b.header ++ b.body

def decode (zstd : Zstd) (b : RawBlock) : Except String Bytes :=
  zstd.decompress b.body (uncompressedLen b.header)

def decodes (zstd : Zstd) (b : RawBlock) : Bool := (b.decode zstd).isOk

theorem length_bytes (b : RawBlock) : b.bytes.length = BLOCK_HEADER_LEN + b.body.length := by
  rw [bytes, length_append, b.size]

end RawBlock

variable (b : RawBlock) (blocks : List RawBlock)

def rawBytes : Bytes := (blocks.map RawBlock.bytes).flatten

theorem rawBytes_cons : rawBytes (b :: blocks) = b.bytes ++ rawBytes blocks := by
  simp [rawBytes]

theorem rawBytes_snoc (b : RawBlock) : rawBytes (blocks ++ [b]) = rawBytes blocks ++ b.bytes := by
  simp [rawBytes]

def frontBlock (stream : Bytes) : Option RawBlock :=
  let header := stream.take BLOCK_HEADER_LEN
  let body := (stream.drop BLOCK_HEADER_LEN).take (compressedLen header)
  if h : header.length = BLOCK_HEADER_LEN ∧ body.length = compressedLen header then
    some ⟨header, body, h.1, h.2⟩
  else none

variable (rest : Bytes)

theorem frontBlock_append : frontBlock (b.bytes ++ rest) = some b := by
  obtain ⟨header, body, size, fits⟩ := b
  have hheader : (header ++ body ++ rest).take BLOCK_HEADER_LEN = header := by
    simp [size]
  have hbody : ((header ++ body ++ rest).drop BLOCK_HEADER_LEN).take (compressedLen header) = body := by
    rw [append_assoc, ← size, drop_left, ← fits, take_left]
  simp [frontBlock, RawBlock.bytes, size, fits]

theorem length_of_frontBlock {stream : Bytes} {b : RawBlock} (h : frontBlock stream = some b) :
    BLOCK_HEADER_LEN ≤ stream.length := by
  simp only [frontBlock] at h
  split at h
  · next hsizes =>
    rw [length_take] at hsizes
    omega
  · cases h

/-- The whole blocks of a stream, and what is left over. -/
def splitBlocks (stream : Bytes) : List RawBlock × Bytes :=
  match _h : frontBlock stream with
  | none => ([], stream)
  | some b =>
    let (blocks, rest) := splitBlocks (stream.drop b.bytes.length)
    (b :: blocks, rest)
termination_by stream.length
decreasing_by
  have hstream := length_of_frontBlock _h
  have hblock := b.length_bytes
  simp only [BLOCK_HEADER_LEN] at hstream hblock
  rw [List.length_drop]
  omega

theorem splitBlocks_cons : splitBlocks (b.bytes ++ rest) = (b :: (splitBlocks rest).1, (splitBlocks rest).2) := by
  rw [splitBlocks]
  split
  · next h => rw [frontBlock_append] at h; cases h
  · next h =>
    rw [frontBlock_append] at h
    cases h
    rw [drop_left]

theorem splitBlocks_append : splitBlocks (rawBytes blocks ++ rest) =
    (blocks ++ (splitBlocks rest).1, (splitBlocks rest).2) := by
  induction blocks with
  | nil => rfl
  | cons b blocks ih => simp [rawBytes_cons, splitBlocks_cons, ih]

theorem splitBlocks_short {rest : Bytes} (h : rest.length < BLOCK_HEADER_LEN) : splitBlocks rest = ([], rest) := by
  rw [splitBlocks]
  split
  · rfl
  · next hfront => exact absurd (length_of_frontBlock hfront) (not_le.mpr h)

/-! ## One call -/

namespace CompressedStream

section
variable {S : Type}

variable (s : CompressedStream S)

def held : Bytes :=
  match s.readState with
  | .header => s.headerBuf
  | .block => s.headerBuf ++ s.blockBuf
  | .data => []

def available : Bytes :=
  match s.readState with
  | .data => s.readBuf.drop s.readPos
  | _ => []

def Shape : Prop :=
  match s.readState with
  | .header => s.headerBuf.length < BLOCK_HEADER_LEN
  | .block => s.headerBuf.length = BLOCK_HEADER_LEN ∧ s.blockCompressedLen = compressedLen s.headerBuf ∧
      s.blockUncompressedLen = uncompressedLen s.headerBuf ∧ s.blockBuf.length ≤ s.blockCompressedLen
  | .data => s.readPos < s.readBuf.length

end

def input (s : CompressedStream Pipe) : Bytes := s.held ++ s.inner.bytes

variable {capacity : Nat}

theorem pipe_read_ok {p p' : Pipe} {filled : Bytes}
    (h : AsyncRead.pollRead p capacity = (.ready (.ok filled), p')) :
    p.bytes = filled ++ p'.bytes ∧ filled.length ≤ capacity ∧ (0 < capacity → filled = [] → p.bytes = []) := by
  obtain ⟨bytes, schedule⟩ := p
  cases schedule with
  | nil => cases h
  | cons reply schedule =>
    cases reply with
    | ready n =>
      cases h
      refine ⟨(take_append_drop _ _).symm, ?_, ?_⟩
      · rw [length_take]
        omega
      · intro hpos hnil
        rcases take_eq_nil_iff.mp hnil with hzero | hbytes
        · omega
        · exact hbytes
    | pending | error => cases h

theorem pipe_read_other {p p' : Pipe} {r : ReadResult}
    (h : AsyncRead.pollRead p capacity = (r, p')) (hr : ∀ filled, r ≠ .ready (.ok filled)) : p'.bytes = p.bytes := by
  obtain ⟨bytes, schedule⟩ := p
  cases schedule with
  | nil => cases h; rfl
  | cons reply schedule =>
    cases reply with
    | ready n => cases h; exact absurd rfl (hr _)
    | pending | error => cases h; rfl

/-- The header loop moves bytes to the header: eight of them if it runs to its end,
fewer if it is cut short; it reports the end of the stream when there are no more. -/
theorem headerLoop_collects (s : CompressedStream Pipe) (hlen : s.headerBuf.length ≤ BLOCK_HEADER_LEN) :
    let (result, s') := headerLoop s
    s' = { s with inner := s'.inner, headerBuf := s'.headerBuf } ∧
      s'.headerBuf ++ s'.inner.bytes = s.headerBuf ++ s.inner.bytes ∧
      match result with
      | none => s'.headerBuf.length = BLOCK_HEADER_LEN
      | some r => s'.headerBuf.length < BLOCK_HEADER_LEN ∧
          ∀ filled, r = .ready (.ok filled) → filled = [] ∧ s'.inner.bytes = [] := by
  fun_induction headerLoop s with
  | case1 s hlt inner hread =>
    obtain ⟨hbytes, -, hend⟩ := pipe_read_ok hread
    have hempty := hend Nat.one_pos rfl
    rw [hempty, nil_append] at hbytes
    refine ⟨rfl, ?_, hlt, ?_⟩
    · rw [hempty, hbytes]
    · intro filled h
      cases h
      exact ⟨rfl, hbytes.symm⟩
  | case2 s hlt inner byte rest hread ih =>
    obtain ⟨hbytes, hcap, -⟩ := pipe_read_ok hread
    have hrest : rest = [] := by
      rw [length_cons] at hcap
      exact eq_nil_of_length_eq_zero (by omega)
    have hnext : (s.headerBuf ++ [byte]).length ≤ BLOCK_HEADER_LEN := by
      rw [length_append, length_singleton]
      omega
    obtain ⟨hsame, hmoved, hresult⟩ := ih hnext
    refine ⟨hsame, ?_, hresult⟩
    rw [hmoved, hbytes, hrest, append_assoc]
  | case3 s hlt e inner hread | case4 s hlt inner hread =>
    have hbytes := pipe_read_other hread (by simp)
    exact ⟨rfl, by rw [hbytes], hlt, fun _ h => (nomatch h)⟩
  | case5 s hge => exact ⟨rfl, rfl, le_antisymm hlen (not_lt.mp hge)⟩

theorem blockLoop_collects (s : CompressedStream Pipe) (hlen : s.blockBuf.length ≤ s.blockCompressedLen) :
    let (result, s') := blockLoop s
    s' = { s with inner := s'.inner, blockBuf := s'.blockBuf } ∧
      s'.blockBuf ++ s'.inner.bytes = s.blockBuf ++ s.inner.bytes ∧
      s'.blockBuf.length ≤ s.blockCompressedLen ∧
      match result with
      | none => s'.blockBuf.length = s.blockCompressedLen
      | some r => ∀ filled, r ≠ .ready (.ok filled) := by
  fun_induction blockLoop s with
  | case1 s hlt filled inner hread hzero =>
    have hnil := eq_nil_of_length_eq_zero hzero
    obtain ⟨hbytes, -, -⟩ := pipe_read_ok hread
    refine ⟨rfl, ?_, hlen, fun _ h => (nomatch h)⟩
    rw [hbytes, hnil, nil_append]
  | case2 s hlt filled inner hread hzero ih =>
    obtain ⟨hbytes, hcap, -⟩ := pipe_read_ok hread
    have hnext : (s.blockBuf ++ filled).length ≤ s.blockCompressedLen := by
      rw [length_append]
      omega
    obtain ⟨hsame, hmoved, hresult⟩ := ih hnext
    refine ⟨hsame, ?_, hresult⟩
    rw [hmoved, hbytes, append_assoc]
  | case3 s hlt e inner hread | case4 s hlt inner hread =>
    have hbytes := pipe_read_other hread (by simp)
    exact ⟨rfl, by rw [hbytes], hlen, fun _ h => (nomatch h)⟩
  | case5 s hge => exact ⟨rfl, rfl, hlen, le_antisymm hlen (not_lt.mp hge)⟩

/-- Serving takes bytes off the front of the data and touches nothing else. -/
structure Serves (s s' : CompressedStream Pipe) (capacity : Nat) (served : Bytes) : Prop where
  shape : s'.Shape
  inner : s'.inner = s.inner
  held : s'.held = []
  data : s.available = served ++ s'.available
  some : 0 < capacity → served ≠ []

variable {s : CompressedStream Pipe}

theorem readData_serves (hstate : s.readState = .data) (hpos : s.readPos < s.readBuf.length)
    (capacity : Nat) :
    ∃ served s', readData capacity s = some (.ready (.ok served), s') ∧ Serves s s' capacity served := by
  have havailable : s.available = s.readBuf.drop s.readPos := by rw [available, hstate]
  have hlen : (s.readBuf.drop s.readPos).length = s.readBuf.length - s.readPos := length_drop
  have hserved : 0 < capacity →
      (s.readBuf.drop s.readPos).take (min (s.readBuf.drop s.readPos).length capacity) ≠ [] := by
    intro hcap hnil
    rcases take_eq_nil_iff.mp hnil with hzero | hempty
    · omega
    · rw [hempty, length_nil] at hlen
      omega
  rw [readData, if_pos hpos]
  simp only
  split
  · next hdone =>
    refine ⟨_, _, rfl, ?_, rfl, rfl, ?_, hserved⟩
    · exact Nat.zero_lt_succ 7
    · rw [havailable, available, append_nil, take_of_length_le]
      omega
  · next hmore =>
    refine ⟨_, _, rfl, ?_, rfl, ?_, ?_, hserved⟩
    · simp only [Shape, hstate]
      omega
    · simp only [held, hstate]
    · simp [available, hstate]

/-- Everything a call can do. -/
inductive ReadOutcome (zstd : Zstd) (capacity : Nat) (s : CompressedStream Pipe) :
    Option (ReadResult × CompressedStream Pipe) → Prop where
  /-- Not ready, or an error; what was collected is kept. -/
  | waits {r : ReadResult} {s' : CompressedStream Pipe} (unready : ∀ filled, r ≠ .ready (.ok filled)) (shape : s'.Shape)
      (data : s.available = []) (data' : s'.available = []) (input : s'.input = s.input) :
      ReadOutcome zstd capacity s (some (r, s'))
  /-- The inner stream ended while a header was collected. -/
  | ended {s' : CompressedStream Pipe} (shape : s'.Shape) (state : s'.readState = .header)
      (exhausted : s'.inner.bytes = [])
      (data : s.available = []) (input : s'.input = s.input) :
      ReadOutcome zstd capacity s (some (.ready (.ok []), s'))
  /-- Data of a block decompressed earlier. -/
  | served {served : Bytes} {s' : CompressedStream Pipe} (state : s.readState = .data)
      (serves : Serves s s' capacity served) :
      ReadOutcome zstd capacity s (some (.ready (.ok served), s'))
  /-- A block was completed and the first of its data served. -/
  | decoded {t : CompressedStream Pipe} {served : Bytes} {s' : CompressedStream Pipe} (b : RawBlock)
      (data : s.available = [])
      (input : s.input = b.bytes ++ t.inner.bytes) (decode : b.decode zstd = .ok t.available)
      (serves : Serves t s' capacity served) :
      ReadOutcome zstd capacity s (some (.ready (.ok served), s'))
  /-- A block was completed that holds no data. -/
  | panicked (b : RawBlock) (rest : Bytes) (input : s.input = b.bytes ++ rest) (decode : b.decode zstd = .ok []) :
      ReadOutcome zstd capacity s none

/-- Collecting a block: it is decompressed once it is complete. -/
theorem readBlock_outcome (zstd : Zstd) (capacity : Nat) (hstate : s.readState = .block)
    (hshape : s.Shape) : ReadOutcome zstd capacity s (readBlock zstd capacity s) := by
  have hsaid := hshape
  simp only [Shape, hstate] at hsaid
  obtain ⟨hheader, hcomp, huncomp, hlen⟩ := hsaid
  have hdata : s.available = [] := by rw [available, hstate]
  have hloop := blockLoop_collects s hlen
  rw [readBlock]
  generalize blockLoop s = run at hloop ⊢
  obtain ⟨result, s'⟩ := run
  obtain ⟨hsame, hmoved, hle, hresult⟩ := hloop
  have hwaits : ∀ r : ReadResult, (∀ filled, r ≠ .ready (.ok filled)) → ReadOutcome zstd capacity s (some (r, s')) := by
    intro r hunready
    rw [hsame]
    refine .waits hunready ?_ hdata ?_ ?_
    · simp only [Shape, hstate]
      omega
    · simp only [available, hstate]
    · simp only [input, held, hstate, append_assoc, hmoved]
  cases result with
  | some r => exact hwaits r hresult
  | none =>
    -- the block the loop has completed
    let b : RawBlock := ⟨s.headerBuf, s'.blockBuf, hheader, hresult.trans hcomp⟩
    have hinput : s.input = b.bytes ++ s'.inner.bytes := by
      simp only [input, held, hstate, b, RawBlock.bytes, append_assoc, hmoved]
    have hcap : s'.blockUncompressedLen = uncompressedLen s.headerBuf := by
      rw [hsame]
      exact huncomp
    simp only
    split
    · next data hdecode =>
      have hb : b.decode zstd = .ok data := by
        rw [RawBlock.decode, ← hcap]
        exact hdecode
      by_cases hempty : data = []
      · rw [hempty] at hb ⊢
        exact .panicked b _ hinput hb
      · have hpos : 0 < data.length := length_pos_iff.mpr hempty
        let t : CompressedStream Pipe := { s' with readBuf := data, readPos := 0, readState := .data }
        obtain ⟨served, s'', hserve, hserves⟩ := readData_serves (s := t) rfl hpos capacity
        rw [hserve]
        exact .decoded (t := t) b hdata hinput hb hserves
    · exact hwaits _ fun _ h => nomatch h

theorem ReadOutcome.congr {zstd : Zstd} {t : CompressedStream Pipe} {o : Option (ReadResult × CompressedStream Pipe)}
    (h : ReadOutcome zstd capacity t o) (hinput : t.input = s.input) (hs : s.available = [])
    (ht : t.readState ≠ .data) :
    ReadOutcome zstd capacity s o := by
  cases h with
  | waits unready shape data data' input => exact .waits unready shape hs data' (input.trans hinput)
  | ended shape state exhausted data input => exact .ended shape state exhausted hs (input.trans hinput)
  | served state serves => exact absurd state ht
  | decoded b data input decode serves => exact .decoded b hs (hinput.symm.trans input) decode serves
  | panicked b rest input decode => exact .panicked b rest (hinput.symm.trans input) decode

/-- Collecting a header, and what comes behind it. -/
theorem readHeader_outcome (zstd : Zstd) (capacity : Nat) (hstate : s.readState = .header)
    (hshape : s.Shape) : ReadOutcome zstd capacity s (readHeader zstd capacity s) := by
  have hlt := hshape
  simp only [Shape, hstate] at hlt
  have hdata : s.available = [] := by rw [available, hstate]
  have hloop := headerLoop_collects s (le_of_lt hlt)
  rw [readHeader]
  split
  · next r s' hrun =>
    rw [hrun] at hloop
    obtain ⟨hsame, hmoved, hshort, hend⟩ := hloop
    have hstate' : s'.readState = .header := by rw [hsame]; exact hstate
    have hshape' : s'.Shape := by simpa only [Shape, hstate'] using hshort
    have hinput : s'.input = s.input := by simp only [input, held, hstate, hstate', hmoved]
    by_cases hready : ∃ filled, r = .ready (.ok filled)
    · obtain ⟨filled, rfl⟩ := hready
      obtain ⟨rfl, hexhausted⟩ := hend filled rfl
      exact .ended hshape' hstate' hexhausted hdata hinput
    · refine .waits (fun filled h => hready ⟨filled, h⟩) hshape' hdata ?_ hinput
      rw [available, hstate']
  · next s' hrun =>
    rw [hrun] at hloop
    obtain ⟨hsame, hmoved, hfull⟩ := hloop
    refine (readBlock_outcome zstd capacity rfl ?_).congr ?_ hdata (by simp)
    · exact ⟨hfull, rfl, rfl, zero_le⟩
    · simp only [input, held, hstate, append_nil, hmoved]

theorem pollRead_outcome (zstd : Zstd) (capacity : Nat) (hshape : s.Shape) :
    ReadOutcome zstd capacity s (pollRead zstd capacity s) := by
  rw [pollRead]
  split
  · next hstate => exact readHeader_outcome zstd capacity hstate hshape
  · next hstate => exact readBlock_outcome zstd capacity hstate hshape
  · next hstate =>
    have hpos := hshape
    simp only [Shape, hstate] at hpos
    obtain ⟨served, s', hserve, hserves⟩ := readData_serves hstate hpos capacity
    rw [hserve]
    exact .served hstate hserves

end CompressedStream

/-! ## Runs of the reading half -/

structure ReadCall where
  capacity : Nat
  schedule : List Reply
  deriving DecidableEq, Repr

namespace Reader
variable (zstd : Zstd)

variable (inbound : Bytes) (s : CompressedStream Pipe)

def read (call : ReadCall) : Option (ReadResult × CompressedStream Pipe) :=
  pollRead zstd call.capacity { s with inner := { s.inner with schedule := call.schedule } }

def step (call : ReadCall) : Option (CompressedStream Pipe) :=
  (read zstd s call).map Prod.snd

def new (level : Int) : CompressedStream Pipe := CompressedStream.new ⟨inbound, []⟩ level

/-- Whole blocks were taken off the inbound stream and decompressed; the rest is still in hand. -/
def Follows : Prop :=
  s.Shape ∧ ∃ blocks, (∀ b ∈ blocks, b.decodes zstd = true) ∧ inbound = rawBytes blocks ++ s.input

theorem follows_new (level : Int) : Follows zstd inbound (new inbound level) :=
  ⟨Nat.zero_lt_succ 7, [], nofun, rfl⟩

theorem read_outcome {inbound : Bytes} {s : CompressedStream Pipe} (h : Follows zstd inbound s) (call : ReadCall) :
    ∃ t : CompressedStream Pipe, t.input = s.input ∧ ReadOutcome zstd call.capacity t (read zstd s call) :=
  ⟨{ s with inner := { s.inner with schedule := call.schedule } }, rfl, pollRead_outcome zstd call.capacity h.1⟩

variable {zstd}

/-- A call takes the reader further along the inbound stream. -/
theorem follows_step {inbound : Bytes} {s s' : CompressedStream Pipe} {call : ReadCall} (h : Follows zstd inbound s)
    (hstep : step zstd s call = some s') : Follows zstd inbound s' := by
  obtain ⟨t, hinput, houtcome⟩ := read_outcome zstd h call
  obtain ⟨⟨r, s''⟩, hread, rfl⟩ := Option.map_eq_some_iff.mp hstep
  obtain ⟨hshape, blocks, hdecodes, hblocks⟩ := h
  rw [hread] at houtcome
  rw [← hinput] at hblocks
  cases houtcome with
  | waits unready shape data data' input => exact ⟨shape, blocks, hdecodes, by rw [input, hblocks]⟩
  | ended shape state exhausted data input => exact ⟨shape, blocks, hdecodes, by rw [input, hblocks]⟩
  | served state serves =>
    have hheld : t.held = [] := by rw [held, state]
    refine ⟨serves.shape, blocks, hdecodes, ?_⟩
    simp [hblocks, CompressedStream.input, hheld, serves.held, serves.inner]
  | decoded b data input decode serves =>
    have hb : b.decodes zstd = true := by rw [RawBlock.decodes, decode]; rfl
    refine ⟨serves.shape, blocks ++ [b], forall_mem_append.mpr ⟨hdecodes, forall_mem_singleton.mpr hb⟩, ?_⟩
    rw [hblocks, input, rawBytes_snoc, CompressedStream.input, serves.held, serves.inner, nil_append, append_assoc]

/-- After any calls: if no block of the inbound stream is empty, up to the first that
does not decompress, the next call does not panic. If the stream does not stop
inside a header, or some block of it does not decompress, then a call that fills
nothing into a buffer with room has come to the end of the stream, at the end of a
block. -/
theorem read_safe (zstd : Zstd) (level : Int) (inbound : Bytes) {s : CompressedStream Pipe}
    (hrun : Run (step zstd) (fun _ _ => True) (new inbound level) s) (call : ReadCall) :
    ((∀ b ∈ (splitBlocks inbound).1.takeWhile (·.decodes zstd), b.decode zstd ≠ .ok []) → (read zstd s call).isSome) ∧
    (((∀ b ∈ (splitBlocks inbound).1, b.decodes zstd = true) →
        (splitBlocks inbound).2 = [] ∨ BLOCK_HEADER_LEN ≤ (splitBlocks inbound).2.length) →
      ∀ s', read zstd s call = some (.ready (.ok []), s') → 0 < call.capacity →
        s'.inner.bytes = [] ∧ ∃ blocks, inbound = rawBytes blocks) := by
  have hfollows : Follows zstd inbound s :=
    hrun.invariant (fun _ _ _ h _ hstep => follows_step h hstep) (follows_new zstd inbound level)
  obtain ⟨t, hinput, houtcome⟩ := read_outcome zstd hfollows call
  obtain ⟨hshape, blocks, hdecodes, hblocks⟩ := hfollows
  rw [← hinput] at hblocks
  constructor
  · intro hdata
    cases hread : read zstd s call with
    | some result => rfl
    | none =>
      rw [hread] at houtcome
      cases houtcome with
      | panicked b rest input decode =>
        have hb : b ∈ (splitBlocks inbound).1.takeWhile (·.decodes zstd) := by
          rw [hblocks, input, splitBlocks_append, splitBlocks_cons, takeWhile_append_of_pos hdecodes]
          simp [RawBlock.decodes, decode, Except.isOk, Except.toBool]
        exact absurd decode (hdata b hb)
  · intro hrest s' hread hcap
    rw [hread] at houtcome
    cases houtcome with
    | waits unready shape data data' input => exact absurd rfl (unready [])
    | ended shape state exhausted data input =>
      -- the collected part of a header is what is left over
      have hheld : s'.held = s'.headerBuf := by rw [held, state]
      have hshort : s'.headerBuf.length < BLOCK_HEADER_LEN := by simpa only [Shape, state] using shape
      have hsplit : inbound = rawBytes blocks ++ s'.headerBuf := by
        rw [hblocks, ← input, CompressedStream.input, hheld, exhausted, append_nil]
      have hleft : splitBlocks inbound = (blocks, s'.headerBuf) := by
        rw [hsplit, splitBlocks_append, splitBlocks_short hshort, append_nil]
      rw [hleft] at hrest
      have hnil : s'.headerBuf = [] := (hrest hdecodes).resolve_right (not_le.mpr hshort)
      refine ⟨exhausted, blocks, ?_⟩
      rw [hsplit, hnil, append_nil]
    | served state serves => exact absurd rfl (serves.some hcap)
    | decoded b data input decode serves => exact absurd rfl (serves.some hcap)

end Reader

namespace Sample
open Reader Zstd

def inbound : Bytes := [1, 0, 0, 0, 1, 0, 0, 0, 7]

def calls : List ReadCall := [⟨5, [.ready 0, .pending]⟩, ⟨5, List.replicate 8 (.ready 3)⟩]

def afterBlock : CompressedStream Pipe :=
  { CompressedStream.new ⟨[], []⟩ 1 with blockBuf := [7], blockCompressedLen := 1, blockUncompressedLen := 1 }

/-- After the block the end of the stream is reported, at its end. -/
theorem inbound_ends :
    calls.foldlM (step stored) (new inbound 1) = some afterBlock ∧ (read stored afterBlock ⟨5, [.ready 0]⟩).isSome ∧
      read stored afterBlock ⟨5, [.ready 0]⟩ = some (.ready (.ok []), afterBlock) ∧
        ∃ blocks, inbound = rawBytes blocks := by
  have hcalls : calls.foldlM (step stored) (new inbound 1) = some afterBlock := by decide +kernel
  have hread : read stored afterBlock ⟨5, [.ready 0]⟩ = some (.ready (.ok []), afterBlock) := by decide +kernel
  obtain ⟨hsome, hend⟩ := read_safe stored 1 inbound (Run.of_foldlM hcalls fun _ _ => trivial) ⟨5, [.ready 0]⟩
  refine ⟨hcalls, hsome ?_, hread, (hend (fun _ => .inl ?_) afterBlock hread ?_).2⟩
  · decide +kernel
  · decide +kernel
  · decide

/-- Eight zero bytes are an empty block, and reading it panics. Three bytes are no
block at all, and after them the end of the stream is reported. -/
theorem read_fails :
    read stored (new (List.replicate 8 0) 1) ⟨5, List.replicate 8 (.ready 0)⟩ = none ∧
    (read stored (new [1, 0, 0] 1) ⟨5, List.replicate 4 (.ready 0)⟩).map Prod.fst = some (.ready (.ok [])) ∧
      ¬ ∃ blocks, [1, 0, 0] = rawBytes blocks := by
  refine ⟨by decide +kernel, by decide +kernel, ?_⟩
  rintro ⟨blocks, h⟩
  have hlen := congrArg List.length h
  cases blocks with
  | nil => cases h
  | cons b blocks =>
    rw [rawBytes_cons, length_append, b.length_bytes] at hlen
    simp only [BLOCK_HEADER_LEN, length_cons, length_nil] at hlen
    omega

end Sample
end Bmux.Ipc
