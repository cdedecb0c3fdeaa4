import Bmux.L3Transport.Frame
import Bmux.L3Transport.StreamRead
import Bmux.L3Transport.StreamWrite

/-!
# A writer and a reader over one pipe

`Link` is a `CompressedStream` that writes into a FIFO byte queue and another
one that reads from it. Every call comes with its own schedule, so the two
sides interleave, stall and move bytes in any portions.

`Carried` links the two machines. The blocks the writer made fall into those
the reader has decompressed and those it has not: the first ones are what was
delivered and what is still to be served, the others are, on the wire, the part
of a block the reader holds, the queue, and what the writer has not sent. Every
call keeps it (`carried_step`), hence what is delivered is always a first part
of what was accepted (`delivers_in_order`).
-/
namespace Bmux.Ipc
open Wire CompressedStream List Block Framing

/-! ## Blocks the reader gets back -/

def Block.Fits (b : Block) : Prop := b.plain.length < 2 ^ 32 ∧ b.compressed.length < 2 ^ 32

def Block.header (b : Block) : Bytes :=
  leBytes 4 (b.compressed.length % 2 ^ 32) ++ leBytes 4 (b.plain.length % 2 ^ 32)

theorem Block.header_length (b : Block) : b.header.length = BLOCK_HEADER_LEN := by
  rfl

variable {b : Block}

theorem Block.compressedLen_header (h : b.Fits) : compressedLen b.header = b.compressed.length := by
  rw [compressedLen, header, take_left' (leBytes_length _ _), ofLe_leBytes, Nat.mod_eq_of_lt h.2]
  exact Nat.mod_lt _ (by decide)

theorem Block.uncompressedLen_header (h : b.Fits) : uncompressedLen b.header = b.plain.length := by
  rw [uncompressedLen, header, drop_left' (leBytes_length _ _), take_of_length_le, ofLe_leBytes,
    Nat.mod_eq_of_lt h.1]
  · exact Nat.mod_lt _ (by decide)
  · rw [leBytes_length]

def Block.raw (b : Block) (h : b.Fits) : RawBlock where
  header := b.header
  body := b.compressed
  size := b.header_length
  fits := (compressedLen_header h).symm

theorem Block.raw_bytes (h : b.Fits) : (b.raw h).bytes = b.wire := rfl

/-- What is compressed decompresses to itself. -/
def Zstd.Lawful (zstd : Zstd) : Prop :=
  ∀ buf level compressed, zstd.compress buf level = .ok compressed → zstd.decompress compressed buf.length = .ok buf

theorem Block.decode_raw {zstd : Zstd} (hzstd : zstd.Lawful) {level : Int} (hmade : b.Made zstd level)
    (h : b.Fits) : (b.raw h).decode zstd = .ok b.plain := by
  change zstd.decompress b.compressed (uncompressedLen b.header) = _
  rw [uncompressedLen_header h]
  exact hzstd _ _ _ hmade.2

theorem front_of_wire {todo : List Block} {b : RawBlock} {rest : Bytes} (hfits : ∀ c ∈ todo, c.Fits)
    (h : wireBytes todo = b.bytes ++ rest) :
    ∃ c more, ∃ hc : c.Fits, todo = c :: more ∧ b = c.raw hc ∧ wireBytes more = rest := by
  cases todo with
  | nil =>
    have hlen := congrArg List.length h
    rw [length_append, b.length_bytes, BLOCK_HEADER_LEN] at hlen
    change 0 = _ at hlen
    omega
  | cons c more =>
    have hc := hfits c mem_cons_self
    rw [← singleton_append, wireBytes_append, wireBytes_single, ← raw_bytes hc] at h
    have hfront : some (c.raw hc) = some b := by
      rw [← frontBlock_append (c.raw hc) (wireBytes more), h, frontBlock_append]
    have hraw : b = c.raw hc := (Option.some.inj hfront).symm
    refine ⟨c, more, hc, rfl, hraw, ?_⟩
    rw [hraw] at h
    exact append_cancel_left h

/-! ## The two machines -/

structure Link where
  writer : CompressedStream Pipe
  reader : CompressedStream Pipe
  /-- The bytes between the two. -/
  pipe : Bytes
  accepted : Bytes
  delivered : Bytes
  deriving DecidableEq, Repr

inductive LinkCall where
  | write (buf : Bytes)
  | flush (schedule : List Reply)
  | shutdown (schedule : List Reply)
  | read (call : ReadCall)
  deriving DecidableEq, Repr

namespace Link
variable (zstd : Zstd)

def new (level level' : Int) : Link where
  writer := CompressedStream.new ⟨[], []⟩ level
  reader := CompressedStream.new ⟨[], []⟩ level'
  pipe := []
  accepted := []
  delivered := []

variable (l : Link) (schedule : List Reply)

def writing : CompressedStream Pipe :=
  { l.writer with inner := ⟨l.pipe, schedule⟩ }

def reading : CompressedStream Pipe :=
  { l.reader with inner := ⟨l.pipe, schedule⟩ }

def wrote (writer : CompressedStream Pipe) : Link :=
  { l with writer := writer, pipe := writer.inner.bytes }

def filled : ReadResult → Bytes
  | .ready (.ok bytes) => bytes
  | _ => []

theorem filled_of_unready {r : ReadResult} (h : ∀ bytes, r ≠ .ready (.ok bytes)) : filled r = [] := by
  unfold filled
  split
  · exact absurd rfl (h _)
  · rfl

def step : LinkCall → Option Link
  | .write buf => some { l with writer := (l.writer.pollWrite buf).2, accepted := l.accepted ++ buf }
  | .flush schedule => some (l.wrote (pollFlush zstd (l.writing schedule)).2)
  | .shutdown schedule => some (l.wrote (pollShutdown zstd (l.writing schedule)).2)
  | .read call =>
    (pollRead zstd call.capacity (l.reading call.schedule)).map fun (r, reader) =>
      { l with reader := reader, pipe := reader.inner.bytes, delivered := l.delivered ++ filled r }

/-- If the call compresses what is buffered, both lengths fit the block header. -/
def Fits : LinkCall → Prop
  | .flush _ | .shutdown _ => ∀ b, Written.Flushes zstd l.writer b → b.Fits
  | .write _ | .read _ => True

/-- The simulation invariant of the two machines. -/
structure Carried (done todo : List Block) : Prop where
  fits : ∀ b ∈ done ++ todo, b.Fits
  written : Written zstd l.writer l.accepted (wireBytes done ++ (l.reader.held ++ l.pipe)) (done ++ todo)
  shape : l.reader.Shape
  delivered : l.delivered ++ l.reader.available = plainBytes done

variable {zstd}

theorem carried_new (level level' : Int) : Carried zstd (new level level') [] [] where
  fits := fun _ h => (nomatch h)
  written := ⟨fun _ h => (nomatch h), rfl, rfl, le_rfl⟩
  shape := Nat.zero_lt_succ 7
  delivered := rfl

namespace Carried
variable {l : Link} {done todo : List Block}

section
variable (h : Carried zstd l done todo)
include h

theorem wire (schedule : List Reply) :
    wireBytes todo = (l.reading schedule).input ++ l.writer.unsent := by
  have hhanded := h.written.handed
  rw [wireBytes_append, append_assoc] at hhanded
  exact (append_cancel_left hhanded).symm

theorem made {b : Block} (hb : b ∈ todo) : b.Made zstd l.writer.level :=
  h.written.made b (mem_append_right _ hb)

/-- A call to the writer that keeps its account, each block it makes fitting. -/
theorem wrote {writer : CompressedStream Pipe} {sent : Bytes} {more : List Block}
    (hinner : writer.inner.bytes = l.pipe ++ sent) (hmore : ∀ b ∈ more, b.Fits)
    (hw : Written zstd writer l.accepted (wireBytes done ++ (l.reader.held ++ l.pipe) ++ sent) (done ++ todo ++ more)) :
    Carried zstd (l.wrote writer) done (todo ++ more) where
  fits := by
    rw [← append_assoc]
    exact forall_mem_append.mpr ⟨h.fits, hmore⟩
  written := by
    change Written zstd writer l.accepted (wireBytes done ++ (l.reader.held ++ writer.inner.bytes)) _
    rw [hinner, ← append_assoc, ← append_assoc, ← append_assoc]
    rw [← append_assoc] at hw
    exact hw
  shape := h.shape
  delivered := h.delivered

theorem writing (schedule : List Reply) :
    Written zstd (l.writing schedule) l.accepted (wireBytes done ++ (l.reader.held ++ l.pipe)) (done ++ todo) :=
  { h.written with }

theorem read_kept {reader : CompressedStream Pipe} {served : Bytes} {schedule : List Reply}
    (hshape : reader.Shape) (hinput : reader.input = (l.reading schedule).input)
    (hdata : l.reader.available = served ++ reader.available) :
    Carried zstd { l with
      reader := reader, pipe := reader.inner.bytes, delivered := l.delivered ++ served } done todo where
  fits := h.fits
  written := by
    have hsame : reader.held ++ reader.inner.bytes = l.reader.held ++ l.pipe := hinput
    rw [hsame]
    exact h.written
  shape := hshape
  delivered := by
    rw [append_assoc, ← hdata]
    exact h.delivered

end

theorem read_decoded (hzstd : zstd.Lawful) (h : Carried zstd l done todo) {b : RawBlock} {rest data : Bytes}
    {schedule : List Reply} (hinput : (l.reading schedule).input = b.bytes ++ rest)
    (hdecode : b.decode zstd = .ok data) :
    ∃ c more, todo = c :: more ∧ data = c.plain ∧ c.plain ≠ [] ∧ wireBytes more = rest ++ l.writer.unsent := by
  have hwire := h.wire schedule
  rw [hinput, append_assoc] at hwire
  obtain ⟨c, more, hc, rfl, rfl, hmore⟩ :=
    front_of_wire (fun c hc => h.fits c (mem_append_right _ hc)) hwire
  have hmade := h.made mem_cons_self
  rw [decode_raw hzstd hmade hc] at hdecode
  cases hdecode
  exact ⟨c, more, rfl, rfl, hmade.1, hmore⟩

theorem read_served (h : Carried zstd l done (c :: more)) {t reader : CompressedStream Pipe} {served : Bytes}
    {capacity : Nat} (hdata : l.reader.available = []) (hplain : t.available = c.plain)
    (hmore : wireBytes more = t.inner.bytes ++ l.writer.unsent) (hserves : Serves t reader capacity served) :
    Carried zstd { l with reader := reader, pipe := reader.inner.bytes, delivered := l.delivered ++ served }
      (done ++ [c]) more where
  fits := by
    rw [append_assoc]
    exact h.fits
  written := by
    rw [append_assoc]
    refine ⟨h.written.made, h.written.accepted, ?_, h.written.pos⟩
    rw [hserves.held, hserves.inner, nil_append, append_assoc, ← hmore, ← wireBytes_append, append_assoc]
  shape := hserves.shape
  delivered := by
    have hbefore := h.delivered
    rw [hdata, append_nil] at hbefore
    rw [plainBytes_append, plainBytes_single, append_assoc, ← hserves.data, hplain, hbefore]

end Carried

/-- A call to either side keeps the two machines in step. -/
theorem carried_step (hzstd : zstd.Lawful) {l l' : Link} {call : LinkCall} (hfits : Fits zstd l call)
    (h : ∃ done todo, Carried zstd l done todo) (hstep : step zstd l call = some l') :
    ∃ done todo, Carried zstd l' done todo := by
  obtain ⟨done, todo, h⟩ := h
  cases call with
  | write buf =>
    cases hstep
    exact ⟨done, todo, h.fits, h.written.write buf, h.shape, h.delivered⟩
  | flush schedule =>
    cases hstep
    obtain ⟨sent, more, hinner, hmore, hw⟩ := (h.writing schedule).flush
    exact ⟨done, todo ++ more, h.wrote hinner (fun b hb => hfits b (hmore b hb)) hw⟩
  | shutdown schedule =>
    cases hstep
    obtain ⟨sent, more, hinner, hmore, hw⟩ := (h.writing schedule).shutdown
    exact ⟨done, todo ++ more, h.wrote hinner (fun b hb => hfits b (hmore b hb)) hw⟩
  | read call =>
    obtain ⟨⟨r, reader⟩, hread, rfl⟩ := Option.map_eq_some_iff.mp hstep
    have houtcome := pollRead_outcome zstd call.capacity (s := l.reading call.schedule) h.shape
    rw [hread] at houtcome
    cases houtcome with
    | waits unready shape data data' input =>
      dsimp only
      rw [filled_of_unready unready]
      exact ⟨done, todo, h.read_kept shape input (data.trans data'.symm)⟩
    | ended shape state exhausted data input =>
      have hnone : reader.available = [] := by rw [available, state]
      exact ⟨done, todo, h.read_kept shape input (data.trans hnone.symm)⟩
    | served state serves =>
      have hheld : (l.reading call.schedule).held = [] := by rw [held, state]
      have hinput : reader.input = (l.reading call.schedule).input := by
        rw [input, input, serves.held, serves.inner, hheld]
      exact ⟨done, todo, h.read_kept serves.shape hinput serves.data⟩
    | decoded b data input decode serves =>
      obtain ⟨c, more, rfl, hplain, -, hmore⟩ := h.read_decoded hzstd input decode
      exact ⟨done ++ [c], more, h.read_served data hplain hmore serves⟩

/-- Over every interleaving: what the reader was given is a first part of what the
writer accepted, and no read panics. -/
theorem delivers_in_order (zstd : Zstd) (hzstd : zstd.Lawful) (level level' : Int) {l : Link}
    (hrun : Run (step zstd) (Fits zstd) (new level level') l) :
    l.delivered <+: l.accepted ∧ ∀ call, (step zstd l call).isSome := by
  obtain ⟨done, todo, h⟩ := hrun.invariant (I := fun l => ∃ done todo, Carried zstd l done todo)
    (fun _ _ _ h hfits hstep => carried_step hzstd hfits h hstep) ⟨[], [], carried_new level level'⟩
  constructor
  · have haccepted := h.written.accepted
    rw [plainBytes_append, ← h.delivered] at haccepted
    rw [haccepted, append_assoc, append_assoc]
    exact prefix_append _ _
  · intro call
    cases call with
    | write | flush | shutdown => rfl
    | read call =>
      rw [step, Option.isSome_map]
      have houtcome := pollRead_outcome zstd call.capacity (s := l.reading call.schedule) h.shape
      cases hread : pollRead zstd call.capacity (l.reading call.schedule) with
      | some result => rfl
      | none =>
        rw [hread] at houtcome
        cases houtcome with
        | panicked b rest input decode =>
          obtain ⟨c, more, -, hempty, hplain, -⟩ := h.read_decoded hzstd input decode
          exact absurd hempty.symm hplain

/-- Envelopes over the link: if the writer was given some first part of their frames, the bytes that
the reader was given are decoded to the first envelopes, with an incomplete frame left at most. -/
theorem delivers_envelopes (hzstd : zstd.Lawful) {level level' : Int} {l : Link}
    (hrun : Run (step zstd) (Fits zstd) (new level level') l) {sent : List (Envelope × Bytes)}
    (hsent : ∀ p ∈ sent, p.1.version = CURRENT_PROTOCOL_VERSION ∧ encodeFrame p.1 = .ok p.2)
    (haccepted : l.accepted <+: Decoder.wire sent) :
    ∃ done todo rest, sent = done ++ todo ∧ l.delivered = Decoder.wire done ++ rest ∧ Decoder.Waiting rest todo ∧
      frameDecoder.drain l.delivered = (.ok (done.map Prod.fst), rest) := by
  obtain ⟨blocks, _, h⟩ := hrun.invariant (I := fun l => ∃ done todo, Carried zstd l done todo)
    (fun _ _ _ h hfits hstep => carried_step hzstd hfits h hstep) ⟨[], [], carried_new level level'⟩
  have hdelivered : l.delivered <+: l.accepted := by
    rw [h.written.accepted, plainBytes_append, ← h.delivered, append_assoc, append_assoc]
    exact prefix_append _ _
  exact Decoder.drain_frames (fun p hp => encodeFrame_frames (hsent p hp).1 (hsent p hp).2) (hdelivered.trans haccepted)

end Link

namespace Sample
open Link Zstd

theorem stored_lawful : stored.Lawful := by
  intro buf level compressed h
  cases h
  exact if_pos le_rfl

def wire (plain : Bytes) : Bytes := (⟨plain, plain⟩ : Block).header ++ plain

def written (plain : Bytes) : Link :=
  { Link.new 1 1 with writer := { CompressedStream.new ⟨[], []⟩ 1 with writeBuf := plain }, accepted := plain }

def flushed (plain : Bytes) : Link :=
  { written plain with
    writer := { CompressedStream.new ⟨wire plain, []⟩ 1 with
      writeOut := wire plain, writeOutPos := (wire plain).length }
    pipe := wire plain }

def read : Link :=
  { flushed [1, 2, 3] with
    reader := { CompressedStream.new ⟨[], []⟩ 1 with
      readBuf := [1, 2, 3]
      readPos := 2
      headerBuf := (wire [1, 2, 3]).take BLOCK_HEADER_LEN
      readState := .data
      blockBuf := [1, 2, 3]
      blockCompressedLen := 3
      blockUncompressedLen := 3 }
    pipe := []
    delivered := [1, 2] }

def helloRead : Link :=
  { flushed helloFrame with
    reader := { CompressedStream.new ⟨[], []⟩ 1 with
      blockBuf := helloFrame
      blockCompressedLen := 10
      blockUncompressedLen := 10 }
    pipe := []
    delivered := helloFrame }

theorem run_read (plain : Bytes) (n : Nat) {l : Link} (hplain : plain.length < 2 ^ 32)
    (hwrite : step stored (new 1 1) (.write plain) = some (written plain))
    (hflush : step stored (written plain) (.flush [.ready 99, .ready 0]) = some (flushed plain))
    (hread : step stored (flushed plain) (.read ⟨n, List.replicate 9 (.ready 99)⟩) = some l) :
    Run (step stored) (Fits stored) (new 1 1) l := by
  have hfits : Fits stored (written plain) (.flush [.ready 99, .ready 0]) := by
    rintro ⟨p, compressed⟩ ⟨⟨-, hmade⟩, hp, -⟩
    cases hmade
    subst hp
    exact ⟨hplain, hplain⟩
  refine Run.tail (i := .read ⟨n, List.replicate 9 (.ready 99)⟩) (t := flushed plain) ?_ trivial hread
  refine Run.tail (t := written plain) ?_ hfits hflush
  exact Run.tail (i := .write plain) (Run.refl _) trivial hwrite

/-- Three bytes are written and flushed, and two of them read. -/
theorem read_delivered :
    Run (step stored) (Fits stored) (new 1 1) read ∧ read.delivered <+: read.accepted ∧
      ∀ call, (step stored read call).isSome := by
  have hrun : Run (step stored) (Fits stored) (new 1 1) read :=
    run_read [1, 2, 3] 2 (by decide) rfl (by decide +kernel) (by decide +kernel)
  exact ⟨hrun, delivers_in_order stored stored_lawful 1 1 hrun⟩

/-- The frame of `hello` is written, flushed, read and decoded. -/
theorem hello_delivered : ∃ done todo rest, [(hello, helloFrame)] = done ++ todo ∧
    helloRead.delivered = Decoder.wire done ++ rest ∧ Decoder.Waiting rest todo ∧
      frameDecoder.drain helloRead.delivered = (.ok (done.map Prod.fst), rest) ∧ done.map Prod.fst = [hello] := by
  have hrun : Run (step stored) (Fits stored) (new 1 1) helloRead :=
    run_read helloFrame 10 (by decide) rfl (by decide +kernel) (by decide +kernel)
  have hdecoded : frameDecoder.drain helloRead.delivered = (.ok [hello], []) := by decide +kernel
  have hencoded : ∀ p ∈ [(hello, helloFrame)], p.1.version = CURRENT_PROTOCOL_VERSION ∧ encodeFrame p.1 = .ok p.2 := by
    decide +kernel
  obtain ⟨done, todo, rest, hsent, hwire, hwaiting, hdrain⟩ :=
    delivers_envelopes stored_lawful hrun hencoded (prefix_refl _)
  exact ⟨done, todo, rest, hsent, hwire, hwaiting, hdrain, Except.ok.inj (Prod.mk.inj (hdrain.symm.trans hdecoded)).1⟩

end Sample
end Bmux.Ipc
