import Bmux.Core.Run
import Bmux.L3Transport.CompressedStream

/-!
# What a flush hands over

`Written` is the account of the writing half that every call keeps: the bytes
accepted so far are those of the blocks made so far followed by `write_buf`,
and the blocks' wire bytes are those the inner stream has been handed followed
by the unsent rest of `write_out`.

A flush that is `Pending` leaves a block half out. If more data is written
before it is resumed, the resumed flush finishes the old block, finds it should
not have compressed the new data, and reports success all the same; a shutdown
with an empty `write_buf` does not resume the flush at all
(`Sample.flush_leaves_data`). With nothing written and no shutdown between a
`Pending` flush and its end, success means that everything is out
(`flush_completes`).
-/
namespace Bmux.Ipc
open Wire List

/-! ## One call -/

structure Block where
  plain : Bytes
  compressed : Bytes
  deriving DecidableEq, Repr

variable (blocks more : List Block) (b : Block)

def Block.wire : Bytes := blockBytes b.compressed b.plain.length

/-- The block is what zstd makes of a non-empty buffer. -/
def Block.Made (zstd : Zstd) (level : Int) (b : Block) : Prop :=
  b.plain ≠ [] ∧ zstd.compress b.plain level = .ok b.compressed

def plainBytes (blocks : List Block) : Bytes := (blocks.map Block.plain).flatten
def wireBytes (blocks : List Block) : Bytes := (blocks.map Block.wire).flatten

theorem plainBytes_append : plainBytes (blocks ++ more) = plainBytes blocks ++ plainBytes more := by
  simp [plainBytes]

theorem wireBytes_append : wireBytes (blocks ++ more) = wireBytes blocks ++ wireBytes more := by
  simp [wireBytes]

@[simp] theorem plainBytes_single : plainBytes [b] = b.plain := append_nil _
@[simp] theorem wireBytes_single : wireBytes [b] = b.wire := append_nil _

namespace CompressedStream

def unsent {S : Type} (s : CompressedStream S) : Bytes := s.writeOut.drop s.writeOutPos

/-- From `s` to `s'` the inner stream accepted a first part of what was unsent, and
nothing else of the stream changed. -/
structure Hands (s s' : CompressedStream Pipe) (sent : Bytes) : Prop where
  same : s' = { s with inner := s'.inner, writeOutPos := s'.writeOutPos }
  inner : s'.inner.bytes = s.inner.bytes ++ sent
  unsent : s.unsent = sent ++ s'.unsent
  pos : s'.writeOutPos = s.writeOutPos + sent.length

variable {s : CompressedStream Pipe}

theorem Hands.of_inner {inner : Pipe} (h : inner.bytes = s.inner.bytes) :
    Hands s { s with inner := inner } [] where
  same := rfl
  inner := by rw [append_nil]; exact h
  unsent := rfl
  pos := rfl

theorem Hands.trans {s' s'' : CompressedStream Pipe} {sent sent' : Bytes} (h : Hands s s' sent)
    (h' : Hands s' s'' sent') : Hands s s'' (sent ++ sent') where
  same := by
    have := h'.same
    rw [h.same] at this
    exact this
  inner := by rw [h'.inner, h.inner, append_assoc]
  unsent := by rw [h.unsent, h'.unsent, append_assoc]
  pos := by rw [h'.pos, h.pos, length_append, add_assoc]

theorem pipe_write_ok {p p' : Pipe} {buf : Bytes} {n : Nat}
    (h : AsyncWrite.pollWrite p buf = (.ready (.ok n), p')) :
    n ≤ buf.length ∧ p'.bytes = p.bytes ++ buf.take n := by
  obtain ⟨bytes, schedule⟩ := p
  cases schedule with
  | nil => cases h
  | cons reply schedule =>
    cases reply with
    | ready m =>
      cases h
      exact ⟨min_le_right _ _, rfl⟩
    | pending | error => cases h

theorem pipe_write_other {p p' : Pipe} {buf : Bytes} {r : Poll (Except IoError Nat)}
    (h : AsyncWrite.pollWrite p buf = (r, p')) (hr : ∀ n, r ≠ .ready (.ok n)) : p'.bytes = p.bytes := by
  obtain ⟨bytes, schedule⟩ := p
  cases schedule with
  | nil => cases h; rfl
  | cons reply schedule =>
    cases reply with
    | ready m => cases h; exact absurd rfl (hr _)
    | pending | error => cases h; rfl

theorem pipe_signal (p : Pipe) : p.signal.2.bytes = p.bytes := by
  obtain ⟨bytes, schedule⟩ := p
  cases schedule with
  | nil => rfl
  | cons reply schedule => cases reply <;> rfl

/-- The loop hands over a first part of what was unsent; all of it when it runs to its end. -/
theorem writeOutLoop_hands (s : CompressedStream Pipe) :
    (∃ sent, Hands s (writeOutLoop s).2 sent) ∧ (writeOutLoop s).1 ≠ some (.ready (.ok ())) ∧
      ((writeOutLoop s).1 = none → (writeOutLoop s).2.unsent = []) := by
  fun_induction writeOutLoop s with
  | case1 s hlt inner hwrite =>
    have hsame := pipe_write_ok hwrite
    refine ⟨⟨[], Hands.of_inner ?_⟩, by simp, by simp⟩
    simpa using hsame.2
  | case2 s hlt n inner hwrite hn ih =>
    obtain ⟨hle, hbytes⟩ := pipe_write_ok hwrite
    obtain ⟨⟨sent, hands⟩, hrest⟩ := ih
    have hfirst : Hands s { s with inner := inner, writeOutPos := s.writeOutPos + n } (s.unsent.take n) := by
      refine ⟨rfl, hbytes, ?_, ?_⟩
      · simp [unsent]
      · rw [unsent, length_take_of_le hle]
    exact ⟨⟨_, hfirst.trans hands⟩, hrest⟩
  | case3 s hlt e inner hwrite | case4 s hlt inner hwrite =>
    have hsame := pipe_write_other hwrite (by simp)
    exact ⟨⟨[], Hands.of_inner hsame⟩, by simp, by simp⟩
  | case5 s hge =>
    refine ⟨⟨[], Hands.of_inner rfl⟩, by simp, fun _ => ?_⟩
    exact drop_eq_nil_of_le (not_lt.mp hge)

theorem unsent_eq_nil {S : Type} {s : CompressedStream S} : s.unsent = [] ↔ s.writeOutPos ≥ s.writeOut.length := by
  rw [unsent, drop_eq_nil_iff]

/-- Either nothing is compressed, or all that is buffered becomes the next block. -/
theorem compressBuffered_ok {S : Type} {zstd : Zstd} {s s₁ : CompressedStream S}
    (h : compressBuffered zstd s = .ok s₁) : (s₁ = s ∧ (s.writeBuf = [] ∨ s.unsent ≠ [])) ∨
      ∃ b : Block, b.Made zstd s.level ∧ b.plain = s.writeBuf ∧ s.unsent = [] ∧
        s₁ = { s with writeOut := b.wire, writeOutPos := 0, writeBuf := [] } := by
  unfold compressBuffered at h
  split at h
  · next hcond =>
    split at h
    · cases h
    · next compressed hcompress =>
      cases h
      exact .inr ⟨⟨s.writeBuf, compressed⟩, ⟨hcond.1, hcompress⟩, rfl, unsent_eq_nil.mpr hcond.2, rfl⟩
  · next hcond =>
    cases h
    refine .inl ⟨rfl, ?_⟩
    rw [← unsent_eq_nil, not_and_or, not_not] at hcond
    exact hcond

/-- A flush fails to compress, or compresses what it should and hands over a first
part of what is then unsent: all of it when it reports success. -/
theorem pollFlush_spec (zstd : Zstd) (s : CompressedStream Pipe) :
    (∃ e, pollFlush zstd s = (.ready (.error e), s)) ∨
      ∃ s₁ sent, compressBuffered zstd s = .ok s₁ ∧ Hands s₁ (pollFlush zstd s).2 sent ∧
        ((pollFlush zstd s).1 = .ready (.ok ()) → (pollFlush zstd s).2.unsent = []) := by
  unfold pollFlush
  cases hc : compressBuffered zstd s with
  | error e => exact .inl ⟨e, rfl⟩
  | ok s₁ =>
    obtain ⟨⟨sent, hands⟩, hnot, hdone⟩ := writeOutLoop_hands s₁
    refine .inr ⟨s₁, sent, rfl, ?_⟩
    dsimp only
    split
    · next result s₂ hloop =>
      rw [hloop] at hands hnot
      exact ⟨hands, fun hok => absurd (congrArg some hok) hnot⟩
    · next s₂ hloop =>
      rw [hloop] at hands hdone
      have hflush : Hands s₂ { s₂ with inner := s₂.inner.signal.2 } [] := Hands.of_inner (pipe_signal s₂.inner)
      have hall := hands.trans hflush
      rw [append_nil] at hall
      exact ⟨hall, fun _ => hdone rfl⟩

/-- With nothing buffered or nothing unsent, a successful flush leaves neither. -/
theorem pollFlush_empties {zstd : Zstd} (h : s.writeBuf = [] ∨ s.unsent = [])
    (hok : (pollFlush zstd s).1 = .ready (.ok ())) :
    (pollFlush zstd s).2.writeBuf = [] ∧ (pollFlush zstd s).2.unsent = [] := by
  rcases pollFlush_spec zstd s with ⟨e, he⟩ | ⟨s₁, sent, hc, hh, hdone⟩
  · rw [he] at hok
    cases hok
  · refine ⟨?_, hdone hok⟩
    have hbuf : (pollFlush zstd s).2.writeBuf = s₁.writeBuf := by rw [hh.same]
    rw [hbuf]
    rcases compressBuffered_ok hc with ⟨rfl, hskip⟩ | ⟨b, -, -, -, rfl⟩
    · rcases h with h | h
      · exact h
      · exact hskip.resolve_right (not_not.mpr h)
    · rfl

end CompressedStream

/-! ## The account of a run -/

open CompressedStream in
/-- What has been accepted and what has been handed over, in terms of the blocks made. -/
structure Written (zstd : Zstd) (s : CompressedStream Pipe) (accepted handed : Bytes) (blocks : List Block) : Prop where
  made : ∀ b ∈ blocks, b.Made zstd s.level
  accepted : accepted = plainBytes blocks ++ s.writeBuf
  handed : handed ++ s.unsent = wireBytes blocks
  pos : s.writeOutPos ≤ s.writeOut.length

namespace Written
open CompressedStream
variable {zstd : Zstd} {s s' : CompressedStream Pipe} {accepted handed : Bytes} {blocks : List Block}

theorem write (h : Written zstd s accepted handed blocks) (buf : Bytes) :
    Written zstd (s.pollWrite buf).2 (accepted ++ buf) handed blocks where
  made := h.made
  accepted := by
    change _ = plainBytes blocks ++ (s.writeBuf ++ buf)
    rw [h.accepted, append_assoc]
  handed := h.handed
  pos := h.pos

variable (zstd) in
def Flushes (s : CompressedStream Pipe) (b : Block) : Prop :=
  b.Made zstd s.level ∧ b.plain = s.writeBuf ∧ s.unsent = []

section
variable (h : Written zstd s accepted handed blocks)
include h

theorem compress (hc : compressBuffered zstd s = .ok s') :
    ∃ more, (∀ b ∈ more, Flushes zstd s b) ∧ Written zstd s' accepted handed (blocks ++ more) := by
  rcases compressBuffered_ok hc with ⟨rfl, -⟩ | ⟨b, hmade, hplain, hunsent, rfl⟩
  · refine ⟨[], fun _ hb => (nomatch hb), ?_⟩
    rw [append_nil]
    exact h
  · refine ⟨[b], forall_mem_singleton.mpr ⟨hmade, hplain, hunsent⟩, ⟨?_, ?_, ?_, zero_le⟩⟩
    · exact forall_mem_append.mpr ⟨h.made, forall_mem_singleton.mpr hmade⟩
    · rw [plainBytes_append, plainBytes_single, hplain, append_nil]
      exact h.accepted
    · have hold := h.handed
      rw [hunsent, append_nil] at hold
      rw [wireBytes_append, wireBytes_single, hold]
      rfl

theorem hands {sent : Bytes} (hh : Hands s s' sent) :
    Written zstd s' accepted (handed ++ sent) blocks where
  made := by
    rw [hh.same]
    exact h.made
  accepted := by
    rw [hh.same]
    exact h.accepted
  handed := by
    rw [append_assoc, ← hh.unsent]
    exact h.handed
  pos := by
    have hlen := congrArg List.length hh.unsent
    have hout : s'.writeOut = s.writeOut := by rw [hh.same]
    have hpos := hh.pos
    have hle := h.pos
    rw [length_append, unsent, unsent, length_drop] at hlen
    rw [hout] at hlen ⊢
    omega

theorem flush :
    ∃ sent more, (pollFlush zstd s).2.inner.bytes = s.inner.bytes ++ sent ∧ (∀ b ∈ more, Flushes zstd s b) ∧
      Written zstd (pollFlush zstd s).2 accepted (handed ++ sent) (blocks ++ more) := by
  rcases pollFlush_spec zstd s with ⟨e, he⟩ | ⟨s₁, sent, hc, hh, -⟩
  · refine ⟨[], [], ?_, fun _ hb => (nomatch hb), ?_⟩
    · rw [he, append_nil]
    · rw [he, append_nil, append_nil]
      exact h
  · obtain ⟨more, hmore, h₁⟩ := h.compress hc
    have hinner : s₁.inner = s.inner := by
      rcases compressBuffered_ok hc with ⟨rfl, -⟩ | ⟨b, -, -, -, rfl⟩ <;> rfl
    refine ⟨sent, more, ?_, hmore, h₁.hands hh⟩
    rw [hh.inner, hinner]

theorem signal {inner : Pipe} (hi : inner.bytes = s.inner.bytes) :
    Written zstd { s with inner := inner } accepted handed blocks := by
  have hsame := h.hands (Hands.of_inner hi)
  rw [append_nil] at hsame
  exact hsame

theorem shutdown :
    ∃ sent more, (pollShutdown zstd s).2.inner.bytes = s.inner.bytes ++ sent ∧ (∀ b ∈ more, Flushes zstd s b) ∧
      Written zstd (pollShutdown zstd s).2 accepted (handed ++ sent) (blocks ++ more) := by
  obtain ⟨sent, more, hinner, hmore, hflush⟩ := h.flush
  unfold pollShutdown
  split
  · split
    · next s₁ hrun =>
      rw [hrun] at hinner hflush
      refine ⟨sent, more, ?_, hmore, hflush.signal (pipe_signal s₁.inner)⟩
      rw [← hinner]
      exact pipe_signal s₁.inner
    · next other s₁ _ hrun =>
      rw [hrun] at hinner hflush
      exact ⟨sent, more, hinner, hmore, hflush⟩
  · refine ⟨[], [], ?_, fun _ hb => (nomatch hb), ?_⟩
    · rw [append_nil]
      exact pipe_signal s.inner
    · rw [append_nil, append_nil]
      exact h.signal (pipe_signal s.inner)

end

end Written

/-! ## Runs of the writing half -/

/-- A stream over an empty queue, with the bytes its `poll_write` has accepted. -/
structure Writer where
  stream : CompressedStream Pipe
  accepted : Bytes
  deriving DecidableEq, Repr

/-- A call to the writing half; the schedule answers the inner calls it makes. -/
inductive WriteCall where
  | write (buf : Bytes)
  | flush (schedule : List Reply)
  | shutdown (schedule : List Reply)
  deriving DecidableEq, Repr

namespace Writer
open CompressedStream
variable (zstd : Zstd)

def new (level : Int) : Writer := ⟨CompressedStream.new ⟨[], []⟩ level, []⟩

section
variable (w : Writer)

variable (schedule : List Reply)

def scheduled : CompressedStream Pipe :=
  { w.stream with inner := { w.stream.inner with schedule := schedule } }

def write (buf : Bytes) : Writer := ⟨(w.stream.pollWrite buf).2, w.accepted ++ buf⟩

def flush : Poll (Except IoError Unit) × Writer :=
  let (result, stream) := pollFlush zstd (w.scheduled schedule)
  (result, { w with stream := stream })

def shutdown : Poll (Except IoError Unit) × Writer :=
  let (result, stream) := pollShutdown zstd (w.scheduled schedule)
  (result, { w with stream := stream })

def step : WriteCall → Option Writer
  | .write buf => some (w.write buf)
  | .flush schedule => some (w.flush zstd schedule).2
  | .shutdown schedule => some (w.shutdown zstd schedule).2

/-- The account of the whole run: nobody reads, so the queue holds all that was handed over. -/
def Accounted : Prop :=
  ∃ blocks, Written zstd w.stream w.accepted w.stream.inner.bytes blocks

end

variable {zstd}

theorem accounted_new (level : Int) : Accounted zstd (new level) :=
  ⟨[], ⟨fun _ h => (nomatch h), rfl, rfl, le_rfl⟩⟩

variable {w : Writer}

section
variable (h : Accounted zstd w) (schedule : List Reply)
include h

theorem accounted_scheduled :
    ∃ blocks, Written zstd (w.scheduled schedule) w.accepted (w.scheduled schedule).inner.bytes blocks := by
  obtain ⟨blocks, hw⟩ := h
  exact ⟨blocks, hw.signal rfl⟩

theorem accounted_flush : Accounted zstd (w.flush zstd schedule).2 := by
  obtain ⟨blocks, hw⟩ := accounted_scheduled h schedule
  obtain ⟨sent, more, hinner, -, hw'⟩ := hw.flush
  rw [← hinner] at hw'
  exact ⟨blocks ++ more, hw'⟩

theorem accounted_shutdown : Accounted zstd (w.shutdown zstd schedule).2 := by
  obtain ⟨blocks, hw⟩ := accounted_scheduled h schedule
  obtain ⟨sent, more, hinner, -, hw'⟩ := hw.shutdown
  rw [← hinner] at hw'
  exact ⟨blocks ++ more, hw'⟩

end

theorem accounted_step {w' : Writer} {call : WriteCall} (h : Accounted zstd w)
    (hstep : w.step zstd call = some w') : Accounted zstd w' := by
  cases call with
  | write buf =>
    cases hstep
    obtain ⟨blocks, hw⟩ := h
    exact ⟨blocks, hw.write buf⟩
  | flush schedule =>
    cases hstep
    exact accounted_flush h schedule
  | shutdown schedule =>
    cases hstep
    exact accounted_shutdown h schedule

/-- No call comes between a `Pending` flush and its end but the flush itself: a flush
finds nothing buffered or nothing unsent, a shutdown finds nothing unsent. -/
def Resumed (w : Writer) : WriteCall → Prop
  | .write _ => True
  | .flush _ => w.stream.writeBuf = [] ∨ w.stream.writeOutPos ≥ w.stream.writeOut.length
  | .shutdown _ => w.stream.writeOutPos ≥ w.stream.writeOut.length

variable (zstd) in
/-- Everything accepted is in blocks, and every byte of the blocks was handed over. -/
structure Complete (w : Writer) : Prop where
  buffered : w.stream.writeBuf = []
  sent : w.stream.writeOutPos = w.stream.writeOut.length
  blocks : ∃ blocks, (∀ b ∈ blocks, b.Made zstd w.stream.level) ∧ w.accepted = plainBytes blocks ∧
    w.stream.inner.bytes = wireBytes blocks

theorem complete_of_empty (h : Accounted zstd w) (hbuf : w.stream.writeBuf = [])
    (hunsent : w.stream.unsent = []) : Complete zstd w := by
  obtain ⟨blocks, hw⟩ := h
  have haccepted := hw.accepted
  have hhanded := hw.handed
  rw [hbuf, append_nil] at haccepted
  rw [hunsent, append_nil] at hhanded
  refine ⟨hbuf, ?_, blocks, hw.made, haccepted, hhanded⟩
  exact le_antisymm hw.pos (unsent_eq_nil.mp hunsent)

theorem pollShutdown_empties {s : CompressedStream Pipe} (h : s.unsent = [])
    (hok : (pollShutdown zstd s).1 = .ready (.ok ())) :
    (pollShutdown zstd s).2.writeBuf = [] ∧ (pollShutdown zstd s).2.unsent = [] := by
  unfold pollShutdown at hok ⊢
  split at hok
  · next hbuf =>
    rw [if_pos hbuf]
    split at hok
    · next s₁ hrun =>
      have hempty := @pollFlush_empties s zstd (.inr h) (by rw [hrun])
      rw [hrun] at hempty
      exact hempty
    · next other s₁ hne hrun => exact absurd hok hne
  · next hbuf =>
    rw [if_neg hbuf]
    exact ⟨not_not.mp hbuf, h⟩

/-- After any calls, a flush or a shutdown that resumes what was begun and reports
success has everything out. -/
theorem flush_completes (zstd : Zstd) (level : Int) {w : Writer}
    (hrun : Run (step zstd) (fun _ _ => True) (new level) w) (schedule : List Reply) :
    (Resumed w (.flush schedule) → (w.flush zstd schedule).1 = .ready (.ok ()) →
      Complete zstd (w.flush zstd schedule).2) ∧
    (Resumed w (.shutdown schedule) → (w.shutdown zstd schedule).1 = .ready (.ok ()) →
      Complete zstd (w.shutdown zstd schedule).2) := by
  have hw : Accounted zstd w :=
    hrun.invariant (fun _ _ _ h _ hstep => accounted_step h hstep) (accounted_new level)
  constructor
  · intro hresumed hok
    have hbefore : (w.scheduled schedule).writeBuf = [] ∨ (w.scheduled schedule).unsent = [] :=
      hresumed.imp_right unsent_eq_nil.mpr
    obtain ⟨hbuf, hunsent⟩ := pollFlush_empties hbefore hok
    exact complete_of_empty (accounted_flush hw schedule) hbuf hunsent
  · intro hresumed hok
    have hbefore : (w.scheduled schedule).unsent = [] := unsent_eq_nil.mpr hresumed
    obtain ⟨hbuf, hunsent⟩ := pollShutdown_empties hbefore hok
    exact complete_of_empty (accounted_shutdown hw schedule) hbuf hunsent

end Writer

/-! ## Flushes that were not resumed -/

namespace Sample
open Writer Zstd

def interrupted : List WriteCall := [.write [1, 2], .flush [.ready 0, .pending]]

/-- The flush is resumed and finished. -/
theorem interrupted_completes : ∃ w, interrupted.foldlM (step stored) (new 1) = some w ∧
      Complete stored (w.flush stored [.ready 99, .ready 0]).2 ∧
      (w.flush stored [.ready 99, .ready 0]).2.stream.inner.bytes = [2, 0, 0, 0, 2, 0, 0, 0, 1, 2] := by
  refine ⟨_, rfl, ?_, by decide +kernel⟩
  exact (flush_completes stored 1 (Run.of_foldlM (l := interrupted) rfl fun _ _ => trivial) _).1
    (.inl (by decide +kernel)) (by decide +kernel)

/-- Writing before the flush is resumed: it reports success with `[3]` still in
`write_buf`. Shutting down instead: success with nine bytes of the block unsent. -/
theorem flush_leaves_data : (∃ w, Run (step stored) (fun _ _ => True) (new 1) w ∧
      (w.flush stored [.ready 99, .ready 0]).1 = .ready (.ok ()) ∧
      (w.flush stored [.ready 99, .ready 0]).2.stream.writeBuf = [3]) ∧
    (∃ w, Run (step stored) (fun _ _ => True) (new 1) w ∧
      (w.shutdown stored [.ready 0]).1 = .ready (.ok ()) ∧
      (w.shutdown stored [.ready 0]).2.stream.unsent = [0, 0, 0, 2, 0, 0, 0, 1, 2]) := by
  refine ⟨⟨_, Run.of_foldlM (l := interrupted ++ [.write [3]]) rfl fun _ _ => trivial, ?_⟩,
    ⟨_, Run.of_foldlM (l := interrupted) rfl fun _ _ => trivial, ?_⟩⟩
  · decide +kernel
  · decide +kernel

end Sample
end Bmux.Ipc
