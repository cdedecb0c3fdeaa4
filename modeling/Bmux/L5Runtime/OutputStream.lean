import Bmux.Core.Run
import Bmux.Core.Spans
import Bmux.L5Runtime.OutputBuffer

/-!
# What the clients of an output buffer read

The buffer is followed together with the whole stream that was pushed and with what happened to each
client (`Fanout`). The buffer holds the stream from its first offset on, its spans mark the offsets at
which the escape tracker, run over the whole stream, is not in the ground phase (`Intact`), and each
cursor is where the client's last event left it.

`reads_follow_stream` is what follows for reads. A registration puts the client at the tail: a client
that is registered again without a detachment skips what it had not read, with no gap reported
(`Sample.reattached`).
-/
namespace Bmux.Output
open Std (ExtTreeMap)
open List OutputFanoutBuffer Option Spans

def phaseAt (stream : Bytes) (o : Nat) : EscSeqPhase := (stream.take o).foldl EscSeqPhase.advance .ground

def Inside (stream : Bytes) (o : Nat) : Prop := phaseAt stream o ≠ .ground

theorem phaseAt_append {stream : Bytes} {o : Nat} (h : o ≤ stream.length) (chunk : Bytes) :
    phaseAt (stream ++ chunk) o = phaseAt stream o := by
  unfold phaseAt
  rw [take_append_of_le_length h]

theorem phaseAt_length (stream : Bytes) (byte : UInt8) :
    phaseAt (stream ++ [byte]) (stream.length + 1) = (phaseAt stream stream.length).advance byte := by
  unfold phaseAt
  rw [take_of_length_le (by simp), take_length, foldl_append]
  rfl

/-! ## A buffer and its stream -/

/-- The buffer holds the end of the stream and marks its escape sequences. -/
structure Intact (b : OutputFanoutBuffer) (stream : Bytes) : Prop where
  start : b.startOffset ≤ stream.length
  data : b.data = stream.drop b.startOffset
  phase : b.escPhase = phaseAt stream stream.length
  marks : Marks b.escSpans b.startOffset stream.length (Inside stream)
  cursors : TreeMap.All (fun _ k => k ≤ stream.length) b.cursors

section Intact

variable {b : OutputFanoutBuffer} {stream : Bytes}

theorem Intact.endOffset (h : Intact b stream) : b.endOffset = stream.length := by
  unfold OutputFanoutBuffer.endOffset
  rw [h.data, length_drop]
  have := h.start
  omega

theorem intact_withAccounting (maxBytes : Nat) : Intact (.withAccounting maxBytes) [] :=
  ⟨le_rfl, rfl, rfl, marks_start (fun h => h rfl), .empty⟩

theorem closeLast_open (front : List Span) (start resume : Nat) :
    closeLast resume (front ++ [(start, none)]) = front ++ [(start, some resume)] := by
  simp [closeLast]

theorem inside_append {o : Nat} (h : o ≤ stream.length) (chunk : Bytes) : Inside (stream ++ chunk) o ↔
    Inside stream o := by
  unfold Inside
  rw [phaseAt_append h]

theorem isGround_iff {phase : EscSeqPhase} : phase.isGround = true ↔ phase = .ground := by
  exact decide_eq_true_iff

variable {lo nodeMaxBytes target start : Nat}

/-- One more byte of the stream keeps the spans on its escape sequences. -/
theorem marks_track (byte : UInt8) {spans : List Span} {prev next : EscSeqPhase} (hlo : lo ≤ stream.length)
    (hprev : prev = phaseAt stream stream.length) (hnext : next = prev.advance byte)
    (h : Marks spans lo stream.length (Inside stream)) : Marks
      (if prev.isGround && !next.isGround then spans ++ [(stream.length + 1, none)]
      else if !prev.isGround && next.isGround then closeLast (stream.length + 1) spans else spans)
      lo (stream.length + 1) (Inside (stream ++ [byte])) := by
  have hold := h.congr fun o ho => inside_append ho [byte]
  have hin : Inside (stream ++ [byte]) stream.length ↔ prev.isGround = false := by
    rw [inside_append le_rfl, Inside, ← hprev, ← Bool.not_eq_true, isGround_iff]
  have hin' : Inside (stream ++ [byte]) (stream.length + 1) ↔ next.isGround = false := by
    rw [Inside, phaseAt_length, ← hprev, ← hnext, ← Bool.not_eq_true, isGround_iff]
  cases hp : prev.isGround with
  | true =>
    have hout : ¬Inside (stream ++ [byte]) stream.length := by rw [hin, hp]; decide
    cases hn : next.isGround with
    | true => exact hold.stay_out hlo hout (by rw [hin', hn]; decide)
    | false => exact hold.enter hlo hout (hin'.mpr hn)
  | false =>
    cases hn : next.isGround with
    | true =>
      obtain ⟨span, hmem, hcovers⟩ := (hold.covered _ hlo le_rfl).mp (hin.mpr hp)
      have hopen := hold.open_of_covers hmem hcovers
      obtain ⟨front, rfl⟩ := hold.last_of_open hmem hopen
      obtain ⟨start, stop⟩ := span
      cases hopen
      have hleft := hold.leave (show ¬Inside (stream ++ [byte]) (stream.length + 1) by rw [hin', hn]; decide)
      simpa [closeLast_open] using hleft
    | false => exact hold.stay_in hlo (hin.mpr hp) (hin'.mpr hn)

theorem marks_trackEscapes (chunk : Bytes) {stream : Bytes} {spans : List Span} (hlo : lo ≤ stream.length)
    (h : Marks spans lo stream.length (Inside stream)) :
    (trackEscapes (phaseAt stream stream.length) spans stream.length chunk).1 =
        phaseAt (stream ++ chunk) (stream ++ chunk).length ∧
      Marks (trackEscapes (phaseAt stream stream.length) spans stream.length chunk).2 lo (stream ++ chunk).length
        (Inside (stream ++ chunk)) := by
  induction chunk generalizing stream spans with
  | nil => simpa [trackEscapes] using h
  | cons byte chunk ih =>
    have hlength : (stream ++ [byte]).length = stream.length + 1 := by simp
    have hmarks := marks_track byte hlo rfl rfl h
    rw [← hlength] at hmarks
    have hrest := ih (by omega) hmarks
    rw [append_assoc, hlength, phaseAt_length] at hrest
    exact hrest

/-! ## Eviction -/

/-- An eviction drops bytes from the front and stops within the budget. -/
theorem evict_eq {seen : List Observation} {retries : Nat} {b b' : OutputFanoutBuffer}
    (h : b.evict nodeMaxBytes retries seen = some b') :
    ∃ n, n ≤ b.data.length ∧ b' = b.dropFront n ∧ b.data.length - n ≤ b.maxBytes := by
  induction seen generalizing retries b with
  | nil => cases h
  | cons o seen ih =>
    unfold evict at h
    dsimp only at h
    -- what is dropped now and later
    have hdrop : ∀ {retries m : Nat}, m ≤ b.data.length → (b.dropFront m).evict nodeMaxBytes retries seen = some b' →
        ∃ n, n ≤ b.data.length ∧ b' = b.dropFront n ∧ b.data.length - n ≤ b.maxBytes := by
      intro retries m hm hrest
      obtain ⟨n, hn, rfl, hmax⟩ := ih hrest
      have hlength : (b.dropFront m).data.length = b.data.length - m := length_drop
      rw [hlength] at hn hmax
      refine ⟨m + n, by omega, ?_, ?_⟩
      · simp only [dropFront, drop_drop, add_assoc]
      · change b.data.length - m - n ≤ b.maxBytes at hmax
        omega
    split at h
    · split at h
      · cases h
        refine ⟨0, zero_le, ?_, by omega⟩
        simp [dropFront]
      · cases h
    · split at h
      · exact hdrop (min_le_right _ _) h
      · split at h
        · exact ih h
        · exact hdrop (by omega) h

/-- A push appends its chunk to the stream and may drop bytes from the front. -/
theorem intact_push (h : Intact b stream) {chunk : Bytes} {seen : List Observation}
    {b' : OutputFanoutBuffer} (hpush : b.pushChunkWithNodeCap chunk nodeMaxBytes seen = some b') :
    Intact b' (stream ++ chunk) ∧ b'.cursors = b.cursors ∧ b.startOffset ≤ b'.startOffset := by
  unfold pushChunkWithNodeCap at hpush
  obtain ⟨evicted, hevict, rfl⟩ := map_eq_some_iff.mp hpush
  obtain ⟨n, hn, rfl, -⟩ := evict_eq hevict
  obtain ⟨hphase, hmarks⟩ := marks_trackEscapes chunk h.start h.marks
  rw [← h.phase, ← h.endOffset] at hphase hmarks
  have hstart := h.start
  have hlength : b.data.length = stream.length - b.startOffset := by rw [h.data, length_drop]
  simp only [length_append] at hn
  refine ⟨⟨?_, ?_, hphase, ?_, ?_⟩, rfl, Nat.le_add_right _ _⟩
  · show b.startOffset + n ≤ (stream ++ chunk).length
    rw [length_append]
    omega
  · show (b.data ++ chunk).drop n = (stream ++ chunk).drop (b.startOffset + n)
    rw [h.data, ← drop_drop, drop_append_of_le_length hstart]
  · refine hmarks.dropWhile (Nat.le_add_right _ _) ?_
    intro span _ hpast
    rw [Option.any_eq_true] at hpast
    obtain ⟨stop, hstop, hle⟩ := hpast
    exact ⟨stop, hstop, of_decide_eq_true hle⟩
  · refine h.cursors.imp ?_
    intro c k _ hk
    rw [length_append]
    omega

/-! ## Where to resume -/

/-- The binary search finds the span that covers the target. -/
theorem searchIndex_covering {spans front back : List Span} {hi : Nat} {inside : Nat → Prop} {span : Span}
    (h : Marks spans lo hi inside) (hspans : spans = front ++ span :: back) (hcovers : Covers span target) :
    searchIndex spans target = front.length := by
  obtain ⟨hfront, hback⟩ := h.split hspans hcovers
  have hstart := hcovers.1
  unfold searchIndex
  subst hspans
  by_cases heq : span.1 = target
  · have hfound : (front ++ span :: back).findIdx? (fun span => span.1 = target) = some front.length := by
      rw [findIdx?_append]
      have hnone : front.findIdx? (fun span => span.1 = target) = none := by
        rw [findIdx?_eq_none_iff]
        intro a ha
        have := hfront a ha
        simpa using by omega
      rw [hnone, findIdx?_cons]
      simp [heq]
    rw [hfound]
  · have hnone : (front ++ span :: back).findIdx? (fun span => span.1 = target) = none := by
      rw [findIdx?_eq_none_iff]
      intro a ha
      rw [decide_eq_false_iff_not]
      rcases mem_append.mp ha with ha | ha
      · have := hfront a ha
        omega
      · rcases mem_cons.mp ha with rfl | ha
        · exact heq
        · have := hback a ha
          omega
    have hcount : (front ++ span :: back).countP (fun span => span.1 < target) = front.length + 1 := by
      rw [countP_append, countP_cons]
      have hall : front.countP (fun span => span.1 < target) = front.length := by
        rw [countP_eq_length]
        intro a ha
        have := hfront a ha
        simpa using by omega
      have hrest : back.countP (fun span => span.1 < target) = 0 := by
        rw [countP_eq_zero]
        intro a ha
        have := hback a ha
        simpa using by omega
      rw [hall, hrest, if_pos (by simpa using by omega)]
    rw [hnone, hcount]
    rfl

/-- The bytes of the stream from one offset to another. -/
structure Reads (r : OutputRead) (stream : Bytes) : Prop where
  bytes : r.bytes = (stream.drop r.streamStart).take (r.streamEnd - r.streamStart)
  ordered : r.streamStart ≤ r.streamEnd
  bounded : r.streamEnd ≤ stream.length

theorem Reads.append {r : OutputRead} (h : Reads r stream) (chunk : Bytes) : Reads r (stream ++ chunk) := by
  have hordered := h.ordered
  have hbounded := h.bounded
  refine ⟨?_, hordered, by rw [length_append]; omega⟩
  rw [drop_append_of_le_length (by omega), take_append_of_le_length (by rw [length_drop]; omega)]
  exact h.bytes

variable (h : Intact b stream)
include h

theorem firstSafe_outside (hlo : b.startOffset ≤ target) (hhi : target ≤ stream.length)
    (hout : ¬Inside stream target) : b.firstSafeOffsetAtOrAfter target = target := by
  unfold firstSafeOffsetAtOrAfter
  rw [findSome?_eq_none_iff.mpr]
  · rfl
  · intro span hmem
    refine if_neg fun hcovers => hout ((h.marks.covered target hlo hhi).mpr ⟨span, ?_, hcovers⟩)
    exact mem_of_mem_drop (mem_of_mem_take hmem)

theorem firstSafe_inside {span : Span} (hmem : span ∈ b.escSpans)
    (hcovers : Covers span target) : b.firstSafeOffsetAtOrAfter target = span.2.getD stream.length := by
  obtain ⟨front, back, hspans⟩ := append_of_mem hmem
  unfold firstSafeOffsetAtOrAfter
  rw [searchIndex_covering h.marks hspans hcovers, hspans, drop_left, take_succ_cons, findSome?_cons,
    if_pos (show span.1 ≤ target ∧ ∀ safeResume ∈ span.2, target < safeResume from hcovers), h.endOffset]
  rfl

/-- The resume point is in the buffer, and outside of escape sequences if any later offset is. -/
theorem firstSafe_spec (hlo : b.startOffset ≤ target) (hhi : target ≤ stream.length) :
    target ≤ b.firstSafeOffsetAtOrAfter target ∧ b.firstSafeOffsetAtOrAfter target ≤ stream.length ∧
      ((∃ o, target ≤ o ∧ o ≤ stream.length ∧ ¬Inside stream o) →
        ¬Inside stream (b.firstSafeOffsetAtOrAfter target)) := by
  by_cases hin : Inside stream target
  · obtain ⟨span, hmem, hcovers⟩ := (h.marks.covered target hlo hhi).mp hin
    rw [firstSafe_inside h hmem hcovers]
    cases hstop : span.2 with
    | some stop =>
      obtain ⟨-, hle, hout⟩ := (h.marks.proper span hmem).2 stop hstop
      have hlt := hcovers.2 stop hstop
      exact ⟨le_of_lt hlt, hle, fun _ => hout⟩
    | none =>
      refine ⟨hhi, le_rfl, ?_⟩
      -- a span without an end covers every later offset
      rintro ⟨o, hlo', hhi', hout⟩
      refine absurd ((h.marks.covered o (le_trans hlo hlo') hhi').mpr ⟨span, hmem, le_trans hcovers.1 hlo', ?_⟩) hout
      rw [hstop]
      exact nofun
  · rw [firstSafe_outside h hlo hhi hin]
    exact ⟨le_rfl, hhi, fun _ => hin⟩

/-! ## Reads -/

theorem Intact.drop_eq (hlo : b.startOffset ≤ start) :
    b.data.drop (start - b.startOffset) = stream.drop start := by
  rw [h.data, drop_drop]
  congr 1
  omega

theorem Intact.reads {n : Nat} (gap : Bool) (hlo : b.startOffset ≤ start) (hhi : start + n ≤ stream.length) :
    Reads { bytes := (b.data.drop (start - b.startOffset)).take n, streamStart := start
            streamEnd := start + ((b.data.drop (start - b.startOffset)).take n).length, streamGap := gap } stream ∧
      ((b.data.drop (start - b.startOffset)).take n).length = n := by
  have hlength : ((stream.drop start).take n).length = n := by
    rw [length_take, length_drop]
    omega
  rw [h.drop_eq hlo, hlength]
  refine ⟨⟨?_, Nat.le_add_right _ _, hhi⟩, rfl⟩
  rw [Nat.add_sub_cancel_left]

def cursorOf (b : OutputFanoutBuffer) (client : ClientId) : Nat := b.cursors[client]?.getD b.endOffset

theorem Intact.cursorOf_le (client : ClientId) : cursorOf b client ≤ stream.length := by
  unfold cursorOf
  cases hk : b.cursors[client]? with
  | none => exact le_of_eq h.endOffset
  | some k => exact h.cursors client k hk

theorem intact_cursors {cursors : ExtTreeMap ClientId Nat compare}
    (hc : TreeMap.All (fun _ k => k ≤ stream.length) cursors) : Intact { b with cursors } stream :=
    { h with cursors := hc }

/-- What a read of a client does. -/
structure ReadSpec (b : OutputFanoutBuffer) (stream : Bytes) (client : ClientId) (r : OutputRead)
    (b' : OutputFanoutBuffer) : Prop where
  reads : Reads r stream
  gap : r.streamGap = true ↔ cursorOf b client < b.startOffset
  contiguous : r.streamGap = false → r.streamStart = cursorOf b client
  resumed : r.streamGap = true → r.streamStart = b.firstSafeOffsetAtOrAfter b.startOffset
  forward : cursorOf b client ≤ r.streamStart
  buffer : b' = { b with cursors := b.cursors.insert client r.streamEnd }
  /-- nothing is read only if there is nothing left -/
  progress : r.bytes = [] → r.streamStart = stream.length

/-- A read goes on at the cursor, or at the first safe offset if bytes were dropped. -/
theorem readForClient_spec (client : ClientId) (maxBytes : Nat) :
    ReadSpec b stream client (b.readForClient client maxBytes).1 (b.readForClient client maxBytes).2 := by
  obtain ⟨hsafe, hsafe', -⟩ := firstSafe_spec h le_rfl h.start
  have hcursor := h.cursorOf_le client
  let start := if cursorOf b client < b.startOffset then b.firstSafeOffsetAtOrAfter b.startOffset else cursorOf b client
  have hbounds : b.startOffset ≤ start ∧ start ≤ stream.length ∧ cursorOf b client ≤ start := by
    dsimp only [start]
    split <;> omega
  obtain ⟨hlo, hhi, hforward⟩ := hbounds
  have hend := h.endOffset
  let n := min (b.endOffset - start) (max maxBytes 1)
  obtain ⟨hreads, hlength⟩ := h.reads (n := n) (decide (cursorOf b client < b.startOffset)) hlo
    (show start + n ≤ stream.length by omega)
  have hread : b.readForClient client maxBytes =
      ({ bytes := (b.data.drop (start - b.startOffset)).take n, streamStart := start
         streamEnd := start + ((b.data.drop (start - b.startOffset)).take n).length
         streamGap := decide (cursorOf b client < b.startOffset) },
        { b with
          cursors := b.cursors.insert client (start + ((b.data.drop (start - b.startOffset)).take n).length) }) := by
    simp only [readForClient, decide_eq_true_eq]
    rfl
  rw [hread]
  refine ⟨hreads, decide_eq_true_iff, ?_, ?_, hforward, rfl, ?_⟩
  · intro hgap
    exact if_neg (of_decide_eq_false hgap)
  · intro hgap
    exact if_pos (of_decide_eq_true hgap)
  · intro hnil
    dsimp only at hnil
    rw [hnil] at hlength
    have hzero : n = 0 := hlength.symm
    show start = stream.length
    omega

theorem readAt_spec (cursor limit : Nat) : Reads (b.readAt cursor limit) stream := by
  have hend := h.endOffset
  unfold readAt
  dsimp only
  split
  · refine ⟨?_, le_rfl, by dsimp only; omega⟩
    rw [Nat.sub_self, take_zero]
  · exact (h.reads _ (by omega) (by omega)).1

theorem readRecent_spec (maxBytes : Nat) :
    Reads (b.readRecentWithOffsets maxBytes) stream ∧ (b.readRecentWithOffsets maxBytes).streamEnd = stream.length := by
  have hend := h.endOffset
  have hstart := h.start
  have hlength : b.data.length = stream.length - b.startOffset := by rw [h.data, length_drop]
  have hnothing : Reads ⟨[], b.endOffset, b.endOffset, false⟩ stream := by
    refine ⟨?_, le_rfl, le_of_eq hend⟩
    rw [Nat.sub_self, take_zero]
  unfold readRecentWithOffsets
  dsimp only
  split
  · exact ⟨hnothing, hend⟩
  · have hlo : b.startOffset ≤ b.endOffset - min b.data.length maxBytes := by omega
    obtain ⟨hsafe, hsafe', -⟩ := firstSafe_spec h hlo (by omega)
    split
    · exact ⟨hnothing, hend⟩
    · refine ⟨⟨?_, ?_, le_of_eq hend⟩, hend⟩
      · rw [h.drop_eq (le_trans hlo hsafe), take_of_length_le]
        rw [length_drop, hend]
      · dsimp only
        omega

end Intact

/-! ## Runs -/

/-- What happens to a client: where it is afterwards. -/
inductive Event where
  | read (client : ClientId) (r : OutputRead)
  /-- an acknowledgement moved it forward -/
  | moved (client : ClientId) (offset : Nat)
  | registered (client : ClientId) (offset : Nat)
  | unregistered (client : ClientId)
  /-- a snapshot of the recent output was read and the client, if it is registered, moved to the end -/
  | recent (client : ClientId) (r : OutputRead)
  deriving DecidableEq, Repr

def Event.client : Event → ClientId
  | .read c _ | .moved c _ | .registered c _ | .unregistered c | .recent c _ => c

def Event.position (e : Event) (position : Option Nat) : Option Nat :=
  match e with
  | .read _ r => some r.streamEnd
  | .moved _ offset => some offset
  | .registered _ offset => some offset
  | .unregistered _ => none
  | .recent _ r => position.map fun _ => r.streamEnd

def position (c : ClientId) (history : List Event) : Option Nat :=
  history.foldl (fun p e => if e.client = c then e.position p else p) none

structure Fanout where
  buffer : OutputFanoutBuffer
  stream : Bytes
  history : List Event

inductive Op where
  | push (chunk : Bytes) (nodeMaxBytes : Nat) (seen : List Observation)
  | register (client : ClientId)
  | unregister (client : ClientId)
  | acknowledge (client : ClientId) (offset : Nat)
  | read (client : ClientId) (maxBytes : Nat)
  | recent (client : ClientId) (maxBytes : Nat)
  deriving Repr

def Op.client : Op → Option ClientId
  | .push _ _ _ => none
  | .register c | .unregister c | .acknowledge c _ | .read c _ | .recent c _ => some c

def Op.concerns (c : ClientId) (op : Op) : Bool := op.client.all (· = c)

def Fanout.new (maxBytes : Nat) : Fanout := { buffer := .withAccounting maxBytes, stream := [], history := [] }

def Fanout.apply (f : Fanout) : Op → Option Fanout
  | .push chunk nodeMaxBytes seen =>
    (f.buffer.pushChunkWithNodeCap chunk nodeMaxBytes seen).map fun buffer =>
      { f with buffer, stream := f.stream ++ chunk }
  | .register c =>
    some { f with
      buffer := f.buffer.registerClientAtTail c, history := f.history ++ [.registered c f.buffer.endOffset] }
  | .unregister c => some { f with buffer := f.buffer.unregisterClient c, history := f.history ++ [.unregistered c] }
  | .acknowledge c offset =>
    let buffer := f.buffer.acknowledgeSnapshot c offset
    some { f with
      buffer
      history := f.history ++
        if buffer.cursors[c]? = f.buffer.cursors[c]? then [] else (buffer.cursors[c]?.map (Event.moved c)).toList }
  | .read c maxBytes =>
    let r := f.buffer.readForClient c maxBytes
    some { f with buffer := r.2, history := f.history ++ [.read c r.1] }
  | .recent c maxBytes =>
    some { f with
      buffer := f.buffer.advanceClientToEnd c
      history := f.history ++ [.recent c (f.buffer.readRecentWithOffsets maxBytes)] }

theorem position_concat (c : ClientId) (history : List Event) (e : Event) :
    position c (history ++ [e]) = if e.client = c then e.position (position c history) else position c history := by
  simp [position]

/-- Cursors are where the history leaves the clients, and reads go on from there. -/
structure Followed (f : Fanout) : Prop where
  intact : Intact f.buffer f.stream
  placed : ∀ c : ClientId, f.buffer.cursors[c]? = position c f.history
  reads : ∀ c r, .read c r ∈ f.history → Reads r f.stream
  contiguous : ∀ front c r back, f.history = front ++ .read c r :: back → r.streamGap = false →
    ∀ k ∈ position c front, r.streamStart = k
  passed : ∀ c r, .read c r ∈ f.history → r.streamEnd ≤ cursorOf f.buffer c
  ordered : f.history.Pairwise fun a b => ∀ c r r', a = .read c r → b = .read c r' → r.streamEnd ≤ r'.streamStart

section Runs

variable {f : Fanout}

/-- The buffer after something happened to one client. -/
structure Moved (f : Fanout) (e : Event) (cursors : ExtTreeMap ClientId Nat compare) : Prop where
  others : ∀ c : ClientId, cursors[c]? = if e.client = c then e.position f.buffer.cursors[c]? else f.buffer.cursors[c]?
  bounded : TreeMap.All (fun _ k => k ≤ f.stream.length) cursors
  forward : cursorOf f.buffer e.client ≤ cursorOf { f.buffer with cursors } e.client
  read : ∀ c r, e = .read c r → Reads r f.stream ∧ cursorOf f.buffer c ≤ r.streamStart ∧
    (r.streamGap = false → ∀ k ∈ f.buffer.cursors[c]?, r.streamStart = k)

theorem Followed.event (h : Followed f) {e : Event} {cursors : ExtTreeMap ClientId Nat compare}
    (hm : Moved f e cursors) :
    Followed { f with buffer := { f.buffer with cursors }, history := f.history ++ [e] } := by
  have hforward : ∀ c, cursorOf f.buffer c ≤ cursorOf { f.buffer with cursors } c := by
    intro c
    by_cases hc : e.client = c
    · exact hc ▸ hm.forward
    · unfold cursorOf
      rw [hm.others c, if_neg hc]
      exact le_rfl
  refine ⟨intact_cursors h.intact hm.bounded, ?_, ?_, ?_, ?_, ?_⟩
  · intro c
    rw [position_concat, hm.others c, h.placed c]
  · intro c r hmem
    rcases mem_append.mp hmem with hmem | hmem
    · exact h.reads c r hmem
    · exact (hm.read c r (mem_singleton.mp hmem).symm).1
  · intro front c r back hsplit hgap k hk
    rcases eq_nil_or_concat back with rfl | ⟨back, last, rfl⟩
    · obtain ⟨rfl, hlast⟩ := append_inj' hsplit rfl
      rw [← h.placed c] at hk
      exact (hm.read c r (singleton_inj.mp hlast)).2.2 hgap k hk
    · rw [concat_eq_append, ← cons_append, ← append_assoc] at hsplit
      exact h.contiguous front c r back (append_inj' hsplit rfl).1 hgap k hk
  · intro c r hmem
    rcases mem_append.mp hmem with hmem | hmem
    · exact le_trans (h.passed c r hmem) (hforward c)
    · cases mem_singleton.mp hmem
      unfold cursorOf
      rw [hm.others c, if_pos (show (Event.read c r).client = c from rfl)]
      exact le_rfl
  · refine pairwise_append.mpr ⟨h.ordered, pairwise_singleton _ _, ?_⟩
    rintro _ hmem b hb c r r' rfl rfl
    exact le_trans (h.passed c r hmem) (hm.read c r' (mem_singleton.mp hb).symm).2.1

theorem Followed.push (h : Followed f) {chunk : Bytes} {nodeMaxBytes : Nat} {seen : List Observation}
    {b : OutputFanoutBuffer}
    (hpush : f.buffer.pushChunkWithNodeCap chunk nodeMaxBytes seen = some b) :
    Followed { f with buffer := b, stream := f.stream ++ chunk } := by
  obtain ⟨hintact, hcursors, -⟩ := intact_push h.intact hpush
  refine ⟨hintact, ?_, fun c r hmem => (h.reads c r hmem).append chunk, h.contiguous, ?_, h.ordered⟩
  · intro c
    rw [hcursors]
    exact h.placed c
  · intro c r hmem
    refine le_trans (h.passed c r hmem) ?_
    unfold cursorOf
    rw [hcursors, hintact.endOffset, h.intact.endOffset]
    cases f.buffer.cursors[c]? with
    | none => simp
    | some k => exact le_rfl

theorem moved_insert (h : Followed f) {e : Event} {k : Nat} (hk : e.position f.buffer.cursors[e.client]? = some k)
    (hbound : k ≤ f.stream.length) (hforward : cursorOf f.buffer e.client ≤ k)
    (hread : ∀ c r, e = .read c r → Reads r f.stream ∧ cursorOf f.buffer c ≤ r.streamStart ∧
      (r.streamGap = false → ∀ k ∈ f.buffer.cursors[c]?, r.streamStart = k)) :
    Moved f e (f.buffer.cursors.insert e.client k) := by
  refine ⟨?_, h.intact.cursors.insert hbound, ?_, hread⟩
  · intro c
    rw [TreeMap.getElem?_insert]
    split
    · rename_i hc
      rw [← hc, hk]
    · rfl
  · unfold cursorOf at hforward ⊢
    rw [TreeMap.getElem?_insert, if_pos rfl]
    exact hforward

/-- The step lemma of `Followed`. -/
theorem followed_apply {g : Fanout} {op : Op} (h : Followed f) (hop : f.apply op = some g) : Followed g := by
  have hend := h.intact.endOffset
  cases op with
  | push chunk nodeMaxBytes seen =>
    obtain ⟨b, hb, rfl⟩ := map_eq_some_iff.mp hop
    exact h.push hb
  | register c =>
    cases hop
    refine h.event (e := .registered c f.buffer.endOffset) (moved_insert h rfl (le_of_eq hend) ?_ nofun)
    rw [hend]
    exact h.intact.cursorOf_le c
  | unregister c =>
    cases hop
    refine h.event (e := .unregistered c) ⟨?_, h.intact.cursors.erase, ?_, nofun⟩
    · intro c'
      exact TreeMap.getElem?_erase c'
    · unfold cursorOf
      dsimp only [Event.client]
      rw [TreeMap.getElem?_erase, if_pos rfl]
      exact le_trans (h.intact.cursorOf_le c) (le_of_eq hend.symm)
  | acknowledge c offset =>
    unfold Fanout.apply acknowledgeSnapshot at hop
    cases hc : f.buffer.cursors[c]? with
    | none =>
      simp only [hc, if_true, append_nil] at hop
      cases hop
      exact h
    | some current =>
      have hcurrent : current ≤ f.stream.length := h.intact.cursors c current hc
      simp only [hc, TreeMap.getElem?_insert, if_true] at hop
      split at hop
      · -- not moved: the cursor is written back as it was
        rename_i hsame
        cases hop
        rw [some.inj hsame, TreeMap.insert_self hc, append_nil]
        exact h
      · cases hop
        refine h.event (e := .moved c (min (max current offset) f.buffer.endOffset))
          (moved_insert h rfl (by omega) ?_ nofun)
        simp only [cursorOf, Event.client, hc, getD_some]
        omega
  | read c maxBytes =>
    cases hop
    have hspec := readForClient_spec h.intact c maxBytes
    refine h.event (e := .read c _) (moved_insert h rfl hspec.reads.bounded
      (le_trans hspec.forward hspec.reads.ordered) ?_)
    intro c' r heq
    cases heq
    refine ⟨hspec.reads, hspec.forward, ?_⟩
    intro hgap k hk
    rw [hspec.contiguous hgap, cursorOf, hk]
    rfl
  | recent c maxBytes =>
    cases hop
    obtain ⟨-, hrecent⟩ := readRecent_spec h.intact maxBytes
    unfold advanceClientToEnd
    rw [ExtTreeMap.contains_eq_isSome_getElem?]
    cases hc : f.buffer.cursors[c]? with
    | none =>
      refine h.event (e := .recent c _) ⟨?_, h.intact.cursors, le_rfl, nofun⟩
      intro c'
      split
      · rename_i heq
        cases heq
        dsimp only [Event.client]
        rw [hc]
        rfl
      · rfl
    | some k =>
      refine h.event (e := .recent c _) (moved_insert h ?_ (le_of_eq hend) ?_ nofun)
      · show f.buffer.cursors[c]?.map _ = _
        rw [hc, map_some, hrecent, hend]
      · rw [hend]
        exact h.intact.cursorOf_le c

theorem followed_new (maxBytes : Nat) : Followed (.new maxBytes) := by
  refine ⟨intact_withAccounting maxBytes, ?_, nofun, ?_, nofun, .nil⟩
  · intro c
    rfl
  · intro front c r back hsplit
    cases front <;> cases hsplit

theorem followed_run {ops : List Op} {g : Fanout} (h : Followed f) (hrun : ops.foldlM Fanout.apply f = some g) :
    Followed g := by
  have hsteps : Run Fanout.apply (fun _ _ => True) f g := .of_foldlM hrun fun _ _ => trivial
  exact hsteps.invariant (fun _ _ _ h _ hop => followed_apply h hop) h

/-- Reads of a client with nothing of its own in between are contiguous. -/
theorem Followed.successive (h : Followed f) {front between back : List Event} {c : ClientId} {r r' : OutputRead}
    (hhistory : f.history = front ++ .read c r :: between ++ .read c r' :: back)
    (hbetween : ∀ e ∈ between, e.client ≠ c)
    (hgap : r'.streamGap = false) : r'.streamStart = r.streamEnd := by
  have hposition : ∀ between : List Event, (∀ e ∈ between, e.client ≠ c) →
      position c (front ++ .read c r :: between) = some r.streamEnd := by
    intro between
    induction between using List.reverseRecOn with
    | nil =>
      intro _
      rw [position_concat, if_pos (show (Event.read c r).client = c from rfl)]
      rfl
    | append_singleton between e ih =>
      intro hothers
      rw [← cons_append, ← append_assoc, position_concat, if_neg (hothers e (by simp))]
      exact ih fun e' he' => hothers e' (mem_append_left _ he')
  exact h.contiguous _ c r' back hhistory hgap _ (hposition between hbetween)

end Runs

/-! ## Clients do not affect each other -/

def readsOf (c : ClientId) (history : List Event) : List OutputRead :=
  history.filterMap fun e =>
    match e with
    | .read c' r => if c' = c then some r else none
    | _ => none

/-- The same buffer as far as a client can tell. -/
structure Same (c : ClientId) (f f' : Fanout) : Prop where
  buffer : f'.buffer = { f.buffer with cursors := f'.buffer.cursors }
  cursor : f.buffer.cursors[c]? = f'.buffer.cursors[c]?
  reads : readsOf c f.history = readsOf c f'.history

section Same

variable {c : ClientId} {f f' g : Fanout}

theorem readsOf_append (c : ClientId) (a b : List Event) : readsOf c (a ++ b) = readsOf c a ++ readsOf c b :=
  filterMap_append

theorem readsOf_other {new : List Event} (h : ∀ e ∈ new, e.client ≠ c) : readsOf c new = [] := by
  rw [readsOf, filterMap_eq_nil_iff]
  intro e he
  cases e with
  | read c' r => exact if_neg (h _ he)
  | _ => rfl

theorem Same.other (h : Same c f f') {cursors : ExtTreeMap ClientId Nat compare} {new : List Event}
    (hcursor : cursors[c]? = f.buffer.cursors[c]?) (hnew : ∀ e ∈ new, e.client ≠ c) :
    Same c { f with buffer := { f.buffer with cursors }, history := f.history ++ new } f' := by
  refine ⟨h.buffer, hcursor.trans h.cursor, ?_⟩
  rw [readsOf_append, readsOf_other hnew, append_nil, h.reads]

/-- An operation of another client is not seen. -/
theorem same_apply_other {op : Op} {d : ClientId} (h : Same c f f') (hd : op.client = some d) (hne : d ≠ c)
    (hop : f.apply op = some g) : Same c g f' := by
  have hinsert : ∀ k, (f.buffer.cursors.insert d k)[c]? = f.buffer.cursors[c]? := by
    intro k
    rw [TreeMap.getElem?_insert, if_neg hne]
  cases op with
  | push chunk nodeMaxBytes seen => cases hd
  | register | read =>
    cases hd
    cases hop
    exact h.other (hinsert _) (forall_mem_singleton.mpr hne)
  | unregister d' =>
    cases hd
    cases hop
    refine h.other ?_ (forall_mem_singleton.mpr hne)
    rw [TreeMap.getElem?_erase, if_neg hne]
  | acknowledge d' offset =>
    cases hd
    cases hop
    unfold acknowledgeSnapshot
    have hnew : ∀ (p : Prop) [Decidable p] (k : Option Nat), ∀ e ∈ (if p then [] else (k.map (Event.moved d)).toList),
      e.client ≠ c := by
      intro p _ k e he
      split at he
      · cases he
      · cases k with
        | none => cases he
        | some k => cases mem_singleton.mp he; exact hne
    split
    · exact h.other rfl (hnew _ _)
    · exact h.other (hinsert _) (hnew _ _)
  | recent d' maxBytes =>
    cases hd
    cases hop
    unfold advanceClientToEnd
    split
    · exact h.other (hinsert _) (forall_mem_singleton.mpr hne)
    · exact h.other rfl (forall_mem_singleton.mpr hne)

theorem evict_cursors (nodeMaxBytes : Nat) (cursors : ExtTreeMap ClientId Nat compare) (seen : List Observation)
    (retries : Nat)
    (b : OutputFanoutBuffer) : evict nodeMaxBytes retries { b with cursors } seen =
      (b.evict nodeMaxBytes retries seen).map fun b => { b with cursors } := by
  induction seen generalizing retries b with
  | nil => rfl
  | cons o seen ih =>
    unfold evict
    dsimp only
    split
    · split <;> rfl
    · split
      · exact ih 0 (b.dropFront _)
      · split
        · exact ih _ b
        · exact ih 0 (b.dropFront 1)

theorem push_cursors (b : OutputFanoutBuffer) (cursors : ExtTreeMap ClientId Nat compare) (chunk : Bytes)
    (nodeMaxBytes : Nat)
    (seen : List Observation) : pushChunkWithNodeCap { b with cursors } chunk nodeMaxBytes seen =
      (b.pushChunkWithNodeCap chunk nodeMaxBytes seen).map fun b => { b with cursors } := by
  unfold pushChunkWithNodeCap
  have hevict := evict_cursors nodeMaxBytes cursors seen 0
    { b with
      data := b.data ++ chunk
      escPhase := (trackEscapes b.escPhase b.escSpans b.endOffset chunk).1
      escSpans := (trackEscapes b.escPhase b.escSpans b.endOffset chunk).2 }
  refine (congrArg (Option.map prune) hevict).trans ?_
  rw [Option.map_map, Option.map_map]
  rfl

theorem push_keeps {b b' : OutputFanoutBuffer} {chunk : Bytes} {nodeMaxBytes : Nat} {seen : List Observation}
    (h : b.pushChunkWithNodeCap chunk nodeMaxBytes seen = some b') : b'.cursors = b.cursors := by
  obtain ⟨evicted, hevict, rfl⟩ := map_eq_some_iff.mp h
  obtain ⟨n, -, rfl, -⟩ := evict_eq hevict
  rfl

/-- An operation of the client has the same outcome on both buffers. -/
theorem same_apply_own {op : Op} (h : Same c f f') (hop : f.apply op = some g) (hc : ∀ d ∈ op.client, d = c) :
    ∃ g', f'.apply op = some g' ∧ Same c g g' := by
  obtain ⟨b, stream, history⟩ := f'
  obtain ⟨hbuffer, hcursor, hreads⟩ := h
  generalize b.cursors = cursors at hbuffer hcursor
  subst hbuffer
  -- the same event for both
  have hevent : ∀ e : List Event, readsOf c (f.history ++ e) = readsOf c (history ++ e) := by
    intro e
    rw [readsOf_append, readsOf_append, hreads]
  have hinsert : ∀ k : Nat, (f.buffer.cursors.insert c k)[c]? = (cursors.insert c k)[c]? := by
    intro k
    simp
  cases op with
  | push chunk nodeMaxBytes seen =>
    obtain ⟨b, hb, rfl⟩ := map_eq_some_iff.mp hop
    refine ⟨{ buffer := { b with cursors }, stream := stream ++ chunk, history }, ?_, rfl, ?_, hreads⟩
    · unfold Fanout.apply
      simp [push_cursors, hb]
    · rw [push_keeps hb]
      exact hcursor
  | register d =>
    cases hc d rfl
    cases hop
    exact ⟨_, rfl, rfl, hinsert _, hevent _⟩
  | unregister d =>
    cases hc d rfl
    cases hop
    refine ⟨_, rfl, rfl, ?_, hevent _⟩
    show (f.buffer.cursors.erase c)[c]? = (cursors.erase c)[c]?
    simp
  | acknowledge d offset =>
    cases hc d rfl
    simp only [Fanout.apply, acknowledgeSnapshot, ← hcursor] at hop ⊢
    cases hcur : f.buffer.cursors[c]? with
    | none =>
      simp only [hcur, hcur ▸ hcursor.symm, if_true, append_nil] at hop ⊢
      cases hop
      exact ⟨_, rfl, rfl, hcursor, hreads⟩
    | some current =>
      simp only [hcur, TreeMap.getElem?_insert, if_true] at hop ⊢
      cases hop
      exact ⟨_, rfl, rfl, hinsert _, hevent _⟩
  | read d maxBytes =>
    cases hc d rfl
    simp only [Fanout.apply, readForClient, ← hcursor] at hop ⊢
    cases hop
    exact ⟨_, rfl, rfl, hinsert _, hevent _⟩
  | recent d maxBytes =>
    cases hc d rfl
    have hcontains : f.buffer.cursors.contains c = cursors.contains c := by
      rw [ExtTreeMap.contains_eq_isSome_getElem?, ExtTreeMap.contains_eq_isSome_getElem?, hcursor]
    simp only [Fanout.apply, advanceClientToEnd, ← hcontains] at hop ⊢
    cases hop
    refine ⟨_, rfl, ?_⟩
    split
    · exact ⟨rfl, hinsert _, hevent _⟩
    · exact ⟨rfl, hcursor, hevent _⟩

/-- What a client reads is the same without the operations of all others. -/
theorem reads_alone (c : ClientId) {ops : List Op} (h : Same c f f') (hrun : ops.foldlM Fanout.apply f = some g) :
    ∃ g', (ops.filter (Op.concerns c)).foldlM Fanout.apply f' = some g' ∧ Same c g g' := by
  induction ops generalizing f f' with
  | nil => cases hrun; exact ⟨f', rfl, h⟩
  | cons op ops ih =>
    obtain ⟨f₁, hop, hrest⟩ := bind_eq_some_iff.mp hrun
    by_cases hown : op.concerns c = true
    · rw [filter_cons_of_pos hown, foldlM_cons]
      have hc : ∀ d ∈ op.client, d = c := by
        intro d hd
        rw [Op.concerns, hd] at hown
        simpa using hown
      obtain ⟨f₁', hop', hsame⟩ := same_apply_own h hop hc
      obtain ⟨g', hrest', hsame'⟩ := ih hsame hrest
      exact ⟨g', by rw [hop']; exact hrest', hsame'⟩
    · rw [filter_cons_of_neg hown]
      cases hd : op.client with
      | none => rw [Op.concerns, hd] at hown; exact absurd rfl hown
      | some d =>
        have hne : d ≠ c := by
          intro heq
          rw [Op.concerns, hd, heq] at hown
          exact hown (by simp)
        exact ih (same_apply_other h hd hne hop) hrest

end Same

def Evicted (f : Fanout) (o : Nat) : Prop := o < f.buffer.startOffset

/-- What reads have to do with the stream after some operations. -/
structure FollowStream (maxBytes : Nat) (ops : List Op) (f : Fanout) : Prop where
  /-- a read is of the stream's bytes from its start to its end -/
  exact : ∀ c r, .read c r ∈ f.history → Reads r f.stream
  exactAt : ∀ cursor limit, Reads (f.buffer.readAt cursor limit) f.stream
  /-- reads with no acknowledgement that moved the client, registration or detachment in between -/
  contiguous : ∀ front between back c r r', f.history = front ++ .read c r :: between ++ .read c r' :: back →
    (∀ e ∈ between, e.client ≠ c) → r'.streamGap = false → r'.streamStart = r.streamEnd
  /-- no byte is read twice, whatever happens in between -/
  once : f.history.Pairwise fun a b => ∀ c r r', a = .read c r → b = .read c r' → r.streamEnd ≤ r'.streamStart
  /-- the next read of a client reports a gap -/
  gap : ∀ (c : ClientId) (n : Nat),
    (f.buffer.readForClient c n).1.streamGap = true ↔ ∃ k ∈ f.buffer.cursors[c]?, ∃ o, k ≤ o ∧ Evicted f o
  /-- what a client reads is the same without the operations of all others -/
  independent : ∀ c, ∃ g, (ops.filter (Op.concerns c)).foldlM Fanout.apply (.new maxBytes) = some g ∧
    readsOf c g.history = readsOf c f.history

/-- **Reads follow the stream,** whatever operations came before. -/
theorem reads_follow_stream (maxBytes : Nat) {ops : List Op} {f : Fanout}
    (hrun : ops.foldlM Fanout.apply (.new maxBytes) = some f) : FollowStream maxBytes ops f := by
  have h := followed_run (followed_new maxBytes) hrun
  refine ⟨h.reads, fun cursor limit => readAt_spec h.intact cursor limit, ?_, h.ordered, ?_, ?_⟩
  · intro front between back c r r' hhistory hbetween hgap
    exact h.successive hhistory hbetween hgap
  · intro c n
    rw [(readForClient_spec h.intact c n).gap, cursorOf]
    cases hk : f.buffer.cursors[c]? with
    | none =>
      have hend : ¬f.buffer.endOffset < f.buffer.startOffset := not_lt.mpr (Nat.le_add_right _ _)
      exact ⟨fun hlt => absurd hlt hend, by rintro ⟨k, hk, -⟩; cases hk⟩
    | some k =>
      constructor
      · intro hlt
        exact ⟨k, rfl, k, le_rfl, hlt⟩
      · rintro ⟨k', hk', o, hle, hevicted⟩
        cases hk'
        exact lt_of_le_of_lt hle hevicted
  · intro c
    obtain ⟨g, hg, hsame⟩ := reads_alone c ⟨rfl, rfl, rfl⟩ hrun
    exact ⟨g, hg, hsame.reads.symm⟩

namespace Sample

def quiet : List Observation := [{ retained := 0, exchanged := true }]

def full : List Observation := [{ retained := 3, exchanged := true }, { retained := 2, exchanged := true }]

/-- Two clients of a buffer of two bytes: client 2 is slow and finds a gap. -/
theorem slow_reader : ∃ f, [.register 1, .register 2, .push [0x61, 0x62] 100 quiet, .read 1 10, .push [0x63] 100 full,
      .read 1 10, .read 2 10].foldlM Fanout.apply (.new 2) = some f ∧
    readsOf 2 f.history = [{ bytes := [0x62, 0x63], streamStart := 1, streamEnd := 3, streamGap := true }] ∧
    FollowStream 2 [.register 1, .register 2, .push [0x61, 0x62] 100 quiet, .read 1 10, .push [0x63] 100 full,
      .read 1 10, .read 2 10] f := by
  have hread : ([.register 1, .register 2, .push [0x61, 0x62] 100 quiet, .read 1 10, .push [0x63] 100 full,
      .read 1 10, .read 2 10].foldlM Fanout.apply (.new 2)).map (fun f => readsOf 2 f.history) =
      some [{ bytes := [0x62, 0x63], streamStart := 1, streamEnd := 3, streamGap := true }] := by decide +kernel
  obtain ⟨f, hf, hreads⟩ := map_eq_some_iff.mp hread
  exact ⟨f, hf, hreads, reads_follow_stream 2 hf⟩

/-- A client reads one byte of two, is registered again and reads on: it has skipped a byte, with no
gap and no acknowledgement. -/
theorem reattached :
    ([.register 1, .push [0x61, 0x62] 100 quiet, .read 1 1, .register 1, .push [0x63] 100 quiet, .read 1 1].foldlM
        Fanout.apply (.new 10)).map Fanout.history =
      some [.registered 1 0, .read 1 { bytes := [0x61], streamStart := 0, streamEnd := 1, streamGap := false },
        .registered 1 2, .read 1 { bytes := [0x63], streamStart := 2, streamEnd := 3, streamGap := false }] := by
  decide +kernel

end Sample
end Bmux.Output
