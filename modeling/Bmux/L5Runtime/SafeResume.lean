import Bmux.L5Runtime.OutputStream

/-!
# Where a client resumes after a gap

A client whose bytes were evicted is moved to the first offset that the spans say is outside of escape
sequences, and a snapshot of the recent output starts at such an offset. If the sequence at that point
has not been terminated, there is none: the client is moved to the end of the buffer instead, in the
middle of the sequence, and its next read starts there (`Sample.resumed_inside`).

`safe_resume` shows that this is the only way: if the tracker is in the ground phase at some offset
from the resume target to the end of the buffer, the first byte the client is given is at such an
offset.
-/
namespace Bmux.Output
open List Fanout Option

/-- From the target on, the tracker is in the ground phase at some offset. -/
def Resumable (f : Fanout) (target : Nat) : Prop := ∃ o, target ≤ o ∧ o ≤ f.stream.length ∧ phaseAt f.stream o = .ground

/-- A read that gives a client nothing and leaves it where it is. -/
def Idle (c : ClientId) (e : Event) : Prop := e.client = c → ∃ r, e = .read c r ∧ r.bytes = [] ∧ r.streamGap = false

/-- The first bytes of the client after a history are at offsets in the ground phase. -/
def NextGround (c : ClientId) (history : List Event) (g : Fanout) : Prop :=
  ∀ between r back, g.history = history ++ between ++ .read c r :: back → (∀ e ∈ between, Idle c e) →
    r.streamGap = false → phaseAt g.stream r.streamStart = .ground

section Resume

variable {f g : Fanout} {c : ClientId}

theorem Reads.end_of_nil {r : OutputRead} {stream : Bytes} (h : Reads r stream) (hnil : r.bytes = []) :
    r.streamEnd = r.streamStart := by
  have hlength := congrArg List.length h.bytes
  have hordered := h.ordered
  have hbounded := h.bounded
  rw [hnil, length_take, length_drop, length_nil] at hlength
  omega

theorem stream_apply {op : Op} (h : f.apply op = some g) : ∃ more, g.stream = f.stream ++ more := by
  cases op with
  | push chunk nodeMaxBytes seen =>
    obtain ⟨b, -, rfl⟩ := map_eq_some_iff.mp h
    exact ⟨chunk, rfl⟩
  | _ => cases h; exact ⟨[], (append_nil _).symm⟩

theorem stream_run {ops : List Op} (h : ops.foldlM apply f = some g) : ∃ more, g.stream = f.stream ++ more := by
  have hrun : Run apply (fun _ _ => True) f g := .of_foldlM h fun _ _ => trivial
  refine hrun.invariant (I := fun g => ∃ more, g.stream = f.stream ++ more) ?_ ⟨[], (append_nil _).symm⟩
  rintro g₁ op g₂ ⟨more, hmore⟩ - hop
  obtain ⟨more', hmore'⟩ := stream_apply hop
  simp [hmore', hmore]

variable {history : List Event} {k target : Nat}

/-- Idle reads leave a client where it is. -/
theorem Followed.idle (h : Followed g) (hk : position c history = some k) {between rest : List Event}
    (hhistory : g.history = history ++ between ++ rest) (hidle : ∀ e ∈ between, Idle c e) :
    position c (history ++ between) = some k := by
  induction between using List.reverseRecOn generalizing rest with
  | nil => rw [append_nil]; exact hk
  | append_singleton between e ih =>
    rw [← append_assoc] at hhistory
    have hsplit : g.history = history ++ between ++ (e :: rest) := by simp [hhistory]
    have hbefore := ih hsplit fun e' he' => hidle e' (mem_append_left _ he')
    rw [← append_assoc, position_concat]
    by_cases hc : e.client = c
    · obtain ⟨r, rfl, hnil, hgap⟩ := hidle e (mem_append_right _ (mem_singleton_self e)) hc
      rw [if_pos hc]
      rw [append_assoc] at hhistory
      have hstart := h.contiguous _ c r rest hhistory hgap k hbefore
      have hmem : .read c r ∈ g.history := by simp [hhistory]
      show some r.streamEnd = some k
      rw [(h.reads c r hmem).end_of_nil hnil, hstart]
    · rw [if_neg hc]
      exact hbefore

theorem Followed.nextGround (h : Followed g) (hk : position c history = some k)
    (hground : phaseAt g.stream k = .ground) : NextGround c history g := by
  intro between r back hhistory hidle hgap
  have hposition := h.idle hk hhistory hidle
  rw [h.contiguous _ c r back hhistory hgap k hposition]
  exact hground

theorem ground_firstSafe (h : Followed f) (hlo : f.buffer.startOffset ≤ target) (hhi : target ≤ f.stream.length)
    (hground : Resumable f target) : phaseAt f.stream (f.buffer.firstSafeOffsetAtOrAfter target) = .ground := by
  obtain ⟨o, hle, hend, ho⟩ := hground
  have hout := (firstSafe_spec h.intact hlo hhi).2.2 ⟨o, hle, hend, fun hin => hin ho⟩
  exact not_not.mp hout

/-- The first byte that the client is given from the read on is at an offset in the ground phase. -/
structure ResumesAt (c : ClientId) (r : OutputRead) (history : List Event) (g : Fanout) : Prop where
  start : phaseAt g.stream r.streamStart = .ground
  next : r.bytes = [] → position c history ≠ none → NextGround c history g

/-- A read from the first safe offset after a target, after which the client is at its end. -/
theorem Followed.resumesAt {r : OutputRead} (hf : Followed f) (hg : Followed g)
    (hmore : ∃ more, g.stream = f.stream ++ more) (hlo : f.buffer.startOffset ≤ target) (hhi : target ≤ f.stream.length)
    (hground : Resumable f target) (hreads : Reads r f.stream)
    (hstart : r.streamStart = f.buffer.firstSafeOffsetAtOrAfter target)
    (hposition : ∀ k ∈ position c history, k = r.streamEnd) : ResumesAt c r history g := by
  obtain ⟨more, hmore⟩ := hmore
  have hphase : phaseAt g.stream r.streamStart = .ground := by
    rw [hmore, phaseAt_append (le_trans hreads.ordered hreads.bounded), hstart]
    exact ground_firstSafe hf hlo hhi hground
  refine ⟨hphase, ?_⟩
  intro hnil hregistered
  obtain ⟨k, hk⟩ := ne_none_iff_exists'.mp hregistered
  refine hg.nextGround hk ?_
  rw [hposition k hk, hreads.end_of_nil hnil]
  exact hphase

theorem readRecent_start {b : OutputFanoutBuffer} {stream : Bytes} (h : Intact b stream) (n : Nat) :
    (b.readRecentWithOffsets n).streamStart = b.firstSafeOffsetAtOrAfter (b.endOffset - min b.data.length n) := by
  have hend := h.endOffset
  have hlength : b.endOffset = b.startOffset + b.data.length := rfl
  obtain ⟨hsafe, hsafe', -⟩ := firstSafe_spec h (show b.startOffset ≤
    b.endOffset - min b.data.length n by omega) (by omega)
  unfold OutputFanoutBuffer.readRecentWithOffsets
  dsimp only
  split
  · rename_i hnone
    have hmin : min b.data.length n = 0 := by
      rcases hnone with hempty | hzero
      · simp [List.isEmpty_iff.mp hempty]
      · rw [hzero]
        exact Nat.min_zero _
    dsimp only
    omega
  · split
    · dsimp only
      omega
    · rfl

/-- **Safe resume.** The read of a client that reports a gap and a snapshot of the recent output resume
outside of escape sequences, if there is such an offset from their target on. -/
theorem safe_resume (maxBytes : Nat) {before after : List Op} {f₁ : Fanout} {n : Nat}
    (hbefore : before.foldlM apply (.new maxBytes) = some f) (hafter : after.foldlM apply f₁ = some g) :
    (f.apply (.read c n) = some f₁ → (f.buffer.readForClient c n).1.streamGap = true →
      Resumable f f.buffer.startOffset →
      ResumesAt c (f.buffer.readForClient c n).1 f₁.history g) ∧
    (f.apply (.recent c n) = some f₁ → Resumable f (f.buffer.endOffset - min f.buffer.data.length n) →
      ResumesAt c (f.buffer.readRecentWithOffsets n) f₁.history g) := by
  have hf := followed_run (followed_new maxBytes) hbefore
  have hend := hf.intact.endOffset
  have hstart := hf.intact.start
  have hmore := stream_run hafter
  constructor
  · intro hop hgap hground
    have hg := followed_run (followed_apply hf hop) hafter
    have hspec := readForClient_spec hf.intact c n
    cases hop
    refine hf.resumesAt hg hmore le_rfl hstart hground hspec.reads (hspec.resumed hgap) ?_
    intro k hk
    rw [position_concat, if_pos (show Event.client (.read c _) = c from rfl)] at hk
    exact (some.inj hk).symm
  · intro hop hground
    have hg := followed_run (followed_apply hf hop) hafter
    have hlength : f.buffer.endOffset = f.buffer.startOffset + f.buffer.data.length := rfl
    cases hop
    refine hf.resumesAt hg hmore (by omega) (by omega) hground (readRecent_spec hf.intact n).1
      (readRecent_start hf.intact n) ?_
    intro k hk
    rw [position_concat, if_pos (show Event.client (.recent c _) = c from rfl)] at hk
    obtain ⟨_, -, hk⟩ := map_eq_some_iff.mp hk
    exact hk.symm

end Resume

namespace Sample

def four (retained : Nat) : List Observation := [{ retained, exchanged := true }, { retained := 4, exchanged := true }]

/-- `ESC [ 3 8 m a b c` in a buffer of four bytes: `m` is left of the sequence and the client resumes
behind it. -/
theorem resumed_behind : ∃ f, [.register 1, .push [0x1b, 0x5b, 0x33, 0x38, 0x6d, 0x61, 0x62, 0x63] 100 (four 8)].foldlM
      apply (.new 4) = some f ∧ (f.buffer.readForClient 1 10).1.bytes = [0x61, 0x62, 0x63] ∧
    ∃ f₁, f.apply (.read 1 10) = some f₁ ∧ ResumesAt 1 (f.buffer.readForClient 1 10).1 f₁.history f₁ := by
  have hread : ([.register 1, .push [0x1b, 0x5b, 0x33, 0x38, 0x6d, 0x61, 0x62, 0x63] 100 (four 8)].foldlM
      apply (.new 4)).map (fun f => (f.buffer.readForClient 1 10).1) =
      some { bytes := [0x61, 0x62, 0x63], streamStart := 5, streamEnd := 8, streamGap := true } := by decide +kernel
  have hground : ([.register 1, .push [0x1b, 0x5b, 0x33, 0x38, 0x6d, 0x61, 0x62, 0x63] 100 (four 8)].foldlM
      apply (.new 4)).map (fun f => (f.buffer.startOffset, f.stream.length, phaseAt f.stream 5)) =
      some (4, 8, .ground) := by decide +kernel
  obtain ⟨f, hf, hr⟩ := map_eq_some_iff.mp hread
  rw [hf] at hground
  obtain ⟨hlo, hlength, hphase⟩ : f.buffer.startOffset = 4 ∧ f.stream.length = 8 ∧ phaseAt f.stream 5 = .ground := by
    simpa using hground
  refine ⟨f, hf, by rw [hr], _, rfl, ?_⟩
  refine (safe_resume 4 hf (show ([] : List Op).foldlM apply _ = some _ from rfl)).1 rfl (by rw [hr]) ?_
  exact ⟨5, by omega, by omega, hphase⟩

/-- `ESC [ 3 8 ; 5` fills the buffer, the client finds a gap and is given nothing. The rest of the
sequence, `1 m`, is then the first it is given. -/
theorem resumed_inside :
    ([.register 1, .push [0x1b, 0x5b, 0x33, 0x38, 0x3b, 0x35] 100 (four 6), .read 1 10, .push [0x31, 0x6d] 100 (four 6),
        .read 1 10].foldlM apply (.new 4)).map (fun f => (readsOf 1 f.history, phaseAt f.stream 6)) =
      some ([{ bytes := [], streamStart := 6, streamEnd := 6, streamGap := true },
        { bytes := [0x31, 0x6d], streamStart := 6, streamEnd := 8, streamGap := false }], .csi) := by decide +kernel

end Sample
end Bmux.Output
