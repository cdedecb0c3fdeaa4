import Bmux.L5Runtime.OutputBuffer

/-!
# The output budget of a node

All output buffers of a node count their bytes in one counter. A push adds its chunk to the counter
before its bytes are there, and takes bytes off before it drains them, each in one atomic operation;
pushes and drops of other buffers come between any two of them.

* `Accounted`: the counter is the sum of what each buffer has in it (`share`), wherever the pushes stand,
  and the buffers without a push keep to the cap together.
* `node_budget`: what follows for every run of a node.

The counter is an integer here, so a subtraction that would wrap in the source shows as a number below
zero. A node never has 2^64 bytes.
-/
namespace Bmux.Output
open List OutputFanoutBuffer

inductive PushPhase where
  | idle
  /-- the chunk is counted and not stored yet -/
  | counted (chunk : Bytes)
  /-- at the head of the loop -/
  | checking (contentionRetries : Nat)
  /-- about to exchange the value loaded -/
  | exchanging (contentionRetries : Nat) (retained : Int)
  /-- exchanged, before the drain -/
  | draining (remove : Nat)
  /-- a byte is popped and still counted -/
  | popped
  deriving DecidableEq

namespace OutputFanoutBuffer

def extend (b : OutputFanoutBuffer) (chunk : Bytes) : OutputFanoutBuffer :=
  let tracked := trackEscapes b.escPhase b.escSpans b.endOffset chunk
  { b with data := b.data ++ chunk, escPhase := tracked.1, escSpans := tracked.2 }

def excess (b : OutputFanoutBuffer) (nodeMaxBytes : Nat) (retained : Int) : Nat :=
  min (max (b.data.length - b.maxBytes) (retained - nodeMaxBytes).toNat) b.data.length

end OutputFanoutBuffer

structure Writer where
  buffer : OutputFanoutBuffer
  phase : PushPhase := .idle

/-- What a push does up to its next operation on the counter.
mirrors plugins/pane-runtime-plugin/src/runtime.rs:4945-5031 -/
def Writer.step (nodeMaxBytes : Nat) (counter : Int) (w : Writer) : Int × Writer :=
  let b := w.buffer
  match w.phase with
  | .idle => (counter, w)
  | .counted chunk => (counter, ⟨b.extend chunk, .checking 0⟩)
  | .checking retries =>
    if b.excess nodeMaxBytes counter = 0 then (counter, ⟨b.prune, .idle⟩)
    else (counter, ⟨b, .exchanging retries counter⟩)
  | .exchanging retries retained =>
    let remove := b.excess nodeMaxBytes retained
    if counter = retained then (retained - remove, ⟨b, .draining remove⟩)
    else if retries + 1 < 8 then (counter, ⟨b, .checking (retries + 1)⟩)
    else (counter, ⟨b.dropFront 1, .popped⟩)
  | .draining remove => (counter, ⟨b.dropFront remove, .checking 0⟩)
  | .popped => (counter - 1, ⟨b, .checking 0⟩)

structure Node where
  counter : Int := 0
  writers : Multiset Writer := 0

/-- One operation of a node: a buffer is made, begins a push, goes on with it or is dropped.
mirrors plugins/pane-runtime-plugin/src/runtime.rs:4886-4909, 4945-5031 -/
inductive Node.Step (cap : Nat) : Node → Node → Prop where
  | create {counter : Int} {ws : Multiset Writer} (maxBytes : Nat) :
      Step cap ⟨counter, ws⟩ ⟨counter, ⟨.withAccounting maxBytes, .idle⟩ ::ₘ ws⟩
  | push {counter : Int} {ws : Multiset Writer} {b : OutputFanoutBuffer} (chunk : Bytes) :
      Step cap ⟨counter, ⟨b, .idle⟩ ::ₘ ws⟩ ⟨counter + chunk.length, ⟨b, .counted chunk⟩ ::ₘ ws⟩
  | step {counter : Int} {ws : Multiset Writer} {w : Writer} :
      Step cap ⟨counter, w ::ₘ ws⟩ ⟨(w.step cap counter).1, (w.step cap counter).2 ::ₘ ws⟩
  | drop {counter : Int} {ws : Multiset Writer} {b : OutputFanoutBuffer} :
      Step cap ⟨counter, ⟨b, .idle⟩ ::ₘ ws⟩ ⟨counter - b.data.length, ws⟩

/-- Every interleaving, from a node without buffers. -/
inductive Node.Reachable (cap : Nat) : Node → Prop where
  | start : Reachable cap {}
  | next {s s' : Node} : Reachable cap s → Node.Step cap s s' → Reachable cap s'

/-! ## Shares -/

namespace Writer

def share (w : Writer) : Nat :=
  match w.phase with
  | .counted chunk => w.buffer.data.length + chunk.length
  | .draining remove => w.buffer.data.length - remove
  | .popped => w.buffer.data.length + 1
  | _ => w.buffer.data.length

def settled (w : Writer) : Nat := if w.phase = .idle then w.buffer.data.length else 0

/-- What a push knows of its buffer. -/
def Sound (w : Writer) : Prop :=
  match w.phase with
  | .idle => w.buffer.data.length ≤ w.buffer.maxBytes
  | .exchanging _ retained => 0 < w.buffer.data.length ∧ w.buffer.data.length ≤ retained
  | _ => True

variable {counter : Int} {w : Writer}

theorem settled_le (w : Writer) : w.settled ≤ w.share := by
  unfold settled share
  split
  · next hidle => rw [hidle]
  · exact zero_le

theorem step_share (hw : w.Sound) (cap : Nat) (counter : Int) :
    (w.step cap counter).1 - (w.step cap counter).2.share = counter - w.share := by
  obtain ⟨b, phase⟩ := w
  cases phase with
  | idle => rfl
  | counted chunk => simp [step, share, extend]
  | checking retries =>
    simp only [step]
    split <;> rfl
  | exchanging retries retained =>
    have hpos : 0 < b.data.length := hw.1
    simp only [step]
    split_ifs with hsame
    · simp only [share, excess]
      omega
    · rfl
    · simp only [share, dropFront, length_drop]
      omega
  | draining remove => simp [step, share, dropFront]
  | popped =>
    simp only [step, share]
    omega

/-- It ends a push with the counter within the cap, or with an empty buffer. -/
theorem step_sound (hw : w.Sound) (cap : Nat) (hle : w.share ≤ counter) : (w.step cap counter).2.Sound ∧
    ((w.step cap counter).2.settled ≤ w.settled ∨
      (w.step cap counter).2.settled ≤ w.share ∧ counter ≤ cap) := by
  obtain ⟨b, phase⟩ := w
  cases phase with
  | idle => exact ⟨hw, .inl le_rfl⟩
  | counted | draining | popped => exact ⟨trivial, .inl le_rfl⟩
  | checking retries =>
    have hexcess : b.excess cap counter = min (max (b.data.length - b.maxBytes) _) _ := rfl
    by_cases hnone : b.excess cap counter = 0
    · simp only [step, if_pos hnone]
      show b.data.length ≤ b.maxBytes ∧ (b.data.length ≤ 0 ∨ b.data.length ≤ b.data.length ∧ counter ≤ cap)
      omega
    · simp only [step, if_neg hnone]
      exact ⟨⟨show 0 < b.data.length by omega, hle⟩, .inl le_rfl⟩
  | exchanging retries retained =>
    simp only [step]
    split_ifs <;> exact ⟨trivial, .inl le_rfl⟩

end Writer

def shares (ws : Multiset Writer) : Nat := (ws.map Writer.share).sum

structure Accounted (cap : Nat) (s : Node) : Prop where
  counter : s.counter = shares s.writers
  sound : ∀ w ∈ s.writers, w.Sound
  within : (s.writers.map Writer.settled).sum ≤ cap

section
variable {cap : Nat} {s s' : Node}

theorem accounted_cons {counter : Int} {w : Writer} {ws : Multiset Writer} : Accounted cap ⟨counter, w ::ₘ ws⟩ ↔
    counter = w.share + shares ws ∧ (w.Sound ∧ ∀ v ∈ ws, v.Sound) ∧ w.settled + (ws.map Writer.settled).sum ≤ cap := by
  refine ⟨fun ⟨hcounter, hsound, hwithin⟩ => ?_, fun ⟨hcounter, hsound, hwithin⟩ => ⟨?_, ?_, ?_⟩⟩
  all_goals simp_all [shares]

/-- Every operation on the counter accounts for what it adds or takes. -/
theorem Accounted.step (h : Accounted cap s) (hstep : Node.Step cap s s') : Accounted cap s' := by
  cases hstep with
  | create maxBytes =>
    refine accounted_cons.mpr ⟨?_, ⟨zero_le, h.sound⟩, ?_⟩
    · simpa [Writer.share, withAccounting] using h.counter
    · simpa [Writer.settled, withAccounting] using h.within
  | @push counter ws b chunk =>
    obtain ⟨hcounter, ⟨_, hsound⟩, hwithin⟩ := accounted_cons.mp h
    refine accounted_cons.mpr ⟨?_, ⟨trivial, hsound⟩, (Nat.add_le_add_right zero_le _).trans hwithin⟩
    simp only [Writer.share] at hcounter ⊢
    omega
  | @step counter ws w =>
    obtain ⟨hcounter, ⟨hw, hsound⟩, hwithin⟩ := accounted_cons.mp h
    have hshare := Writer.step_share hw cap counter
    obtain ⟨hnext, hend⟩ := Writer.step_sound hw cap (show w.share ≤ counter by omega)
    refine accounted_cons.mpr ⟨by omega, ⟨hnext, hsound⟩, ?_⟩
    -- a push that ends within the cap ends with all shares within it
    have hrest : (ws.map Writer.settled).sum ≤ shares ws := Multiset.sum_map_le_sum_map _ _ fun w _ => w.settled_le
    omega
  | drop =>
    obtain ⟨hcounter, ⟨_, hsound⟩, hwithin⟩ := accounted_cons.mp h
    refine ⟨?_, hsound, le_trans (Nat.le_add_left _ _) hwithin⟩
    simp only [Writer.share] at hcounter ⊢
    omega

theorem Node.Reachable.accounted (h : Node.Reachable cap s) : Accounted cap s := by
  induction h with
  | start => exact ⟨rfl, nofun, zero_le⟩
  | next _ hstep ih => exact ih.step hstep

/-- **The output budget.** Whatever the interleaving: the counter and what an exchange leaves of it are not below
zero, and a buffer without a push is within its own maximum; dropped, it leaves the shares of the others. While no push
runs the counter is the bytes retained, within the cap. -/
theorem node_budget (h : Node.Reachable cap s) :
    0 ≤ s.counter ∧
    (∀ w ∈ s.writers, ∀ retries retained, w.phase = .exchanging retries retained →
      w.buffer.excess cap retained ≤ retained) ∧
    (∀ w ∈ s.writers, w.phase = .idle → w.buffer.data.length ≤ w.buffer.maxBytes) ∧
    (∀ b ws, s.writers = ⟨b, .idle⟩ ::ₘ ws → s.counter - b.data.length = shares ws) ∧
    ((∀ w ∈ s.writers, w.phase = .idle) →
      s.counter = (s.writers.map (·.buffer.data.length)).sum ∧ s.counter ≤ cap) := by
  obtain ⟨hcounter, hsound, hwithin⟩ := h.accounted
  refine ⟨by omega, fun w hw retries retained hphase => ?_, fun w hw hidle => ?_, fun b ws hws => ?_, fun hidle => ?_⟩
  · have hw := hsound w hw
    simp only [Writer.Sound, hphase] at hw
    unfold excess
    omega
  · simpa only [Writer.Sound, hidle] using hsound w hw
  · simp [hcounter, hws, shares, Writer.share]
  · have hshare : s.writers.map Writer.share = s.writers.map (·.buffer.data.length) :=
      Multiset.map_congr rfl fun w hw => by rw [Writer.share, hidle w hw]
    have hsettled : s.writers.map Writer.settled = s.writers.map (·.buffer.data.length) :=
      Multiset.map_congr rfl fun w hw => if_pos (hidle w hw)
    rw [hsettled] at hwithin
    rw [shares, hshare] at hcounter
    omega

end

def pushed : Node :=
  ⟨1, ⟨{ withAccounting 2 with data := [9] }, .idle⟩ ::ₘ ⟨{ withAccounting 2 with startOffset := 2 }, .idle⟩ ::ₘ 0⟩

/-- A byte is counted for one buffer while the push to the other is about to exchange, which fails and takes its two
bytes off at the second attempt. -/
theorem pushed_budget : Node.Reachable 1 pushed ∧ pushed.counter ≤ 1 := by
  have hcreated : Node.Reachable 1 _ := (Node.Reachable.start.next (.create 2)).next (.create 2)
  have hloaded : Node.Reachable 1 ⟨2, ⟨_, .exchanging 0 2⟩ ::ₘ ⟨withAccounting 2, .idle⟩ ::ₘ 0⟩ :=
    ((hcreated.next (.push [7, 8])).next .step).next .step
  rw [Multiset.cons_swap] at hloaded
  have hcounted := hloaded.next (.push [9])
  rw [Multiset.cons_swap] at hcounted
  have hfailed : Node.Reachable 1 ⟨3, ⟨_, .checking 1⟩ ::ₘ ⟨withAccounting 2, .counted [9]⟩ ::ₘ 0⟩ :=
    hcounted.next .step
  have hended : Node.Reachable 1 ⟨1, ⟨_, .idle⟩ ::ₘ ⟨withAccounting 2, .counted [9]⟩ ::ₘ 0⟩ :=
    (((hfailed.next .step).next .step).next .step).next .step
  rw [Multiset.cons_swap] at hended
  have hrun : Node.Reachable 1 pushed := (hended.next .step).next .step
  exact ⟨hrun, ((node_budget hrun).2.2.2.2 (by decide)).2⟩

end Bmux.Output
