import Mathlib

/-!
# Following a changing collection through a log of changed keys

A source holds an item per key, a sequence number and a log of the keys that changed, each with the
sequence number of its change. Old entries of the log are dropped from the front. A follower that
knows the items as of some sequence number is right about every key that the log does not name
since, as long as the log still reaches back that far (`Follows`).

`Advances` is what a change of the source has to satisfy for that: what changes is logged with a
higher number than any follower has seen. It composes, so a change made of several is checked part
by part.
-/
namespace Bmux.ChangeLog
open List

variable {κ α : Type}

structure Source (κ α : Type) where
  items : κ → Option α
  sequence : Nat
  log : List (Nat × κ)

variable (s : Source κ α) (log : List (Nat × κ)) (since : Nat)

def touched : List κ := (log.filter fun e => since < e.1).map Prod.snd

/-- No entry after the sequence number has been dropped, as far as the first entry shows. -/
def Reaches : Prop := ∀ e ∈ log.head?, e.1 ≤ since

/-- The log's numbers ascend up to the source's. -/
structure Ordered : Prop where
  ascending : s.log.Pairwise fun a b => a.1 ≤ b.1
  bounded : ∀ e ∈ s.log, e.1 ≤ s.sequence

/-- A change: the keys of `new` changed, their entries are appended, and some of the oldest dropped,
but not all. -/
structure Advances (s t : Source κ α) : Prop where
  sequence : s.sequence ≤ t.sequence
  logged : ∃ new n, t.log = (s.log ++ new).drop n ∧ (s.log ++ new ≠ [] → t.log ≠ []) ∧
    new.Pairwise (fun a b => a.1 ≤ b.1) ∧
    (∀ e ∈ new, s.sequence < e.1 ∧ e.1 ≤ t.sequence) ∧ ∀ k, k ∉ new.map Prod.snd → t.items k = s.items k

theorem Advances.refl : Advances s s := by
  refine ⟨le_rfl, [], 0, by simp, by simp, by simp, nofun, ?_⟩
  intro k _
  rfl

variable {s t : Source κ α}

/-- A change that is not logged and changes nothing. -/
theorem Advances.quiet (hitems : t.items = s.items) (hlog : t.log = s.log)
    (hsequence : s.sequence ≤ t.sequence) : Advances s t := by
  refine ⟨hsequence, [], 0, by simp [hlog], by simp [hlog], by simp, nofun, ?_⟩
  intro k _
  rw [hitems]

theorem drop_append_drop {β : Type} (a b : List β) (m n : Nat) : ∃ k, (a.drop m ++ b).drop n = (a ++ b).drop k := by
  by_cases h : m ≤ a.length
  · refine ⟨m + n, ?_⟩
    rw [← drop_append_of_le_length h, drop_drop]
  · refine ⟨a.length + n, ?_⟩
    simp [drop_of_length_le (Nat.le_of_not_le h)]

/-- A change made of two is one change. -/
theorem Advances.trans {u : Source κ α} (h₁ : Advances s t) (h₂ : Advances t u) : Advances s u := by
  obtain ⟨new₁, n₁, hlog₁, hne₁, hasc₁, hseq₁, hitems₁⟩ := h₁.logged
  obtain ⟨new₂, n₂, hlog₂, hne₂, hasc₂, hseq₂, hitems₂⟩ := h₂.logged
  have hle₁ := h₁.sequence
  have hle₂ := h₂.sequence
  obtain ⟨k, hk⟩ := drop_append_drop (s.log ++ new₁) new₂ n₁ n₂
  refine ⟨le_trans hle₁ hle₂, new₁ ++ new₂, k, ?_, ?_, ?_, ?_, ?_⟩
  · rw [hlog₂, hlog₁, hk, append_assoc]
  · intro hne
    refine hne₂ ?_
    intro hnil
    obtain ⟨ht, hnew⟩ := append_eq_nil_iff.mp hnil
    refine hne₁ ?_ ht
    simpa [hnew] using hne
  · refine pairwise_append.mpr ⟨hasc₁, hasc₂, ?_⟩
    intro a ha b hb
    have := (hseq₁ a ha).2
    have := (hseq₂ b hb).1
    omega
  · intro e he
    rcases mem_append.mp he with he | he
    · have := hseq₁ e he
      omega
    · have := hseq₂ e he
      omega
  · intro key hkey
    rw [map_append, mem_append, not_or] at hkey
    rw [hitems₂ key hkey.2, hitems₁ key hkey.1]

theorem Advances.ordered (h : Advances s t) (hs : Ordered s) : Ordered t := by
  obtain ⟨new, n, hlog, -, hasc, hseq, -⟩ := h.logged
  have hle := h.sequence
  have hsub : t.log.Sublist (s.log ++ new) := hlog ▸ drop_sublist _ _
  constructor
  · refine List.Pairwise.sublist hsub (pairwise_append.mpr ⟨hs.ascending, hasc, ?_⟩)
    intro a ha b hb
    have := hs.bounded a ha
    have := (hseq b hb).1
    omega
  · intro e he
    rcases mem_append.mp (hsub.subset he) with he | he
    · have := hs.bounded e he
      omega
    · exact (hseq e he).2

/-- The follower's items are the source's, but for the keys logged since. -/
structure Follows (known : κ → Option α) (since : Nat) (s : Source κ α) : Prop where
  ordered : Ordered s
  seen : since ≤ s.sequence
  right : Reaches s.log since → ∀ k, k ∉ touched s.log since → known k = s.items k

variable {since n : Nat}

variable {known : κ → Option α} {log : List (Nat × κ)}

/-- What was dropped from an ascending log that still reaches back was not touched since. -/
theorem touched_drop (hasc : log.Pairwise fun a b => a.1 ≤ b.1)
    (h : Reaches (log.drop n) since) (hne : log.drop n ≠ []) : touched (log.drop n) since = touched log since := by
  have hfirst : ∀ e ∈ log.take n, e.1 ≤ since := by
    intro e he
    cases hd : log.drop n with
    | nil => exact absurd hd hne
    | cons f rest =>
      have hf : f.1 ≤ since := h f (by rw [hd]; rfl)
      rw [← take_append_drop n log, pairwise_append] at hasc
      exact le_trans (hasc.2.2 e he f (by rw [hd]; exact mem_cons_self)) hf
  unfold touched
  conv_rhs => rw [← take_append_drop n log, filter_append]
  have hempty : (log.take n).filter (fun e => since < e.1) = [] := by
    rw [filter_eq_nil_iff]
    intro e he
    have := hfirst e he
    simpa using this
  rw [hempty, nil_append]

theorem reaches_of_drop (hasc : log.Pairwise fun a b => a.1 ≤ b.1)
    (h : Reaches (log.drop n) since) (hne : log.drop n ≠ []) : Reaches log since := by
  intro e he
  cases hd : log.drop n with
  | nil => exact absurd hd hne
  | cons f rest =>
    have hf : f.1 ≤ since := h f (by rw [hd]; rfl)
    have hmem : f ∈ log := mem_of_mem_drop (by rw [hd]; exact mem_cons_self)
    cases log with
    | nil => cases he
    | cons g log =>
      cases he
      rcases mem_cons.mp hmem with rfl | hmem
      · exact hf
      · exact le_trans ((pairwise_cons.mp hasc).1 f hmem) hf

theorem touched_append (a b : List (Nat × κ)) (since : Nat) :
    touched (a ++ b) since = touched a since ++ touched b since := by
  simp [touched]

/-- A follower stays right but for the keys that the change logs. -/
theorem Follows.advance (h : Follows known since s) (hadv : Advances s t) : Follows known since t := by
  obtain ⟨new, n, hlog, hne, hasc, hseq, hitems⟩ := hadv.logged
  have hseen := h.seen
  refine ⟨hadv.ordered h.ordered, le_trans hseen hadv.sequence, ?_⟩
  intro hreach k hk
  have hall : (s.log ++ new).Pairwise fun a b => a.1 ≤ b.1 := by
    refine pairwise_append.mpr ⟨h.ordered.ascending, hasc, ?_⟩
    intro a ha b hb
    have := h.ordered.bounded a ha
    have := (hseq b hb).1
    omega
  by_cases hempty : s.log ++ new = []
  · obtain ⟨hs, hnew⟩ := append_eq_nil_iff.mp hempty
    rw [hitems k (by simp [hnew])]
    exact h.right (by simp [Reaches, hs]) k (by simp [touched, hs])
  · have hdrop := hne hempty
    rw [hlog] at hreach hdrop hk
    rw [touched_drop hall hreach hdrop, touched_append, mem_append, not_or] at hk
    -- every new entry is over what the follower has seen
    have hnew : touched new since = new.map Prod.snd := by
      unfold touched
      rw [filter_eq_self.mpr]
      intro e he
      have := (hseq e he).1
      simp only [decide_eq_true_eq]
      omega
    rw [hnew] at hk
    rw [hitems k hk.2]
    refine h.right ?_ k hk.1
    have hwhole := reaches_of_drop hall hreach hdrop
    intro e he
    refine hwhole e ?_
    cases hs : s.log with
    | nil => rw [hs] at he; cases he
    | cons f rest => rw [hs] at he; exact he

/-- A follower that has seen the last change knows everything. -/
theorem Follows.current (h : Follows known s.sequence s) : known = s.items := by
  funext k
  refine h.right ?_ k ?_
  · intro e he
    exact h.ordered.bounded e (mem_of_mem_head? he)
  · simp only [touched, mem_map, mem_filter, decide_eq_true_eq, not_exists, not_and]
    intro e he
    have := h.ordered.bounded e he.1
    omega

theorem follows_items (h : Ordered s) : Follows s.items s.sequence s :=
  ⟨h, le_rfl, fun _ _ _ => rfl⟩

end Bmux.ChangeLog
