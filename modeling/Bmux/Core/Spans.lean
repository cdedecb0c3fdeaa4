import Mathlib

/-!
# Spans that mark the positions inside something

Positions of a stream are inside or outside of something (a quoted string, a comment, an escape
sequence). A list of spans in ascending order marks those inside, the last span being without an end
while the stream's end is inside. `Marks spans lo hi inside` says that a list does so from `lo` to
`hi`. The lemmas say what to do to the list as the stream grows by one position, that the front may be
dropped as `lo` grows, and that a position is inside at most one span, which a search by starting
positions finds.
-/
namespace Bmux.Spans
open List

/-- From a position up to, but not including, another, or without an end. -/
abbrev Span := Nat × Option Nat

def Covers (span : Span) (o : Nat) : Prop := span.1 ≤ o ∧ ∀ stop ∈ span.2, o < stop

def Before (a b : Span) : Prop := ∃ stop, a.2 = some stop ∧ stop < b.1

structure Marks (spans : List Span) (lo hi : Nat) (inside : Nat → Prop) : Prop where
  ascending : spans.Pairwise Before
  proper : ∀ span ∈ spans, span.1 ≤ hi ∧ ∀ stop ∈ span.2, span.1 < stop ∧ stop ≤ hi ∧ ¬inside stop
  covered : ∀ o, lo ≤ o → o ≤ hi → (inside o ↔ ∃ span ∈ spans, Covers span o)

variable {spans : List Span} {lo hi : Nat} {inside : Nat → Prop}

theorem marks_start (h : ¬inside lo) : Marks [] lo lo inside := by
  refine ⟨.nil, nofun, ?_⟩
  intro o hlo hhi
  cases le_antisymm hhi hlo
  exact ⟨fun hin => absurd hin h, nofun⟩

section
variable (h : Marks spans lo hi inside)
include h

theorem Marks.congr {inside' : Nat → Prop} (hsame : ∀ o, o ≤ hi → (inside' o ↔ inside o)) :
    Marks spans lo hi inside' := by
  refine ⟨h.ascending, ?_, ?_⟩
  · intro span hmem
    obtain ⟨hstart, hstop⟩ := h.proper span hmem
    refine ⟨hstart, ?_⟩
    intro stop hmem'
    obtain ⟨h₁, h₂, h₃⟩ := hstop stop hmem'
    exact ⟨h₁, h₂, fun hin => h₃ ((hsame stop h₂).mp hin)⟩
  · intro o hlo hhi
    rw [hsame o hhi]
    exact h.covered o hlo hhi

variable {span : Span}

theorem Marks.open_of_covers (hmem : span ∈ spans) (hcovers : Covers span hi) : span.2 = none := by
  cases hstop : span.2 with
  | none => rfl
  | some stop =>
    have hle := ((h.proper span hmem).2 stop hstop).2.1
    have hlt := hcovers.2 stop hstop
    omega

theorem Marks.last_of_open (hmem : span ∈ spans) (hopen : span.2 = none) :
    ∃ front, spans = front ++ [span] := by
  obtain ⟨front, back, rfl⟩ := append_of_mem hmem
  cases back with
  | nil => exact ⟨front, rfl⟩
  | cons next back =>
    have hpair := (pairwise_cons.mp (pairwise_append.mp h.ascending).2.1).1 next mem_cons_self
    obtain ⟨stop, hstop, -⟩ := hpair
    rw [hopen] at hstop
    cases hstop

/-- Outside, every span has an end: one without would reach the last position. -/
theorem Marks.closed_of_out (hlo : lo ≤ hi) (hout : ¬inside hi)
    (hmem : span ∈ spans) : ∃ stop, span.2 = some stop := by
  cases hstop : span.2 with
  | some stop => exact ⟨stop, rfl⟩
  | none =>
    refine absurd ((h.covered hi hlo le_rfl).mpr ⟨span, hmem, (h.proper span hmem).1, ?_⟩) hout
    rw [hstop]
    exact nofun

theorem Marks.proper_succ (hmem : span ∈ spans) :
    span.1 ≤ hi + 1 ∧ ∀ stop ∈ span.2, span.1 < stop ∧ stop ≤ hi + 1 ∧ ¬inside stop := by
  obtain ⟨hstart, hstop⟩ := h.proper span hmem
  refine ⟨by omega, ?_⟩
  intro stop hmem'
  obtain ⟨h₁, h₂, h₃⟩ := hstop stop hmem'
  exact ⟨h₁, by omega, h₃⟩

end

/-! ## Growth -/

theorem Marks.next {spans' : List Span} (h : Marks spans lo hi inside) (hasc : spans'.Pairwise Before)
    (hproper : ∀ span ∈ spans', span.1 ≤ hi + 1 ∧ ∀ stop ∈ span.2, span.1 < stop ∧ stop ≤ hi + 1 ∧ ¬inside stop)
    (hold : ∀ o ≤ hi, (∃ span ∈ spans, Covers span o) ↔ ∃ span ∈ spans', Covers span o)
    (hnew : inside (hi + 1) ↔ ∃ span ∈ spans', Covers span (hi + 1)) : Marks spans' lo (hi + 1) inside := by
  refine ⟨hasc, hproper, ?_⟩
  intro o hlo ho
  rcases lt_or_ge hi o with hlast | hle
  · cases le_antisymm ho hlast
    exact hnew
  · exact (h.covered o hlo hle).trans (hold o hle)

theorem exists_snoc {front : List Span} {last : Span} {P : Span → Prop} :
    (∃ span ∈ front ++ [last], P span) ↔ (∃ span ∈ front, P span) ∨ P last := by
  simp [or_and_right, exists_or]

section
variable (h : Marks spans lo hi inside) (hlo : lo ≤ hi)
include h hlo

theorem Marks.not_covers_succ (hout : ¬inside hi) : ¬∃ span ∈ spans, Covers span (hi + 1) := by
  rintro ⟨span, hmem, hcovers⟩
  obtain ⟨stop, hstop⟩ := h.closed_of_out hlo hout hmem
  have hle := ((h.proper span hmem).2 stop hstop).2.1
  have hlt := hcovers.2 stop hstop
  omega

theorem Marks.stay_out (hout : ¬inside hi) (hnext : ¬inside (hi + 1)) :
    Marks spans lo (hi + 1) inside :=
  h.next h.ascending (fun _ => h.proper_succ) (fun _ _ => Iff.rfl) (iff_of_false hnext (h.not_covers_succ hlo hout))

theorem Marks.stay_in (hin : inside hi) (hnext : inside (hi + 1)) :
    Marks spans lo (hi + 1) inside := by
  refine h.next h.ascending (fun _ => h.proper_succ) (fun _ _ => Iff.rfl) (iff_of_true hnext ?_)
  obtain ⟨span, hmem, hcovers⟩ := (h.covered hi hlo le_rfl).mp hin
  refine ⟨span, hmem, Nat.le_succ_of_le hcovers.1, ?_⟩
  rw [h.open_of_covers hmem hcovers]
  exact nofun

/-- The next position is inside: a span is opened. -/
theorem Marks.enter (hout : ¬inside hi) (hnext : inside (hi + 1)) :
    Marks (spans ++ [(hi + 1, none)]) lo (hi + 1) inside := by
  refine h.next ?_ ?_ ?_ ?_
  · refine pairwise_append.mpr ⟨h.ascending, pairwise_singleton _ _, ?_⟩
    intro span hmem last hlast
    cases mem_singleton.mp hlast
    obtain ⟨stop, hstop⟩ := h.closed_of_out hlo hout hmem
    have hle := ((h.proper span hmem).2 stop hstop).2.1
    exact ⟨stop, hstop, by omega⟩
  · exact forall_mem_append.mpr ⟨fun _ => h.proper_succ, forall_mem_singleton.mpr ⟨le_rfl, nofun⟩⟩
  · intro o ho
    rw [exists_snoc]
    exact (or_iff_left fun hcovers => absurd (hcovers.1.trans ho) (Nat.not_succ_le_self hi)).symm
  · rw [exists_snoc]
    exact iff_of_true hnext (.inr ⟨le_rfl, nofun⟩)

end

/-- The next position is outside: the open span ends. -/
theorem Marks.leave {front : List Span} {start : Nat} (h : Marks (front ++ [(start, none)]) lo hi inside)
    (hnext : ¬inside (hi + 1)) : Marks (front ++ [(start, some (hi + 1))]) lo (hi + 1) inside := by
  obtain ⟨hasc, -, hlast⟩ := pairwise_append.mp h.ascending
  have hstart : start ≤ hi := (h.proper _ (mem_append_right _ (mem_singleton_self _))).1
  have hbefore : ∀ span ∈ front, ∃ stop, span.2 = some stop ∧ stop < start :=
    fun span hmem => hlast span hmem _ (mem_singleton_self _)
  refine h.next ?_ ?_ ?_ ?_
  · refine pairwise_append.mpr ⟨hasc, pairwise_singleton _ _, ?_⟩
    exact fun span hmem => forall_mem_singleton.mpr (hbefore span hmem)
  · intro span hmem
    rcases mem_append.mp hmem with hmem | hmem
    · exact h.proper_succ (mem_append_left _ hmem)
    · cases mem_singleton.mp hmem
      refine ⟨by omega, ?_⟩
      intro stop hstop
      cases hstop
      exact ⟨by omega, le_rfl, hnext⟩
  · intro o ho
    rw [exists_snoc, exists_snoc]
    refine or_congr_right ⟨fun hcovers => ⟨hcovers.1, ?_⟩, fun hcovers => ⟨hcovers.1, nofun⟩⟩
    intro stop hstop
    cases hstop
    exact Nat.lt_succ_of_le ho
  · rw [exists_snoc]
    refine iff_of_false hnext ?_
    rintro (⟨span, hmem, hcovers⟩ | hcovers)
    · obtain ⟨stop, hstop, hlt⟩ := hbefore span hmem
      have := hcovers.2 stop hstop
      omega
    · exact absurd (hcovers.2 _ rfl) (lt_irrefl _)

theorem Marks.dropWhile (h : Marks spans lo hi inside) {lo' : Nat} (hlo : lo ≤ lo') {past : Span → Bool}
    (hpast : ∀ span ∈ spans, past span = true → ∃ stop, span.2 = some stop ∧ stop ≤ lo') :
    Marks (spans.dropWhile past) lo' hi inside := by
  have hsub : (spans.dropWhile past).Sublist spans := dropWhile_sublist _
  refine ⟨h.ascending.sublist hsub, fun span hmem => h.proper span (hsub.subset hmem), ?_⟩
  intro o hlo' ho
  rw [h.covered o (le_trans hlo hlo') ho]
  constructor
  · rintro ⟨span, hmem, hcovers⟩
    refine ⟨span, ?_, hcovers⟩
    rw [← takeWhile_append_dropWhile (p := past) (l := spans)] at hmem
    rcases mem_append.mp hmem with htaken | hkept
    · obtain ⟨stop, hstop, hle⟩ := hpast span ((takeWhile_sublist _).subset htaken) (mem_takeWhile_imp htaken)
      have := hcovers.2 stop hstop
      omega
    · exact hkept
  · rintro ⟨span, hmem, hcovers⟩
    exact ⟨span, hsub.subset hmem, hcovers⟩

/-! ## Search -/

theorem Marks.starts (h : Marks spans lo hi inside) : spans.Pairwise fun a b => a.1 < b.1 := by
  refine h.ascending.imp_of_mem ?_
  rintro a b ha hb ⟨stop, hstop, hlt⟩
  have := ((h.proper a ha).2 stop hstop).1
  omega

/-- Around the span that covers a position: those before start before it, those after start after it. -/
theorem Marks.split (h : Marks spans lo hi inside) {front back : List Span} {span : Span}
    (hspans : spans = front ++ span :: back)
    {o : Nat} (hcovers : Covers span o) : (∀ a ∈ front, a.1 < span.1) ∧ ∀ b ∈ back, o < b.1 := by
  subst hspans
  constructor
  · intro a ha
    exact (pairwise_append.mp h.starts).2.2 a ha span mem_cons_self
  · intro b hb
    obtain ⟨stop, hstop, hlt⟩ := (pairwise_cons.mp (pairwise_append.mp h.ascending).2.1).1 b hb
    have := hcovers.2 stop hstop
    omega

end Bmux.Spans
