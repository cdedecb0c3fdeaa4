import Bmux.L5Interface.HitRegions

/-!
# Coalesced damage (`packages/tui/src/damage.rs`)

Damaged regions are clipped to the viewport and merged into bounding rectangles until no two of them
overlap or touch. Too many of them, or too large a part of the viewport, are promoted to full damage.

What is left is the least family of separate rectangles that covers the regions (`Coalesced`), and there
is one such family only. The order of the regions is therefore not seen (`regions_coalesced`).
-/
namespace Bmux.Tui
open List Rect Damage

structure DamagePolicy where
  maxRegions : Nat := 64
  maxAreaPercent : Nat := 60

namespace Rect

def area (r : Rect) : Nat := r.width * r.height

def touchesOrOverlaps (left right : Rect) : Bool :=
  left.x ≤ right.right ∧ right.x ≤ left.right ∧ left.y ≤ right.bottom ∧ right.y ≤ left.bottom

def union (left right : Rect) : Rect :=
  let x := if left.x < right.x then left.x else right.x
  let y := if left.y < right.y then left.y else right.y
  let rightEdge := if left.right > right.right then left.right else right.right
  let bottom := if left.bottom > right.bottom then left.bottom else right.bottom
  ⟨x, y, rightEdge - x, bottom - y⟩

/-- The key of the sort, packages/tui/src/damage.rs:60 -/
def key (r : Rect) : ℕ ×ₗ ℕ ×ₗ ℕ ×ₗ ℕ := toLex (r.y, toLex (r.x, toLex (r.height, r.width)))

end Rect

/-- `Vec::swap_remove`: the last one takes the place of the removed one. -/
def swapRemove (merged : List Rect) (index : Nat) : List Rect :=
    (merged.getLast?.elim merged (merged.set index ·)).dropLast

theorem perm_swapRemove {merged : List Rect} {index : Nat} (h : index < merged.length) :
    (merged[index] :: swapRemove merged index).Perm merged := by
  obtain rfl | ⟨front, last, rfl⟩ := eq_nil_or_concat merged
  · cases h
  · rw [length_concat] at h
    simp only [swapRemove, getLast?_concat, Option.elim_some, concat_eq_append]
    obtain hi | rfl := Nat.lt_succ_iff_lt_or_eq.1 h
    · rw [getElem_append_left hi, set_append_left _ _ hi, dropLast_concat]
      refine ((set_perm_cons_eraseIdx hi last).cons _).trans ((Perm.swap ..).trans ?_)
      exact ((getElem_cons_eraseIdx_perm hi).cons last).trans (perm_append_singleton last front).symm
    · simpa using (perm_append_singleton last front).symm

/-- The loop over what is retained. It starts again when the region grows, packages/tui/src/damage.rs:49-58 -/
def absorb (merged : List Rect) (next : Rect) (index : Nat) : List Rect :=
  if h : index < merged.length then
    if merged[index].touchesOrOverlaps next then absorb (swapRemove merged index) (merged[index].union next) 0
    else absorb merged next (index + 1)
  else merged ++ [next]
termination_by (merged.length, merged.length - index)
decreasing_by
  · have := (perm_swapRemove h).length_eq
    simp only [length_cons] at this
    exact Prod.Lex.left _ _ (by omega)
  · exact Prod.Lex.right _ (by omega)

/-- The loop over the regions, packages/tui/src/damage.rs:43-59 -/
def merge (regions : List Rect) (viewport : Rect) : List Rect :=
  regions.foldl (fun merged region =>
    let next := region.intersection viewport
    if next.isEmpty then merged else absorb merged next 0) []

def u64Max : Nat := 2 ^ 64 - 1

/-- mirrors packages/tui/src/damage.rs:38-79 -/
def Damage.ofRegions (regions : List Rect) (viewport : Rect) (policy : DamagePolicy) : Damage :=
  let merged := (merge regions viewport).mergeSort fun a b => a.key ≤ b.key
  if merged.isEmpty then .none
  else if viewport.area = 0 then .none
  else
    let damagedArea := merged.foldl (fun total region => min (total + region.area) u64Max) 0
    let damagedPercent := min (damagedArea * 100) u64Max / viewport.area
    if merged.length > policy.maxRegions ∨ damagedPercent ≥ policy.maxAreaPercent then .full else .regions merged

namespace Rect

variable {a b c d : Rect}

theorem isEmpty_eq_false : a.isEmpty = false ↔ 0 < a.width ∧ 0 < a.height := by
  simp only [isEmpty, decide_eq_false_iff_not]
  omega

theorem touches_iff : a.touchesOrOverlaps b = true ↔ a.x ≤ b.right ∧ b.x ≤ a.right ∧ a.y ≤ b.bottom ∧
    b.y ≤ a.bottom := by
  simp [touchesOrOverlaps]

/-- It has cells, and its edges are in the terminal space. -/
def Solid (r : Rect) : Prop := (0 < r.width ∧ 0 < r.height) ∧ r.x + r.width ≤ 65535 ∧ r.y + r.height ≤ 65535

def Within (a b : Rect) : Prop := b.x ≤ a.x ∧ a.right ≤ b.right ∧ b.y ≤ a.y ∧ a.bottom ≤ b.bottom

theorem Within.refl (a : Rect) : a.Within a := ⟨le_rfl, le_rfl, le_rfl, le_rfl⟩

theorem Within.trans (h : a.Within b) (h' : b.Within c) : a.Within c := by
  unfold Within at *
  omega

theorem Within.contains {p : Point} (h : a.Within b) (hp : a.contains p = true) : b.contains p = true := by
  rw [contains_iff] at *
  unfold Within at h
  omega

theorem touches_of_within (hac : a.Within c) (hbd : b.Within d) (h : a.touchesOrOverlaps b = true) :
    c.touchesOrOverlaps d = true := by
  rw [touches_iff] at *
  unfold Within at *
  omega

theorem touches_comm (h : a.touchesOrOverlaps b = true) : b.touchesOrOverlaps a = true := by
  rw [touches_iff] at *
  omega

theorem Solid.touches_self (h : a.Solid) : a.touchesOrOverlaps a = true := by
  rw [touches_iff]
  unfold Solid right bottom at *
  omega

theorem Solid.eq_of_within (ha : a.Solid) (hb : b.Solid) (h : a.Within b) (h' : b.Within a) : a = b := by
  obtain ⟨x, y, width, height⟩ := a
  obtain ⟨x', y', width', height'⟩ := b
  simp only [Solid, Within, right, bottom] at ha hb h h'
  simp only [mk.injEq]
  omega

theorem Solid.union (ha : a.Solid) (hb : b.Solid) : (a.union b).Solid := by
  simp only [Solid, right, bottom, Rect.union] at *
  grind

theorem union_within_iff (ha : a.Solid) (hb : b.Solid) : (a.union b).Within c ↔ a.Within c ∧ b.Within c := by
  simp only [Solid, Within, right, bottom, union] at *
  grind

theorem solid_intersection (h : (a.intersection b).isEmpty = false) :
    (a.intersection b).Solid ∧ (a.intersection b).Within b := by
  rw [isEmpty_eq_false] at h
  simp only [Solid, Within, right, bottom, intersection] at h ⊢
  omega

theorem contains_intersection {p : Point} : (a.intersection b).contains p = true ↔ a.contains p = true ∧
    b.contains p = true := by
  simp only [contains_iff, intersection, right, bottom]
  omega

end Rect

/-- Rectangles no two of which overlap or touch. -/
def Separate (family : List Rect) : Prop := ∀ a ∈ family, ∀ b ∈ family, a.touchesOrOverlaps b = true → a = b

def Covers (regions family : List Rect) : Prop := ∀ r ∈ regions, ∃ m ∈ family, r.Within m

structure Family (merged : List Rect) : Prop where
  solid : ∀ m ∈ merged, m.Solid
  separate : Separate merged
  nodup : merged.Nodup

/-- The least separate family that covers the regions. -/
structure Coalesced (regions merged : List Rect) : Prop extends Family merged where
  covers : Covers regions merged
  least : ∀ family, Separate family → Covers regions family → Covers merged family

section Families

variable {regions merged merged' : List Rect} {next : Rect}

theorem Family.of_subperm (h : Family merged) (hsub : merged'.Subperm merged) : Family merged' :=
  ⟨fun m hm => h.solid m (hsub.subset hm), fun a ha b hb => h.separate a (hsub.subset ha) b (hsub.subset hb), by
    obtain ⟨l, hperm, hl⟩ := hsub
    exact hperm.nodup_iff.1 (h.nodup.sublist hl)⟩

/-- Of two least families, each is part of the other. -/
theorem Coalesced.subset (h : Coalesced regions merged) (h' : Coalesced regions merged') : merged ⊆ merged' := by
  intro m hm
  obtain ⟨m', hm', hin⟩ := h.least merged' h'.separate h'.covers m hm
  obtain ⟨n, hn, hin'⟩ := h'.least merged h.separate h.covers m' hm'
  have hsame : m = n :=
    h.separate m hm n hn (touches_of_within (.refl m) (hin.trans hin') (h.solid m hm).touches_self)
  rw [← hsame] at hin'
  rwa [(h.solid m hm).eq_of_within (h'.solid m' hm') hin hin']

theorem Coalesced.perm (h : Coalesced regions merged) (h' : Coalesced regions merged') : merged.Perm merged' :=
  (perm_ext_iff_of_nodup h.nodup h'.nodup).2 fun _ => ⟨fun hm => h.subset h' hm, fun hm => h'.subset h hm⟩

theorem Family.pushed (h : Family merged) (hnext : next.Solid)
    (hapart : ∀ m ∈ merged, m.touchesOrOverlaps next = false) :
    Coalesced (next :: merged) (merged ++ [next]) where
  solid := forall_mem_append.2 ⟨h.solid, forall_mem_singleton.2 hnext⟩
  separate a ha b hb htouch := by
    simp only [mem_append, mem_singleton] at ha hb
    obtain ha | rfl := ha <;> obtain hb | rfl := hb
    · exact h.separate a ha b hb htouch
    · exact absurd htouch (by simp [hapart a ha])
    · exact absurd (touches_comm htouch) (by simp [hapart b hb])
    · rfl
  nodup := by
    refine nodup_append.2 ⟨h.nodup, nodup_singleton _, fun m hm n hn heq => ?_⟩
    have hm := hapart m hm
    rw [heq, mem_singleton.1 hn, hnext.touches_self] at hm
    cases hm
  covers r hr := ⟨r, by simpa [or_comm] using hr, .refl r⟩
  least family _ hfamily m hm := hfamily m (by simpa [or_comm] using hm)

/-- The loop joins the region with what touches it until all are apart. -/
theorem coalesced_absorb (h : Family merged) (hnext : next.Solid) (index : Nat)
    (hapart : ∀ m ∈ merged.take index, m.touchesOrOverlaps next = false) :
      Coalesced (next :: merged) (absorb merged next index) := by
  -- along the loop: what is behind the index was seen not to touch the region
  fun_induction absorb merged next index with
  | case1 merged next index hindex htouch ih =>
    have hperm := perm_swapRemove hindex
    have hm := h.solid _ (getElem_mem hindex)
    have hgrown := ih (h.of_subperm ((sublist_cons_self ..).subperm.trans hperm.subperm)) (hm.union hnext) (by simp)
    have hboth := (union_within_iff hm hnext).1 (.refl _)
    refine ⟨hgrown.toFamily, fun r hr => ?_, fun family hseparate hfamily => hgrown.least family hseparate ?_⟩
    · obtain rfl | hr := mem_cons.1 hr
      · obtain ⟨m, hm, hin⟩ := hgrown.covers _ (mem_cons_self ..)
        exact ⟨m, hm, hboth.2.trans hin⟩
      · obtain rfl | hr := mem_cons.1 (hperm.mem_iff.2 hr)
        · obtain ⟨m, hm, hin⟩ := hgrown.covers _ (mem_cons_self ..)
          exact ⟨m, hm, hboth.1.trans hin⟩
        · exact hgrown.covers r (mem_cons_of_mem _ hr)
    · intro r hr
      obtain rfl | hr := mem_cons.1 hr
      · -- the touching two lie in touching members, which are one
        obtain ⟨f, hf, hin⟩ := hfamily merged[index] (by simp)
        obtain ⟨f', hf', hin'⟩ := hfamily next (by simp)
        rw [← hseparate f hf f' hf' (touches_of_within hin hin' htouch)] at hin'
        exact ⟨f, hf, (union_within_iff hm hnext).2 ⟨hin, hin'⟩⟩
      · exact hfamily r (mem_cons_of_mem _ (hperm.mem_iff.1 (mem_cons_of_mem _ hr)))
  | case2 merged next index hindex htouch ih =>
    refine ih h hnext ?_
    rw [take_succ_eq_append_getElem hindex]
    exact forall_mem_append.2 ⟨hapart, forall_mem_singleton.2 (by simpa using htouch)⟩
  | case3 merged next index hindex =>
    rw [take_of_length_le (not_lt.1 hindex)] at hapart
    exact h.pushed hnext hapart

theorem Coalesced.absorb (h : Coalesced regions merged) (hnext : next.Solid) :
    Coalesced (regions ++ [next]) (absorb merged next 0) := by
  have hnew := coalesced_absorb h.toFamily hnext 0 (by simp)
  refine ⟨hnew.toFamily, fun r hr => ?_, fun family hseparate hfamily => hnew.least family hseparate ?_⟩
  · obtain hr | hr := mem_append.1 hr
    · obtain ⟨m, hm, hin⟩ := h.covers r hr
      obtain ⟨n, hn, hin'⟩ := hnew.covers m (mem_cons_of_mem _ hm)
      exact ⟨n, hn, hin.trans hin'⟩
    · exact hnew.covers r (by simp [mem_singleton.1 hr])
  · intro r hr
    obtain rfl | hr := mem_cons.1 hr
    · exact hfamily r (by simp)
    · exact h.least family hseparate (fun r hr => hfamily r (mem_append_left _ hr)) r hr

def clipped (viewport : Rect) (regions : List Rect) : List Rect :=
    (regions.map (·.intersection viewport)).filter (!·.isEmpty)

theorem coalesced_merge (viewport : Rect) (regions : List Rect) :
    Coalesced (clipped viewport regions) (merge regions viewport) := by
  induction regions using reverseRecOn with
  | nil => exact ⟨⟨by simp [merge], by simp [merge, Separate], by simp [merge]⟩, by simp [clipped, Covers],
      fun _ _ _ => by simp [merge, Covers]⟩
  | append_singleton regions r ih =>
    rw [merge, foldl_append, ← merge]
    simp only [clipped, map_append, filter_append, foldl_cons, foldl_nil, map_cons, map_nil] at ih ⊢
    cases hempty : (r.intersection viewport).isEmpty with
    | true => simpa [hempty] using ih
    | false => simpa [hempty] using ih.absorb (solid_intersection hempty).1

theorem merge_within {viewport m : Rect} (hm : m ∈ merge regions viewport) : m.Within viewport := by
  have hone : Separate [viewport] := by simp [Separate]
  obtain ⟨v, hv, hin⟩ := (coalesced_merge viewport regions).least [viewport] hone (fun r hr => by
    obtain ⟨q, -, rfl⟩ := mem_map.1 (mem_filter.1 hr).1
    exact ⟨viewport, by simp, (solid_intersection (by simpa using (mem_filter.1 hr).2)).2⟩) m hm
  rwa [mem_singleton.1 hv] at hin

theorem covers_cell {viewport r : Rect} {p : Point} (hr : r ∈ regions) (hp : r.contains p = true)
    (hv : viewport.contains p = true) :
    ∃ m ∈ merge regions viewport, m.contains p = true := by
  have hcell := contains_intersection.2 ⟨hp, hv⟩
  have hsolid : (r.intersection viewport).isEmpty = false := by
    have h := contains_iff.1 hcell
    simp only [right, bottom] at h
    rw [isEmpty_eq_false]
    omega
  have hmem : r.intersection viewport ∈ clipped viewport regions := mem_filter.2 ⟨mem_map_of_mem hr, by simp [hsolid]⟩
  obtain ⟨m, hm, hin⟩ := (coalesced_merge viewport regions).covers _ hmem
  exact ⟨m, hm, hin.contains hcell⟩

end Families

theorem Rect.eq_of_key {a b : Rect} (h : a.key ≤ b.key) (h' : b.key ≤ a.key) : a = b := by
  have heq := le_antisymm h h'
  simp only [key, toLex_inj, Prod.mk.injEq] at heq
  obtain ⟨x, y, width, height⟩ := a
  simp_all

/-- Two orders of the regions are merged and sorted alike. -/
theorem sorted_merge {regions regions' : List Rect} (viewport : Rect) (h : regions.Perm regions') :
    ((merge regions viewport).mergeSort fun a b => a.key ≤ b.key) = (merge regions' viewport).mergeSort fun a b =>
      a.key ≤ b.key := by
  have hclipped : (clipped viewport regions).Perm (clipped viewport regions') := (h.map _).filter _
  have hmerge := coalesced_merge viewport regions'
  have hperm := (coalesced_merge viewport regions).perm
    ⟨hmerge.toFamily, fun r hr => hmerge.covers r (hclipped.subset hr),
      fun family hs hf => hmerge.least family hs fun r hr => hf r (hclipped.symm.subset hr)⟩
  have hsorted : ∀ l : List Rect, (l.mergeSort fun a b => a.key ≤ b.key).Pairwise fun a b => a.key ≤ b.key :=
    fun l => by
    refine (@pairwise_mergeSort _ (fun a b : Rect => decide (a.key ≤ b.key)) ?_ ?_ l).imp of_decide_eq_true
    · simpa using fun a b c => le_trans
    · simpa using fun a b => le_total _ _
  exact (((mergeSort_perm ..).trans hperm).trans (mergeSort_perm ..).symm).eq_of_pairwise
    (fun a b _ _ => eq_of_key) (hsorted _) (hsorted _)

variable (regions : List Rect) (viewport : Rect) (policy : DamagePolicy)

theorem Damage.ofRegions_cases : (ofRegions regions viewport policy = .none ∧
    (merge regions viewport = [] ∨ viewport.area = 0)) ∨
      ofRegions regions viewport policy = .full ∨
      ofRegions regions viewport policy = .regions ((merge regions viewport).mergeSort fun a b => a.key ≤ b.key) := by
  unfold ofRegions
  dsimp only
  split
  · rename_i hnil
    have hperm := mergeSort_perm (merge regions viewport) fun a b => a.key ≤ b.key
    rw [isEmpty_iff.1 hnil] at hperm
    exact .inl ⟨rfl, .inl hperm.nil_eq.symm⟩
  · split
    · exact .inl ⟨rfl, .inr ‹_›⟩
    · split
      · exact .inr (.inl rfl)
      · exact .inr (.inr rfl)

/-- **Damage coalescing.** Regions that are left are separate and cover what was damaged, none are left only if
nothing in the viewport was damaged, and the order of the damaged regions is not seen. -/
theorem regions_coalesced : (∀ rs, ofRegions regions viewport policy = .regions rs →
      (∀ r ∈ rs, r.isEmpty = false ∧ r.Within viewport) ∧
      rs.Pairwise (fun a b => a.right < b.x ∨ b.right < a.x ∨ a.bottom < b.y ∨ b.bottom < a.y) ∧
      ∀ r ∈ regions, ∀ p, r.contains p = true → viewport.contains p = true → ∃ m ∈ rs, m.contains p = true) ∧
    (ofRegions regions viewport policy = .none → ∀ r ∈ regions, ∀ p,
      ¬(r.contains p = true ∧ viewport.contains p = true)) ∧
    ∀ regions', regions.Perm regions' → ofRegions regions' viewport policy = ofRegions regions viewport policy := by
  have hmerge := coalesced_merge viewport regions
  have hperm := mergeSort_perm (merge regions viewport) fun a b => a.key ≤ b.key
  have hcases := ofRegions_cases regions viewport policy
  refine ⟨fun rs hrs => ?_, fun hnone r hr p hp => ?_, fun regions' h => ?_⟩
  · rw [hrs] at hcases
    obtain ⟨hcase, -⟩ | hcase | hcase := hcases <;> cases hcase
    refine ⟨fun r hr => ?_, ?_, fun r hr p hp hv => ?_⟩
    · have hr := hperm.subset hr
      exact ⟨isEmpty_eq_false.2 (hmerge.solid r hr).1, merge_within hr⟩
    · refine (hperm.nodup_iff.2 hmerge.nodup).pairwise_of_forall_ne fun a ha b hb hne => ?_
      have hapart := mt (hmerge.separate a (hperm.subset ha) b (hperm.subset hb)) hne
      rw [touches_iff] at hapart
      omega
    · obtain ⟨m, hm, hin⟩ := covers_cell hr hp hv
      exact ⟨m, hperm.symm.subset hm, hin⟩
  · obtain ⟨m, hm, -⟩ := covers_cell hr hp.1 hp.2
    have hv := contains_iff.1 hp.2
    simp only [right, bottom] at hv
    rw [hnone] at hcases
    obtain ⟨-, hnil | harea⟩ | hcase | hcase := hcases
    · simp [hnil] at hm
    · obtain hw | hh := Nat.mul_eq_zero.1 harea <;> omega
    · cases hcase
    · cases hcase
  · simp only [ofRegions, sorted_merge viewport h]

end Bmux.Tui
