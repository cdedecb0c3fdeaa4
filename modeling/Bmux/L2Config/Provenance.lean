import Bmux.L2Config.ConfigMerge

/-!
# Who supplied each node of a merged document

`supplier` says, from the two values and the policy alone, which document a node of the merged value
comes from and at which path it was there. `merge_provenance` shows that a merge keeps a source for
exactly the nodes of the value, and that it is the source the supplier had.

A key that both tables have is merged again, so the supplier of a node below it is found one table
further down. An appended element is looked up at its index less the length of the array before it.
-/
namespace Bmux.Config
open Std (ExtTreeMap)
open List ConfigValue PathSegment TreeMap

inductive Supplier where
  | old
  | new (path : ValuePath)
  deriving DecidableEq, Repr

/-- The supplier of a node below a key, from the one below the value of that key. -/
def Supplier.under (s : PathSegment) : Supplier → Supplier
  | .old => .old
  | .new q => .new (s :: q)

/-- The document that supplies the node at a path below two merged values. -/
def supplier (policy : MergePolicy) : ValuePath → ConfigValue → ConfigValue → ValuePath → Supplier
  | _, _, _, [] => .new []
  | path, .table old, .table new, .key k :: q =>
    if (policy.rule path).tables = .recursive then
      match lookup old k, lookup new k with
      | _, none => .old
      | none, some _ => .new (.key k :: q)
      | some o, some n => (supplier policy (path ++ [.key k]) o n q).under (.key k)
    else .new (.key k :: q)
  | path, .array old, .array _, .index i :: q =>
    if (policy.rule path).arrays = .append then
      if i < old.length then .old else .new (.index (i - old.length) :: q)
    else .new (.index i :: q)
  | _, _, _, s :: q => .new (s :: q)

def ConfigValue.head : ConfigValue → ConfigValue
  | .array _ => .array []
  | .table _ => .table []
  | v => v

def below (origins : Origins) (path q : ValuePath) : Option SourceId := origins[path ++ q]?

/-- There is a source for exactly the nodes of the value. -/
def Covers (sources : ValuePath → Option SourceId) (v : ConfigValue) : Prop :=
  ∀ q, (sources q).isSome = (v.at q).isSome

variable {q p path : ValuePath}

theorem Covers.eq_none {sources : ValuePath → Option SourceId} {v : ConfigValue} (h : Covers sources v)
    (hq : v.at q = none) : sources q = none := by
  have := h q
  rw [hq] at this
  simpa using this

/-- Every node of the merged value is its supplier's, with the source it had there. An old node is kept
with all below it; of a new one the children may have been merged. -/
structure Supplied (policy : MergePolicy) (path : ValuePath) (old new : ConfigValue)
    (before given after : ValuePath → Option SourceId) (v : ConfigValue) : Prop where
  kept : ∀ q, supplier policy path old new q = .old → after q = before q ∧ v.at q = old.at q
  taken : ∀ q q', supplier policy path old new q = .new q' →
    after q = given q' ∧ (v.at q).map head = (new.at q').map head

/-! ## The maps of sources -/

theorem below_replaceOrigins (path : ValuePath) (origins incoming : Origins) :
    below (replaceOrigins path origins incoming) path = below incoming path := by
  funext q
  unfold below replaceOrigins
  have hnodup : (((incoming.toList.filter fun kv => path.isPrefixOf kv.1).map Prod.fst)).Nodup :=
    nodup_keys_toList.sublist (filter_sublist.map _)
  cases h : incoming[path ++ q]? with
  | some source =>
    refine getElem?_insertMany_of_mem hnodup ?_
    rw [mem_filter]
    exact ⟨ExtTreeMap.mem_toList_iff_getElem?_eq_some.mpr h, isPrefixOf_iff_prefix.mpr (prefix_append _ _)⟩
  | none =>
    rw [getElem?_insertMany_of_not_mem]
    · have : path.isPrefixOf (path ++ q) = true := isPrefixOf_iff_prefix.mpr (prefix_append _ _)
      simp [this]
    · intro hmem
      obtain ⟨kv, hkv, hk⟩ := mem_map.mp hmem
      have := ExtTreeMap.mem_toList_iff_getElem?_eq_some.mp (mem_filter.mp hkv).1
      rw [hk, h] at this
      cases this

theorem replaceOrigins_outside (h : ¬ path <+: p) (origins incoming : Origins) :
    (replaceOrigins path origins incoming)[p]? = origins[p]? := by
  unfold replaceOrigins
  rw [getElem?_insertMany_of_not_mem]
  · have : path.isPrefixOf p = false := Bool.eq_false_iff.mpr (mt isPrefixOf_iff_prefix.mp h)
    rw [ExtTreeMap.getElem?_filter']
    simp only [this, Bool.not_false]
    cases origins[p]? <;> rfl
  · intro hmem
    obtain ⟨kv, hkv, hk⟩ := mem_map.mp hmem
    exact h (hk ▸ isPrefixOf_iff_prefix.mp (mem_filter.mp hkv).2)

variable {incoming : Origins}

theorem adoptOrigin_root {origins : Origins} (h : incoming[path]?.isSome) :
    (adoptOrigin path origins incoming)[path]? = incoming[path]? := by
  unfold adoptOrigin
  obtain ⟨source, hs⟩ := Option.isSome_iff_exists.mp h
  rw [hs]
  simp

theorem adoptOrigin_of_ne (h : p ≠ path) (origins incoming : Origins) :
    (adoptOrigin path origins incoming)[p]? = origins[p]? := by
  unfold adoptOrigin
  split
  · rw [TreeMap.getElem?_insert, if_neg (Ne.symm h)]
  · rfl

theorem below_adopted (origins : Origins) (s : PathSegment) :
    below (adoptOrigin path origins incoming) (path ++ [s]) = below origins (path ++ [s]) :=
  funext fun _ => adoptOrigin_of_ne (by simp) _ _

def PathSegment.shift (offset : Nat) : PathSegment → PathSegment
  | .key k => .key k
  | .index i => .index (i + offset)

theorem PathSegment.shift_injective (offset : Nat) : Function.Injective (shift offset) := by
  intro a b h
  cases a <;> cases b <;> simp_all [shift]

theorem shifted_append (path : ValuePath) (offset : Nat) (s : PathSegment) (q : ValuePath) :
    shifted path offset (path ++ s :: q) = path ++ s.shift offset :: q := by
  unfold shifted
  rw [drop_left]
  cases s <;> rfl

variable {offset : Nat}

theorem mem_beneath {e : ValuePath × SourceId} :
    e ∈ incoming.toList.filter (fun kv => path.isPrefixOf kv.1 ∧ kv.1.length > path.length) ↔
      incoming[e.1]? = some e.2 ∧ ∃ s q, e.1 = path ++ s :: q := by
  rw [mem_filter, decide_eq_true_iff, isPrefixOf_iff_prefix]
  refine and_congr ExtTreeMap.mem_toList_iff_getElem?_eq_some ⟨?_, ?_⟩
  · rintro ⟨⟨_ | ⟨s, q⟩, hp⟩, hlen⟩
    · simp [← hp] at hlen
    · exact ⟨s, q, hp.symm⟩
  · rintro ⟨s, q, hp⟩
    simp [hp]

theorem mem_shifted {source : SourceId} :
    (p, source) ∈ ((incoming.toList.filter fun kv => path.isPrefixOf kv.1 ∧ kv.1.length > path.length).map
      fun kv => (shifted path offset kv.1, kv.2)) ↔
    ∃ s q, p = path ++ s.shift offset :: q ∧ incoming[path ++ s :: q]? = some source := by
  constructor
  · intro h
    obtain ⟨⟨key, src⟩, hkv, he⟩ := mem_map.mp h
    obtain ⟨hsome, s, q, rfl⟩ := mem_beneath.mp hkv
    cases he
    exact ⟨s, q, shifted_append _ _ _ _, hsome⟩
  · rintro ⟨s, q, rfl, h⟩
    exact mem_map.mpr ⟨(path ++ s :: q, source), mem_beneath.mpr ⟨h, s, q, rfl⟩, by rw [shifted_append]⟩

theorem nodup_shifted (path : ValuePath) (offset : Nat) (incoming : Origins) :
    (((incoming.toList.filter fun kv => path.isPrefixOf kv.1 ∧ kv.1.length > path.length).map
      fun kv => (shifted path offset kv.1, kv.2)).map Prod.fst).Nodup := by
  have heq : (Prod.fst ∘ fun kv : ValuePath × SourceId => (shifted path offset kv.1, kv.2)) =
    shifted path offset ∘ Prod.fst := rfl
  rw [map_map, heq, ← map_map]
  refine List.Nodup.map_on ?_ (nodup_keys_toList.sublist (filter_sublist.map _))
  intro x hx y hy hxy
  obtain ⟨k, hk, rfl⟩ := mem_map.mp hx
  obtain ⟨l, hl, rfl⟩ := mem_map.mp hy
  obtain ⟨-, s, q, hk⟩ := mem_beneath.mp hk
  obtain ⟨-, t, r, hl⟩ := mem_beneath.mp hl
  simp only [hk, hl, shifted_append, append_cancel_left_eq, List.cons.injEq] at hxy ⊢
  exact ⟨shift_injective offset hxy.1, hxy.2⟩

theorem appendOrigins_moved {s : PathSegment} {source : SourceId}
    (origins : Origins) (h : incoming[path ++ s :: q]? = some source) :
    (appendOrigins path offset origins incoming)[path ++ s.shift offset :: q]? = some source :=
  getElem?_insertMany_of_mem (nodup_shifted path offset incoming) (mem_shifted.mpr ⟨s, q, rfl, h⟩)

theorem appendOrigins_kept (origins : Origins)
    (h : ∀ s q, p = path ++ shift offset s :: q → incoming[path ++ s :: q]? = none) :
    (appendOrigins path offset origins incoming)[p]? = origins[p]? := by
  refine getElem?_insertMany_of_not_mem ?_
  intro hmem
  obtain ⟨⟨k, source⟩, hk, rfl⟩ := mem_map.mp hmem
  obtain ⟨s, q, hp, hsome⟩ := mem_shifted.mp hk
  rw [h s q hp] at hsome
  cases hsome

/-! ## Replaced, appended and overlaid values -/

section Cases

variable {policy : MergePolicy} {incoming origins origins' : Origins} {path : ValuePath}

variable {old new v : ConfigValue}

section
variable (htables : ∀ o n, old = .table o → new = .table n → (policy.rule path).tables ≠ .recursive)
  (harrays : ∀ o n, old = .array o → new = .array n → (policy.rule path).arrays ≠ .append)
include htables harrays

theorem supplier_replaced (q : ValuePath) : supplier policy path old new q = .new q := by
  unfold supplier
  split
  · rfl
  · rw [if_neg (htables _ _ rfl rfl)]
  · rw [if_neg (harrays _ _ rfl rfl)]
  · rfl

theorem supplied_replaced : Supplied policy path old new (below origins path) (below incoming path)
      (below (replaceOrigins path origins incoming) path) new := by
  constructor
  · intro q hq
    rw [supplier_replaced htables harrays] at hq
    cases hq
  · intro q q' hq
    rw [supplier_replaced htables harrays] at hq
    cases hq
    simp [below_replaceOrigins]

end

/-- Below the path itself the sources are kept, but for those that an incoming one is moved to. -/
theorem below_appended {s : PathSegment} {offset : Nat}
    (h : ∀ t, s = shift offset t → incoming[path ++ t :: q]? = none) :
    below (appendOrigins path offset (adoptOrigin path origins incoming) incoming) path (s :: q) =
      below origins path (s :: q) := by
  unfold below
  rw [appendOrigins_kept, adoptOrigin_of_ne (by simp)]
  intro t r hp
  obtain ⟨hs, rfl⟩ := List.cons.inj (append_cancel_left hp)
  exact h t hs

theorem below_root (hroot : origins'[path]? = (adoptOrigin path origins incoming)[path]?)
    (hnew : Covers (below incoming path) new) : below origins' path [] = below incoming path [] := by
  have hsome : (below incoming path []).isSome := by rw [hnew]; rfl
  unfold below at hsome ⊢
  rw [append_nil] at hsome ⊢
  rw [hroot, adoptOrigin_root hsome]

/-- An array appended to an array: the nodes of the new one are found at shifted indices. -/
theorem supplied_appended {old new : List ConfigValue} (happend : (policy.rule path).arrays = .append)
    (hold : Covers (below origins path) (.array old)) (hnew : Covers (below incoming path) (.array new)) :
    Supplied policy path (.array old) (.array new) (below origins path) (below incoming path)
      (below (appendOrigins path old.length (adoptOrigin path origins incoming) incoming) path)
      (.array (old ++ new)) := by
  constructor
  · intro q hq
    cases q with
    | nil => cases hq
    | cons s q =>
      cases s with
      | key k => cases hq
      | index i =>
        rw [supplier] at hq
        split_ifs at hq with hi
        refine ⟨below_appended ?_, by simp only [at_cons, child, getElem?_append_left hi]⟩
        rintro (k | j) ⟨⟩
        omega
  · intro q q' hq
    cases q with
    | nil =>
      cases hq
      refine ⟨below_root (appendOrigins_kept _ ?_) hnew, rfl⟩
      intro s r hp
      simp at hp
    | cons s q =>
      cases s with
      | key k =>
        cases hq
        have hnone : below incoming path (.key k :: q) = none := hnew.eq_none rfl
        refine ⟨?_, rfl⟩
        rw [below_appended, hold.eq_none rfl, hnone]
        rintro (k' | j) ⟨⟩
        exact hnone
      | index i =>
        rw [supplier] at hq
        split_ifs at hq with hi
        cases hq
        refine ⟨?_, by simp only [at_cons, child, getElem?_append_right (Nat.le_of_not_lt hi)]⟩
        obtain ⟨j, rfl⟩ := Nat.exists_eq_add_of_le' (Nat.le_of_not_lt hi)
        rw [Nat.add_sub_cancel]
        cases hs : below incoming path (.index j :: q) with
        | some source => exact appendOrigins_moved _ hs
        | none =>
          rw [below_appended, hold.eq_none (by simp [child])]
          intro t ht
          rw [← shift_injective _ (show shift old.length (.index j) = _ from ht)]
          exact hs

/-- What has become of an incoming key: merged into the entry that was there, or taken as it is. -/
def Entered (policy : MergePolicy) (path : ValuePath) (old : Option ConfigValue) (new : ConfigValue)
    (before given after : ValuePath → Option SourceId) (v : ConfigValue) : Prop :=
  match old with
  | some old => Supplied policy path old new before given after v
  | none => v = new ∧ after = given

structure Overlaid (policy : MergePolicy) (incoming : Origins) (path : ValuePath) (old new : Entries)
    (origins : Origins) (old' : Entries) (origins' : Origins) : Prop where
  outside : ∀ p, (∀ k, lookup new k ≠ none → ¬ path ++ [.key k] <+: p) → origins'[p]? = origins[p]?
  absent : ∀ k, lookup new k = none → lookup old' k = lookup old k
  entered : ∀ k n, lookup new k = some n → ∃ v, lookup old' k = some v ∧
    Entered policy (path ++ [.key k]) (lookup old k) n (below origins (path ++ [.key k]))
      (below incoming (path ++ [.key k])) (below origins' (path ++ [.key k])) v

variable {s : PathSegment}

theorem not_below_sibling {t : PathSegment} (h : s ≠ t) (q : ValuePath) : ¬ path ++ [s] <+: path ++ [t] ++ q := by
  rw [append_assoc, prefix_append_right_inj]
  intro hp
  exact h (cons_prefix_cons.mp hp).1

theorem not_below_parent (s : PathSegment) : ¬ path ++ [s] <+: path := by
  intro h
  have := h.length_le
  simp at this

def MergesAt (policy : MergePolicy) (incoming : Origins) (new : ConfigValue) : Prop :=
  ∀ ⦃old v : ConfigValue⦄ ⦃path : ValuePath⦄ ⦃origins origins' : Origins⦄,
    mergeValue policy incoming old path origins new = .ok (v, origins') →
    Covers (below origins path) old → Covers (below incoming path) new → new.Ordered →
    (∀ p, ¬ path <+: p → origins'[p]? = origins[p]?) ∧
      Supplied policy path old new (below origins path) (below incoming path) (below origins' path) v

theorem entered_mergeEntry {old : Option ConfigValue} {value : ConfigValue} (hmerge : MergesAt policy incoming value)
    (h : mergeEntry policy incoming old path origins value = .ok (v, origins'))
    (hold : ∀ o, old = some o → Covers (below origins path) o) (hnew : Covers (below incoming path) value)
    (hordered : value.Ordered) : (∀ p, ¬ path <+: p → origins'[p]? = origins[p]?) ∧
      Entered policy path old value (below origins path) (below incoming path) (below origins' path) v := by
  cases old with
  | some o => exact hmerge h (hold o rfl) hnew hordered
  | none =>
    cases h
    exact ⟨fun p hp => replaceOrigins_outside hp _ _, rfl, below_replaceOrigins _ _ _⟩

/-- The loop over the incoming keys. A key is not seen again, so what it became stays. -/
theorem overlaid {new old old' : Entries} (hmerge : ∀ e ∈ new, MergesAt policy incoming e.2)
    (h : mergeEntries policy incoming old path origins new = .ok (old', origins'))
    (hkeys : (new.map Prod.fst).Pairwise (· < ·)) (hordered : ∀ e ∈ new, e.2.Ordered)
    (hold : ∀ e ∈ new, ∀ o, lookup old e.1 = some o → Covers (below origins (path ++ [.key e.1])) o)
    (hnew : ∀ e ∈ new, Covers (below incoming (path ++ [.key e.1])) e.2) :
    Overlaid policy incoming path old new origins old' origins' := by
  induction new generalizing old origins with
  | nil =>
    cases h
    exact ⟨fun _ _ => rfl, fun _ _ => rfl, fun _ _ hk => by cases hk⟩
  | cons e new ih =>
    obtain ⟨key, value⟩ := e
    rw [map_cons, pairwise_cons] at hkeys
    rw [forall_mem_cons] at hmerge hordered hold hnew
    rw [mergeEntries_cons] at h
    obtain ⟨⟨m, os⟩, hm, hrest⟩ := bind_eq_ok.mp h
    obtain ⟨hout, hentered⟩ := entered_mergeEntry hmerge.1 hm hold.1 hnew.1 hordered.1
    have hlast : lookup new key = none := lookup_eq_none.mpr fun hmem => lt_irrefl key (hkeys.1 key hmem)
    -- another key's sources are as they were before this one
    have hother : ∀ k, key ≠ k → below os (path ++ [.key k]) = below origins (path ++ [.key k]) := by
      intro k hk
      funext q
      exact hout _ (not_below_sibling (by simpa using hk) q)
    have hlookup : ∀ k, key ≠ k → lookup (put key m old) k = lookup old k := by
      intro k hk
      rw [lookup_put, if_neg hk]
    have htail : Overlaid policy incoming path (put key m old) new os old' origins' := by
      refine ih hmerge.2 hrest hkeys.2 hordered.2 ?_ hnew.2
      intro e he o ho
      have hne : key ≠ e.1 := fun heq => lt_irrefl key (hkeys.1 key (heq ▸ mem_map_of_mem he))
      rw [hlookup _ hne] at ho
      rw [hother _ hne]
      exact hold.2 e he o ho
    refine ⟨?_, ?_, ?_⟩
    · intro p hp
      rw [htail.outside p, hout p]
      · exact hp key (by simp [lookup])
      · intro k hk
        refine hp k ?_
        rw [lookup]
        split_ifs <;> simp [hk]
    · intro k hk
      rw [lookup] at hk
      split_ifs at hk with heq
      rw [htail.absent k hk, hlookup k heq]
    · intro k n hk
      rw [lookup] at hk
      split_ifs at hk with heq
      · subst heq
        cases hk
        have hafter : below origins' (path ++ [.key key]) = below os (path ++ [.key key]) := by
          funext q
          refine htail.outside _ ?_
          intro k hk
          refine not_below_sibling ?_ q
          rintro ⟨⟩
          exact hk hlast
        refine ⟨m, ?_, ?_⟩
        · rw [htail.absent key hlast, lookup_put, if_pos rfl]
        · rw [hafter]; exact hentered
      · obtain ⟨v, hv, hentered'⟩ := htail.entered k n hk
        rw [hlookup k heq, hother k heq] at hentered'
        exact ⟨v, hv, hentered'⟩

theorem below_cons (origins : Origins) (s : PathSegment) (q : ValuePath) :
    below origins path (s :: q) = below origins (path ++ [s]) q := by
  simp [below]

theorem Covers.child {c : ConfigValue} (h : Covers (below origins path) v) (hc : v.child s = some c) :
    Covers (below origins (path ++ [s])) c := by
  intro q
  rw [← below_cons, h (s :: q), at_cons, hc]
  rfl

theorem Supplier.under_eq_old {x : Supplier} : x.under s = .old ↔ x = .old := by
  cases x <;> simp [Supplier.under]

theorem Supplier.under_eq_new {x : Supplier} {q : ValuePath} :
    x.under s = .new q ↔ ∃ q', x = .new q' ∧ q = s :: q' := by
  cases x <;> simp [Supplier.under, eq_comm]

/-- A table overlaid on a table: each node is looked up below its key. -/
theorem supplied_overlaid {old new old' : Entries} (htables : (policy.rule path).tables = .recursive)
    (hold : Covers (below origins path) (.table old)) (hnew : Covers (below incoming path) (.table new))
    (h : Overlaid policy incoming path old new (adoptOrigin path origins incoming) old' origins') :
    Supplied policy path (.table old) (.table new) (below origins path) (below incoming path)
      (below origins' path) (.table old') := by
  have hentered := h.entered
  simp only [below_adopted] at hentered
  -- the sources below a key that is not among the incoming ones
  have habsent : ∀ s q, (∀ k, s = .key k → lookup new k = none) →
    below origins' path (s :: q) = below origins path (s :: q) := by
    intro s q hs
    rw [below_cons, below_cons, ← below_adopted origins]
    refine h.outside _ ?_
    intro k hk
    refine not_below_sibling ?_ q
    rintro rfl
    exact hk (hs k rfl)
  constructor
  · intro q hq
    cases q with
    | nil => cases hq
    | cons s q =>
      cases s with
      | index i => cases hq
      | key k =>
        rw [supplier, if_pos htables] at hq
        simp only [at_cons, child]
        cases hn : lookup new k with
        | none =>
          rw [h.absent k hn]
          exact ⟨habsent _ q (by rintro _ ⟨⟩; exact hn), rfl⟩
        | some n =>
          obtain ⟨v, hv, he⟩ := hentered k n hn
          cases ho : lookup old k with
          | none => rw [ho, hn] at hq; cases hq
          | some o =>
            rw [ho] at he
            simp only [ho, hn, Supplier.under_eq_old] at hq
            rw [hv, below_cons, below_cons]
            exact he.kept q hq
  · intro q q' hq
    cases q with
    | nil =>
      cases hq
      exact ⟨below_root (h.outside path fun k _ => not_below_parent _) hnew, rfl⟩
    | cons s q =>
      cases s with
      | index i =>
        cases hq
        rw [habsent _ q (fun k hk => by cases hk), hold.eq_none rfl, hnew.eq_none rfl]
        exact ⟨rfl, rfl⟩
      | key k =>
        rw [supplier, if_pos htables] at hq
        simp only [at_cons, child]
        cases hn : lookup new k with
        | none => simp only [hn] at hq; cases hq
        | some n =>
          obtain ⟨v, hv, he⟩ := hentered k n hn
          cases ho : lookup old k with
          | none =>
            rw [ho] at he
            obtain ⟨rfl, hafter⟩ := he
            simp only [ho, hn] at hq
            cases hq
            simp [hv, below_cons, hafter, child, hn]
          | some o =>
            rw [ho] at he
            simp only [ho, hn, Supplier.under_eq_new] at hq
            obtain ⟨r, hr, rfl⟩ := hq
            rw [hv, below_cons, below_cons, at_cons, child, hn]
            exact he.taken q r hr

/-- By induction on the incoming value. -/
theorem mergesAt (new : ConfigValue) : MergesAt policy incoming new := by
  induction new using induction with
  | step new ih =>
    intro old v path origins origins' h hold hnew hordered
    rcases mergeValue_cases h with ⟨o, n, o', rfl, rfl, ht, rfl, he⟩ | ⟨o, n, rfl, rfl, ha, rfl, rfl⟩
      | ⟨rfl, rfl, ht, ha⟩
    · obtain ⟨hkeys, hchildren⟩ := ordered_table.mp hordered
      have hmem : ∀ e ∈ n, lookup n e.1 = some e.2 := fun e he => (mem_iff_lookup hkeys).mp he
      have hover : Overlaid policy incoming path o n (adoptOrigin path origins incoming) o' origins' := by
        refine overlaid (fun e he => ih _ (mem_branches_table he)) he hkeys ?_ ?_ ?_
        · intro e he
          exact hchildren e.1 e.2 (hmem e he)
        · intro e _ c hc
          rw [below_adopted]
          exact hold.child (s := .key e.1) hc
        · intro e he
          exact hnew.child (s := .key e.1) (hmem e he)
      refine ⟨?_, supplied_overlaid ht hold hnew hover⟩
      intro p hp
      rw [hover.outside p, adoptOrigin_of_ne]
      · rintro rfl; exact hp (prefix_refl _)
      · intro k _ hk
        exact hp ((prefix_append _ _).trans hk)
    · refine ⟨?_, supplied_appended ha hold hnew⟩
      intro p hp
      rw [appendOrigins_kept, adoptOrigin_of_ne]
      · rintro rfl; exact hp (prefix_refl _)
      · rintro s q rfl
        exact absurd (prefix_append _ _) hp
    · exact ⟨fun p hp => replaceOrigins_outside hp _ _, supplied_replaced ht ha⟩

theorem Supplied.covers {before given after : ValuePath → Option SourceId}
    (h : Supplied policy path old new before given after v) (hold : Covers before old) (hnew : Covers given new) :
    Covers after v := by
  intro q
  cases hs : supplier policy path old new q with
  | old =>
    obtain ⟨hafter, hv⟩ := h.kept q hs
    rw [hafter, hv, hold]
  | new q' =>
    obtain ⟨hafter, hv⟩ := h.taken q q' hs
    rw [hafter, hnew, ← Option.isSome_map, ← hv, Option.isSome_map]

end Cases

/-! ## Recording -/

theorem mem_branches {v c : ConfigValue} (h : v.Ordered) {s : PathSegment} : (s, c) ∈ v.branches ↔
    v.child s = some c := by
  cases v with
  | table entries =>
    cases s with
    | key k =>
      rw [child, ← mem_iff_lookup (ordered_table.mp h).1]
      simp [branches]
    | index i => simp [branches, child]
  | array values =>
    cases s with
    | key k => simp [branches, child]
    | index i => simp [branches, child, mem_zipIdx_iff_getElem?]
  | _ => simp [branches, child]

def Pending (stack : List (ConfigValue × ValuePath)) (p : ValuePath) : Prop :=
  ∃ e ∈ stack, ∃ q, p = e.2 ++ q ∧ (e.1.at q).isSome

theorem pending_cons {value : ConfigValue} {current : ValuePath} {stack : List (ConfigValue × ValuePath)}
    (h : value.Ordered) : Pending ((value, current) :: stack) p ↔
      p = current ∨ Pending ((value.branches.map fun b => (b.2, current ++ [b.1])).reverse ++ stack) p := by
  constructor
  · rintro ⟨e, he, q, rfl, hq⟩
    rcases mem_cons.mp he with rfl | he
    · cases q with
      | nil => exact .inl (append_nil _)
      | cons s q =>
        rw [at_cons] at hq
        cases hc : value.child s with
        | none => rw [hc] at hq; cases hq
        | some c =>
          rw [hc] at hq
          refine .inr ⟨(c, current ++ [s]), ?_, q, by simp, hq⟩
          simp only [mem_append, mem_reverse, mem_map]
          exact .inl ⟨(s, c), (mem_branches h).mpr hc, rfl⟩
    · exact .inr ⟨e, mem_append_right _ he, q, rfl, hq⟩
  · rintro (rfl | ⟨e, he, q, rfl, hq⟩)
    · exact ⟨_, mem_cons_self, [], (append_nil _).symm, rfl⟩
    · rcases mem_append.mp he with he | he
      · obtain ⟨⟨s, c⟩, hb, rfl⟩ := mem_map.mp (mem_reverse.mp he)
        refine ⟨_, mem_cons_self, s :: q, by simp, ?_⟩
        rw [at_cons, (mem_branches h).mp hb]
        exact hq
      · exact ⟨e, mem_cons_of_mem _ he, q, rfl, hq⟩

/-- The nodes of the trees on the stack are recorded, and nothing else. -/
theorem recordLoop_get (source : SourceId) (stack : List (ConfigValue × ValuePath)) (out : Origins)
    (hordered : ∀ e ∈ stack, e.1.Ordered) (p : ValuePath) :
    (Pending stack p → (recordLoop source stack out)[p]? = some source) ∧
      (¬ Pending stack p → (recordLoop source stack out)[p]? = out[p]?) := by
  induction stack, out using recordLoop.induct source with
  | case1 out =>
    refine ⟨?_, fun _ => by rw [recordLoop]⟩
    rintro ⟨e, he, -⟩
    cases he
  | case2 value current stack out ih =>
    rw [forall_mem_cons] at hordered
    have hstack : ∀ e ∈ (value.branches.map fun b => (b.2, current ++ [b.1])).reverse ++ stack, e.1.Ordered := by
      refine forall_mem_append.mpr ⟨fun e he => ?_, hordered.2⟩
      obtain ⟨⟨s, c⟩, hb, rfl⟩ := mem_map.mp (mem_reverse.mp he)
      exact hordered.1.child ((mem_branches hordered.1).mp hb)
    obtain ⟨hin, hout⟩ := ih hstack
    rw [recordLoop, pending_cons hordered.1]
    by_cases hp : Pending ((value.branches.map fun b => (b.2, current ++ [b.1])).reverse ++ stack) p
    · exact ⟨fun _ => hin hp, fun hn => absurd (.inr hp) hn⟩
    · rw [hout hp, TreeMap.getElem?_insert]
      constructor
      · rintro (rfl | h)
        · rw [if_pos rfl]
        · exact absurd h hp
      · intro hn
        rw [if_neg fun heq => hn (.inl heq.symm)]

def Document.Covered (d : Document) : Prop := Covers (fun p => d.provenance[p]?) d.value

theorem covered_new (value : ConfigValue) (source : SourceId) (ordered : value.Ordered) :
    (Document.new value source ordered).Covered := by
  intro p
  obtain ⟨hin, hout⟩ := recordLoop_get source [(value, [])] ∅ (by simpa using ordered) p
  have hpending : Pending [(value, [])] p ↔ (value.at p).isSome := by
    constructor
    · rintro ⟨e, he, q, rfl, hq⟩
      cases mem_singleton.mp he
      exact hq
    · intro h
      exact ⟨_, mem_singleton_self _, p, rfl, h⟩
  show ((recordLoop source [(value, [])] ∅)[p]?).isSome = (value.at p).isSome
  by_cases h : (value.at p).isSome
  · rw [hin (hpending.mpr h), h]; rfl
  · rw [hout (mt hpending.mp h), Bool.eq_false_iff.mpr h]; simp

/-! ## Whole merges -/

section Default

variable {policy : MergePolicy} {incoming : Origins}

theorem mergeEntriesReplace_cons {old : Entries} {key : String} {value : ConfigValue} {new : Entries} :
    mergeEntriesReplace old ((key, value) :: new) =
      mergeEntriesReplace (put key (((lookup old key).map fun o => mergeRecursiveReplace o value).getD value) old)
        new := by
  rw [mergeEntriesReplace]
  cases lookup old key <;> rfl

variable {origins origins' : Origins}

theorem mergeEntries_default {new old old' : Entries} {path : ValuePath}
    (hmerge : ∀ e ∈ new, ∀ {old v : ConfigValue} {path : ValuePath} {origins origins' : Origins},
      mergeValue policy incoming old path origins e.2 = .ok (v, origins') → v = mergeRecursiveReplace old e.2)
    (h : mergeEntries policy incoming old path origins new = .ok (old', origins')) :
    old' = mergeEntriesReplace old new := by
  induction new generalizing old origins with
  | nil => cases h; rw [mergeEntriesReplace]
  | cons e new ih =>
    rw [forall_mem_cons] at hmerge
    rw [mergeEntries_cons] at h
    obtain ⟨⟨m, os⟩, hm, hrest⟩ := bind_eq_ok.mp h
    rw [mergeEntriesReplace_cons]
    have hvalue : m = ((lookup old e.1).map fun o => mergeRecursiveReplace o e.2).getD e.2 := by
      cases hl : lookup old e.1 with
      | none => rw [hl] at hm; cases hm; rfl
      | some previous => rw [hl] at hm; exact hmerge.1 hm
    rw [← hvalue]
    exact ih hmerge.2 hrest

theorem mergeValue_default (hrule : ∀ path, (policy.rule path).tables = .recursive ∧
    (policy.rule path).arrays = .replace)
    {old new v : ConfigValue} {path : ValuePath}
    (h : mergeValue policy incoming old path origins new = .ok (v, origins')) : v = mergeRecursiveReplace old new := by
  induction new using induction generalizing old v path origins origins' with
  | step new ih =>
    rcases mergeValue_cases h with ⟨o, n, o', rfl, rfl, -, rfl, he⟩ | ⟨o, n, -, -, ha, -⟩ | ⟨rfl, -, ht, -⟩
    · congr 1
      refine mergeEntries_default ?_ he
      intro e hmem old v path origins origins'
      exact ih (.key e.1, e.2) (mem_branches_table hmem)
    · rw [(hrule path).2] at ha
      cases ha
    · cases v with
      | table n =>
        cases old with
        | table o => exact absurd (hrule path).1 (ht o n rfl rfl)
        | _ => rfl
      | _ => rfl

end Default

theorem merge_ok {self incoming m : Document} {policy : MergePolicy} (h : self.merge incoming policy = (.ok (), m)) :
    mergeValue policy incoming.provenance self.value [] self.provenance incoming.value =
      .ok (m.value, m.provenance) := by
  unfold Document.merge at h
  split at h
  · cases h
  · cases h
  · split at h
    · cases h
    · rename_i hm; cases h; exact hm

/-- A merge keeps exactly one source per node, the supplier's; a failed one leaves the document as it was. -/
theorem merge_provenance (self incoming : Document) (policy : MergePolicy)
    (hself : self.Covered) (hincoming : incoming.Covered) :
    (∀ m, self.merge incoming policy = (.ok (), m) → m.Covered ∧ (∀ p v, m.value.at p = some v →
        match supplier policy [] self.value incoming.value p with
        | .old => m.provenance[p]? = self.provenance[p]? ∧ self.value.at p = some v
        | .new q => m.provenance[p]? = incoming.provenance[q]? ∧
            ∃ w, incoming.value.at q = some w ∧ w.head = v.head) ∧
      (policy = {} → m.value = mergeRecursiveReplace self.value incoming.value)) ∧
    (∀ e m, self.merge incoming policy = (.error e, m) → m = self) := by
  refine ⟨?_, ?_⟩
  · intro m h
    have hm := merge_ok h
    obtain ⟨-, hsupplied⟩ := mergesAt incoming.value hm hself hincoming incoming.ordered
    refine ⟨hsupplied.covers hself hincoming, ?_, ?_⟩
    · intro p v hv
      split
      · rename_i hs
        obtain ⟨hsource, hat⟩ := hsupplied.kept p hs
        exact ⟨hsource, hat ▸ hv⟩
      · rename_i q hs
        obtain ⟨hsource, hhead⟩ := hsupplied.taken p q hs
        rw [hv, Option.map_some] at hhead
        obtain ⟨w, hw, hwv⟩ := Option.map_eq_some_iff.mp hhead.symm
        exact ⟨hsource, w, hw, hwv⟩
    · rintro rfl
      refine mergeValue_default ?_ hm
      intro path
      simp [MergePolicy.rule]
  · intro e m h
    unfold Document.merge at h
    split at h
    · cases h; rfl
    · cases h; rfl
    · split at h
      · cases h; rfl
      · cases h

namespace Sample

theorem ordered_list (i : Int) : (table [("list", .array [.integer i])]).Ordered := by
  rw [ordered_table]
  refine ⟨pairwise_singleton _ _, ?_⟩
  intro k c hc
  simp only [lookup] at hc
  split_ifs at hc
  cases hc
  rw [ordered_array]
  intro c hc
  cases mem_singleton.mp hc
  exact ordered_of_children (fun _ h => by cases h) fun s c h => by cases s <;> cases h

def base : Document := .new _ ⟨0⟩ (ordered_list 1)

def overlay : Document := .new _ ⟨1⟩ (ordered_list 2)

def appending : MergePolicy := { arrays := .append }

theorem merges : (base.merge overlay appending).1 = .ok () := by
  decide +kernel

theorem has_element : ((base.merge overlay appending).2.value.at [.key "list", .index 1]).isSome := by
  decide +kernel

theorem element_supplier :
    supplier appending [] base.value overlay.value [.key "list", .index 1] = .new [.key "list", .index 0] := by
  decide +kernel

/-- The appended element keeps its source. -/
theorem appended_element : (base.merge overlay appending).2.Covered ∧
      (base.merge overlay appending).2.provenance[[key "list", .index 1]]? =
        overlay.provenance[[key "list", .index 0]]? := by
  have h := (merge_provenance base overlay appending (covered_new _ _ _) (covered_new _ _ _)).1
    (base.merge overlay appending).2 (Prod.ext merges rfl)
  obtain ⟨v, hv⟩ := Option.isSome_iff_exists.mp has_element
  have hsource := h.2.1 _ v hv
  rw [element_supplier] at hsource
  exact ⟨h.1, hsource.1⟩

end Sample
end Bmux.Config
