import Bmux.Core.Wire
import Bmux.L2Config.Profiles

/-!
# Merging configuration documents

A `Document` is a configuration tree with the source of each of its nodes
(`packages/config-composition/src/value.rs`). `merge` overlays one document on another, path by path
under a policy: tables are overlaid key by key, arrays are appended with shifted indices, and
everything else is replaced.
-/
namespace Bmux.Config
open Std (ExtTreeMap OrientedOrd TransOrd LawfulEqOrd)
open List

/-- A table lists its entries by ascending key, as iterating a `BTreeMap` does. Floats are their bits.
mirrors packages/config-composition/src/value.rs:7-22 -/
inductive ConfigValue where
  | string (s : String)
  | integer (i : Int)
  | float (bits : UInt64)
  | boolean (b : Bool)
  | datetime (s : String)
  | array (values : List ConfigValue)
  | table (entries : List (String × ConfigValue))

abbrev Entries := List (String × ConfigValue)

structure SourceId where
  id : Nat
  deriving DecidableEq, Repr

inductive PathSegment where
  | key (k : String)
  | index (i : Nat)
  deriving DecidableEq, Repr

abbrev ValuePath := List PathSegment

instance : Ord PathSegment where
  compare
    | .key a, .key b => compare a b
    | .key _, .index _ => .lt
    | .index _, .key _ => .gt
    | .index a, .index b => compare a b

instance : OrientedOrd PathSegment where
  eq_swap {a b} := by
    cases a with
    | key a =>
      cases b with
      | key b => exact OrientedOrd.eq_swap (α := String)
      | index b => rfl
    | index a =>
      cases b with
      | key b => rfl
      | index b => exact OrientedOrd.eq_swap (α := Nat)

instance : TransOrd PathSegment where
  isLE_trans {a b c} hab hbc := by
    cases a with
    | key a =>
      cases c with
      | index c => rfl
      | key c =>
        cases b with
        | key b => exact TransOrd.isLE_trans (α := String) hab hbc
        | index b => exact absurd hbc Bool.false_ne_true
    | index a =>
      cases b with
      | key b => exact absurd hab Bool.false_ne_true
      | index b =>
        cases c with
        | key c => exact absurd hbc Bool.false_ne_true
        | index c => exact TransOrd.isLE_trans (α := Nat) hab hbc

instance : LawfulEqOrd PathSegment where
  eq_of_compare {a b} h := by
    cases a <;> cases b
    · exact congrArg _ (Std.compare_eq_iff_eq.mp h)
    · cases h
    · cases h
    · exact congrArg _ (Std.compare_eq_iff_eq.mp h)

abbrev Origins := ExtTreeMap ValuePath SourceId compare

/-! ## Tables -/

def lookup : Entries → String → Option ConfigValue
  | [], _ => none
  | (a, v) :: es, k => if a = k then some v else lookup es k

/-- `BTreeMap::insert`, and a write through `get_mut`. -/
def put (k : String) (v : ConfigValue) : Entries → Entries
  | [] => [(k, v)]
  | (a, b) :: es => if k < a then (k, v) :: (a, b) :: es else if k = a then (k, v) :: es else (a, b) :: put k v es

def ConfigValue.tag : ConfigValue → Nat
  | .string _ => 0
  | .integer _ => 1
  | .float _ => 2
  | .boolean _ => 3
  | .datetime _ => 4
  | .array _ => 5
  | .table _ => 6

mutual

def mergeRecursiveReplace (old : ConfigValue) : ConfigValue → ConfigValue
  | .table new =>
    match old with
    | .table old => .table (mergeEntriesReplace old new)
    | _ => .table new
  | new => new

def mergeEntriesReplace (old : Entries) : Entries → Entries
  | [] => old
  | (key, value) :: new =>
    match lookup old key with
    | some previous => mergeEntriesReplace (put key (mergeRecursiveReplace previous value) old) new
    | none => mergeEntriesReplace (put key value old) new

end

/-! ## Policies -/

inductive TableMerge where
  | recursive | replace
  deriving DecidableEq, Repr

inductive ArrayMerge where
  | replace | append
  deriving DecidableEq, Repr

inductive TypeMismatch where
  | replace | reject
  deriving DecidableEq, Repr

structure MergeRule where
  tables : TableMerge := .recursive
  arrays : ArrayMerge := .replace
  typeMismatch : TypeMismatch := .replace

structure MergePolicy extends MergeRule where
  overrides : ExtTreeMap ValuePath MergeRule compare := ∅

variable (policy : MergePolicy) (path : ValuePath)

def MergePolicy.rule : MergeRule :=
  policy.overrides[path]?.getD policy.toMergeRule

def MergePolicy.rejects (old new : ConfigValue) : Bool :=
  old.tag != new.tag && (policy.rule path).typeMismatch = .reject

/-! ## Merging -/

variable (origins incoming : Origins)

def replaceOrigins : Origins :=
  (origins.filter fun key _ => !path.isPrefixOf key).insertMany
    (incoming.toList.filter fun kv => path.isPrefixOf kv.1)

/-- Shift the index right after `path` by the length of the array appended to. -/
def shifted (offset : Nat) (key : ValuePath) : ValuePath :=
  match key.drop path.length with
  | .index i :: rest => path ++ .index (i + offset) :: rest
  | _ => key

/-- mirrors packages/config-composition/src/value.rs:294-310 -/
def appendOrigins (offset : Nat) (origins incoming : Origins) : Origins :=
  origins.insertMany
    ((incoming.toList.filter fun kv => path.isPrefixOf kv.1 ∧ kv.1.length > path.length).map
      fun kv => (shifted path offset kv.1, kv.2))

def adoptOrigin : Origins :=
  match incoming[path]? with
  | some source => origins.insert path source
  | none => origins

section Merge

variable (policy : MergePolicy) (incoming : Origins)

mutual

/-- mirrors packages/config-composition/src/value.rs:266-320 -/
def mergeValue (old : ConfigValue) (path : ValuePath) (origins : Origins) :
    ConfigValue → Except Error (ConfigValue × Origins)
  | .table new =>
    if policy.rejects path old (.table new) then .error (.new .typeMismatch)
    else
      match old with
      | .table old =>
        if (policy.rule path).tables = .recursive then do
          let (old, origins) ← mergeEntries old path (adoptOrigin path origins incoming) new
          return (.table old, origins)
        else .ok (.table new, replaceOrigins path origins incoming)
      | _ => .ok (.table new, replaceOrigins path origins incoming)
  | .array new =>
    if policy.rejects path old (.array new) then .error (.new .typeMismatch)
    else
      match old with
      | .array old =>
        if (policy.rule path).arrays = .append then
          .ok (.array (old ++ new), appendOrigins path old.length (adoptOrigin path origins incoming) incoming)
        else .ok (.array new, replaceOrigins path origins incoming)
      | _ => .ok (.array new, replaceOrigins path origins incoming)
  | new =>
    if policy.rejects path old new then .error (.new .typeMismatch)
    else .ok (new, replaceOrigins path origins incoming)

def mergeEntries (old : Entries) (path : ValuePath) (origins : Origins) : Entries → Except Error (Entries × Origins)
  | [] => .ok (old, origins)
  | (key, value) :: new =>
    match lookup old key with
    | some previous => do
      let (merged, origins) ← mergeValue previous (path ++ [.key key]) origins value
      mergeEntries (put key merged old) path origins new
    | none =>
      mergeEntries (put key value old) path (replaceOrigins (path ++ [.key key]) origins incoming) new

end

end Merge

/-! ## Documents -/

def ConfigValue.child : ConfigValue → PathSegment → Option ConfigValue
  | .table entries, .key k => lookup entries k
  | .array values, .index i => values[i]?
  | _, _ => none

variable (v : ConfigValue)

/-- The node at a path, as `Document::select` walks to it.
mirrors packages/config-composition/src/value.rs:149-156 -/
def ConfigValue.at (path : ValuePath) : Option ConfigValue := path.foldlM ConfigValue.child v

def ConfigValue.Ordered : Prop :=
  ∀ path entries, v.at path = some (.table entries) → (entries.map Prod.fst).Pairwise (· < ·)

def ConfigValue.branches : ConfigValue → List (PathSegment × ConfigValue)
  | .table entries => entries.map fun (k, v) => (.key k, v)
  | .array values => values.zipIdx.map fun (v, i) => (.index i, v)
  | _ => []

theorem sizeOf_entries (entries : Entries) : (entries.map fun kv => sizeOf kv.2).sum ≤ sizeOf entries := by
  induction entries with
  | nil => simp
  | cons kv es ih =>
    obtain ⟨k, v⟩ := kv
    simp only [map_cons, sum_cons, cons.sizeOf_spec, Prod.mk.sizeOf_spec]
    omega

theorem sizeOf_values (values : List ConfigValue) : (values.map sizeOf).sum ≤ sizeOf values := by
  induction values with
  | nil => simp
  | cons v vs ih =>
    simp only [map_cons, sum_cons, cons.sizeOf_spec]
    omega

/-- The children weigh less than the node, which ends the walks over a tree. -/
theorem sizeOf_branches : (v.branches.map fun b => sizeOf b.2).sum < sizeOf v := by
  cases v with
  | table entries =>
    have := sizeOf_entries entries
    simp only [ConfigValue.branches, map_map, Function.comp_def, ConfigValue.table.sizeOf_spec]
    omega
  | array values =>
    have h : (values.zipIdx.map fun p => sizeOf p.1) = values.map sizeOf := by
      conv_rhs => rw [← zipIdx_map_fst 0 values, map_map]
      rfl
    have := sizeOf_values values
    simp only [ConfigValue.branches, map_map, Function.comp_def, ConfigValue.array.sizeOf_spec, h]
    omega
  | _ => simp [ConfigValue.branches]

theorem ConfigValue.induction {P : ConfigValue → Prop} (step : ∀ v, (∀ b ∈ v.branches, P b.2) → P v)
    (v : ConfigValue) : P v := by
  induction hn : sizeOf v using Nat.strong_induction_on generalizing v with
  | _ n ih =>
    refine step v ?_
    intro b hb
    have hle : sizeOf b.2 ≤ (v.branches.map fun b => sizeOf b.2).sum :=
      single_le_sum (fun _ _ => zero_le) _ (mem_map_of_mem hb)
    have := sizeOf_branches v
    exact ih (sizeOf b.2) (by omega) b.2 rfl

theorem mem_branches_table {entries : Entries} {e : String × ConfigValue} (h : e ∈ entries) :
    (PathSegment.key e.1, e.2) ∈ (ConfigValue.table entries).branches :=
  mem_map_of_mem (f := fun (kv : String × ConfigValue) => (PathSegment.key kv.1, kv.2)) h

/-- The last child is popped first.
mirrors packages/config-composition/src/value.rs:238-263 -/
def recordLoop (source : SourceId) : List (ConfigValue × ValuePath) → Origins → Origins
  | [], out => out
  | (value, current) :: stack, out =>
    recordLoop source ((value.branches.map fun b => (b.2, current ++ [b.1])).reverse ++ stack)
      (out.insert current source)
termination_by stack => (stack.map fun e => sizeOf e.1).sum
decreasing_by
  have := sizeOf_branches value
  simp only [map_append, map_reverse, map_map, sum_append, sum_reverse, map_cons,
    sum_cons, Function.comp_def]
  omega

def record (value : ConfigValue) (path : ValuePath) (source : SourceId) (out : Origins) : Origins :=
  recordLoop source [(value, path)] out

/-- mirrors packages/config-composition/src/value.rs:471-490 -/
def validateLoop (maxDepth maxNodes : Nat) : List (ConfigValue × Nat) → Nat → Except Error Unit
  | [], _ => .ok ()
  | (value, depth) :: stack, nodes =>
    if depth > maxDepth ∨ nodes + 1 > maxNodes then .error (.new .limit)
    else validateLoop maxDepth maxNodes ((value.branches.map fun b => (b.2, depth + 1)).reverse ++ stack) (nodes + 1)
termination_by stack => (stack.map fun e => sizeOf e.1).sum
decreasing_by
  have := sizeOf_branches value
  simp only [map_append, map_reverse, map_map, sum_append, sum_reverse, map_cons,
    sum_cons, Function.comp_def]
  omega

def validateValue (value : ConfigValue) (maxDepth maxNodes : Nat) : Except Error Unit :=
  validateLoop maxDepth maxNodes [(value, 0)] 0

/-! ## Tables as maps -/

theorem lookup_put (k a : String) (v : ConfigValue) (es : Entries) :
    lookup (put k v es) a = if k = a then some v else lookup es a := by
  induction es with
  | nil => simp [put, lookup]
  | cons e es ih =>
    unfold put
    split
    · rfl
    · split
      · next heq =>
        subst heq
        rw [lookup, lookup]
        split <;> rfl
      · next heq =>
        rw [lookup, lookup, ih]
        split
        · next hba => rw [if_neg fun hka => heq (hka.trans hba.symm)]
        · rfl

variable {k : String} {v : ConfigValue} {es : Entries}

theorem mem_put {a : String} (h : a ∈ (put k v es).map Prod.fst) : a = k ∨ a ∈ es.map Prod.fst := by
  induction es with
  | nil => simpa [put] using h
  | cons e es ih =>
    unfold put at h
    split_ifs at h with hlt heq
    · simpa using h
    · simp only [map_cons, mem_cons] at h ⊢
      tauto
    · simp only [map_cons, mem_cons] at h ⊢
      rcases h with h | h
      · exact .inr (.inl h)
      · exact (ih h).imp_right .inr

theorem sorted_put (h : (es.map Prod.fst).Pairwise (· < ·)) :
    ((put k v es).map Prod.fst).Pairwise (· < ·) := by
  induction es with
  | nil => simp [put]
  | cons e es ih =>
    rw [map_cons, pairwise_cons] at h
    unfold put
    split_ifs with hlt heq
    · rw [map_cons, map_cons, pairwise_cons, pairwise_cons]
      exact ⟨forall_mem_cons.mpr ⟨hlt, fun a ha => lt_trans hlt (h.1 a ha)⟩, h⟩
    · subst heq
      rw [map_cons, pairwise_cons]
      exact h
    · rw [map_cons, pairwise_cons]
      refine ⟨?_, ih h.2⟩
      intro a ha
      rcases mem_put ha with rfl | ha
      · exact lt_of_le_of_ne (not_lt.mp hlt) (Ne.symm heq)
      · exact h.1 a ha

theorem lookup_eq_none : lookup es k = none ↔ k ∉ es.map Prod.fst := by
  induction es with
  | nil => simp [lookup]
  | cons e es ih =>
    simp only [lookup, map_cons, mem_cons, not_or]
    split_ifs with h
    · simp [h]
    · rw [ih]
      exact ⟨fun hn => ⟨Ne.symm h, hn⟩, fun hn => hn.2⟩

theorem mem_iff_lookup (h : (es.map Prod.fst).Pairwise (· < ·)) :
    (k, v) ∈ es ↔ lookup es k = some v := by
  induction es with
  | nil => simp [lookup]
  | cons e es ih =>
    obtain ⟨a, w⟩ := e
    rw [map_cons, pairwise_cons] at h
    simp only [lookup, mem_cons, Prod.mk.injEq]
    split_ifs with hak
    · subst hak
      have hnot : (a, v) ∉ es := fun hm => lt_irrefl a (h.1 a (mem_map_of_mem hm))
      simp [hnot, eq_comm]
    · rw [ih h.2]
      simp [Ne.symm hak]

/-! ## Nodes -/

@[simp] theorem at_nil (v : ConfigValue) : v.at [] = some v := rfl

@[simp] theorem at_cons (v : ConfigValue) (s : PathSegment) (q : ValuePath) :
    v.at (s :: q) = (v.child s).bind fun c => c.at q := rfl

theorem at_append (v : ConfigValue) (p q : ValuePath) : v.at (p ++ q) = (v.at p).bind fun c => c.at q := by
  simp [ConfigValue.at]

theorem ConfigValue.Ordered.at {c : ConfigValue} (h : v.Ordered) {p : ValuePath} (hc : v.at p = some c) :
    c.Ordered := by
  intro q entries hq
  refine h (p ++ q) entries ?_
  rw [at_append, hc]
  exact hq

theorem ConfigValue.Ordered.child {c : ConfigValue} (h : v.Ordered) {s : PathSegment} (hc : v.child s = some c) :
    c.Ordered := h.at (p := [s]) (by simp [hc])

theorem ordered_of_children (hroot : ∀ entries, v = .table entries → (entries.map Prod.fst).Pairwise (· < ·))
    (hchildren : ∀ s c, v.child s = some c → c.Ordered) : v.Ordered := by
  intro p entries hp
  cases p with
  | nil => cases hp; exact hroot entries rfl
  | cons s q =>
    rw [at_cons, Option.bind_eq_some_iff] at hp
    obtain ⟨c, hc, hq⟩ := hp
    exact hchildren s c hc q entries hq

theorem ordered_table {entries : Entries} : (ConfigValue.table entries).Ordered ↔
      (entries.map Prod.fst).Pairwise (· < ·) ∧ ∀ k c, lookup entries k = some c → c.Ordered := by
  constructor
  · intro h
    exact ⟨h [] entries rfl, fun k c hc => h.child (s := .key k) hc⟩
  · intro h
    refine ordered_of_children (fun es he => by cases he; exact h.1) ?_
    intro s c hc
    cases s with
    | key k => exact h.2 k c hc
    | index i => cases hc

theorem ordered_array {values : List ConfigValue} :
    (ConfigValue.array values).Ordered ↔ ∀ c ∈ values, c.Ordered := by
  constructor
  · intro h c hc
    obtain ⟨i, hi⟩ := mem_iff_getElem?.mp hc
    exact h.child (s := .index i) hi
  · intro h
    refine ordered_of_children (fun es he => by cases he) ?_
    intro s c hc
    cases s with
    | key k => cases hc
    | index i => exact h c (mem_of_getElem? hc)

/-! ## The merged value -/

section MergedValue

variable {policy : MergePolicy} {incoming : Origins}

def mergeEntry (policy : MergePolicy) (incoming : Origins) (old : Option ConfigValue) (path : ValuePath)
    (origins : Origins) (value : ConfigValue) : Except Error (ConfigValue × Origins) :=
  match old with
  | some previous => mergeValue policy incoming previous path origins value
  | none => .ok (value, replaceOrigins path origins incoming)

variable {old new : Entries} {path : ValuePath} {origins origins' : Origins}

theorem mergeEntries_cons {key : String} {value : ConfigValue} :
    mergeEntries policy incoming old path origins ((key, value) :: new) =
      mergeEntry policy incoming (lookup old key) (path ++ [.key key]) origins value >>= fun r =>
        mergeEntries policy incoming (put key r.1 old) path r.2 new := by
  rw [mergeEntries]
  cases lookup old key <;> rfl

/-- A merge overlays a table, appends to an array, or replaces the value. -/
theorem mergeValue_cases {old new v : ConfigValue}
    (h : mergeValue policy incoming old path origins new = .ok (v, origins')) :
    (∃ o n o', old = .table o ∧ new = .table n ∧ (policy.rule path).tables = .recursive ∧ v = .table o' ∧
      mergeEntries policy incoming o path (adoptOrigin path origins incoming) n = .ok (o', origins')) ∨
    (∃ o n, old = .array o ∧ new = .array n ∧ (policy.rule path).arrays = .append ∧ v = .array (o ++ n) ∧
      origins' = appendOrigins path o.length (adoptOrigin path origins incoming) incoming) ∨
    (v = new ∧ origins' = replaceOrigins path origins incoming ∧
      (∀ o n, old = .table o → new = .table n → (policy.rule path).tables ≠ .recursive) ∧
      (∀ o n, old = .array o → new = .array n → (policy.rule path).arrays ≠ .append)) := by
  cases new with
  | table n =>
    unfold mergeValue at h
    split at h
    · cases h
    cases old with
    | table o =>
      dsimp only at h
      split at h
      · next ht =>
        obtain ⟨⟨o', os⟩, he, hv⟩ := bind_eq_ok.mp h
        cases hv
        exact .inl ⟨o, n, o', rfl, rfl, ht, rfl, he⟩
      · next ht =>
        cases h
        exact .inr (.inr ⟨rfl, rfl, fun _ _ _ _ => ht, nofun⟩)
    | _ => cases h; simp
  | array n =>
    unfold mergeValue at h
    split at h
    · cases h
    cases old with
    | array o =>
      dsimp only at h
      split at h
      · next ha =>
        cases h
        exact .inr (.inl ⟨o, n, rfl, rfl, ha, rfl, rfl⟩)
      · next ha =>
        cases h
        exact .inr (.inr ⟨rfl, rfl, nofun, fun _ _ _ _ => ha⟩)
    | _ => cases h; exact .inr (.inr ⟨rfl, rfl, nofun, nofun⟩)
  | _ =>
    unfold mergeValue at h
    split_ifs at h
    cases h
    exact .inr (.inr ⟨rfl, rfl, nofun, nofun⟩)

/-- Merging keeps the keys of a table in order. -/
theorem mergeEntries_sorted {old' : Entries}
    (h : mergeEntries policy incoming old path origins new = .ok (old', origins'))
    (hold : (old.map Prod.fst).Pairwise (· < ·)) : (old'.map Prod.fst).Pairwise (· < ·) := by
  induction new generalizing old origins with
  | nil => cases h; exact hold
  | cons e new ih =>
    rw [mergeEntries_cons] at h
    obtain ⟨r, -, hrest⟩ := bind_eq_ok.mp h
    exact ih hrest (sorted_put hold)

theorem mergeEntries_ordered {old' : Entries}
    (hmerge : ∀ e ∈ new, ∀ {old v : ConfigValue} {path : ValuePath} {origins origins' : Origins},
      mergeValue policy incoming old path origins e.2 = .ok (v, origins') → old.Ordered → e.2.Ordered → v.Ordered)
    (h : mergeEntries policy incoming old path origins new = .ok (old', origins'))
    (hold : ∀ k c, lookup old k = some c → c.Ordered) (hnew : ∀ e ∈ new, e.2.Ordered) :
    ∀ k c, lookup old' k = some c → c.Ordered := by
  induction new generalizing old origins with
  | nil => cases h; exact hold
  | cons e new ih =>
    rw [forall_mem_cons] at hnew hmerge
    rw [mergeEntries_cons] at h
    obtain ⟨⟨m, os⟩, hm, hrest⟩ := bind_eq_ok.mp h
    have hm' : m.Ordered := by
      cases hl : lookup old e.1 with
      | none => rw [hl] at hm; cases hm; exact hnew.1
      | some previous => rw [hl] at hm; exact hmerge.1 hm (hold _ _ hl) hnew.1
    refine ih hmerge.2 hrest ?_ hnew.2
    intro k c hk
    rw [lookup_put] at hk
    split_ifs at hk
    · cases hk; exact hm'
    · exact hold k c hk

theorem mergeValue_ordered {old new v : ConfigValue}
    (h : mergeValue policy incoming old path origins new = .ok (v, origins'))
    (hold : old.Ordered) (hnew : new.Ordered) : v.Ordered := by
  induction new using ConfigValue.induction generalizing old v path origins origins' with
  | step new ih =>
    rcases mergeValue_cases h with ⟨o, n, o', rfl, rfl, -, rfl, he⟩ | ⟨o, n, rfl, rfl, -, rfl, -⟩ | ⟨rfl, -⟩
    · rw [ordered_table] at hold hnew ⊢
      refine ⟨mergeEntries_sorted he hold.1, mergeEntries_ordered ?_ he hold.2 ?_⟩
      · intro e hmem old v path origins origins'
        exact ih (.key e.1, e.2) (mem_branches_table hmem)
      · intro e hmem
        exact hnew.2 e.1 e.2 ((mem_iff_lookup hnew.1).mp hmem)
    · rw [ordered_array] at hold hnew ⊢
      intro c hc
      exact (mem_append.mp hc).elim (hold c) (hnew c)
    · exact hnew

end MergedValue

/-- A document cannot have a table out of order.
mirrors packages/config-composition/src/value.rs:130-135 -/
structure Document where
  value : ConfigValue
  provenance : Origins
  ordered : value.Ordered

def Document.new (value : ConfigValue) (source : SourceId) (ordered : value.Ordered) : Document :=
  { value, provenance := record value [] source ∅, ordered }

/-- The result of the call and the document after it: the merge works on a clone.
mirrors packages/config-composition/src/value.rs:193-213 -/
def Document.merge (self incoming : Document) (policy : MergePolicy) : Except Error Unit × Document :=
  match validateValue self.value 128 (2 ^ 64 - 1), validateValue incoming.value 128 (2 ^ 64 - 1) with
  | .error e, _ => (.error e, self)
  | .ok (), .error e => (.error e, self)
  | .ok (), .ok () =>
    match h : mergeValue policy incoming.provenance self.value [] self.provenance incoming.value with
    | .error e => (.error e, self)
    | .ok (value, provenance) =>
      (.ok (), { value, provenance, ordered := mergeValue_ordered h self.ordered incoming.ordered })

end Bmux.Config
