import Mathlib

/-!
# Writing back to an ordered map

An entry of a map is updated in place through a mutable reference. In terms
of `insert`: writing back the value that is there changes nothing, and
modifying an entry is inserting the modified value. `All P m` says that
every entry meets `P`; updates keep it.
-/
namespace Bmux.TreeMap
open Std ExtTreeMap

variable {κ β : Type} [Ord κ] [TransOrd κ] [LawfulEqOrd κ] [DecidableEq κ]
  {m : ExtTreeMap κ β compare} {k : κ} {v : β}

@[grind =] theorem getElem?_insert (a : κ) : (m.insert k v)[a]? = if k = a then some v else m[a]? := by
  simp [ExtTreeMap.getElem?_insert]

@[grind =] theorem getElem?_erase (a : κ) : (m.erase k)[a]? = if k = a then none else m[a]? := by
  simp [ExtTreeMap.getElem?_erase]

theorem of_insert {a : κ} {w : β} (h : (m.insert k v)[a]? = some w) : k = a ∧ v = w ∨ m[a]? = some w := by
  rw [getElem?_insert] at h
  split at h
  · rename_i hk; exact .inl ⟨hk, Option.some.inj h⟩
  · exact .inr h

theorem of_erase {a : κ} (h : (m.erase k)[a]? = some v) : m[a]? = some v := by
  rw [getElem?_erase] at h
  split at h
  · cases h
  · exact h

theorem insert_self (h : m[k]? = some v) : m.insert k v = m := by
  apply ext_getElem?
  intro a
  rw [getElem?_insert]
  split
  · rename_i hk; rw [← hk, h]
  · rfl

theorem insert_eq_self : m.insert k v = m ↔ m[k]? = some v :=
  ⟨fun h => by rw [← h]; simp, insert_self⟩

theorem erase_ne (h : m[k]? = some v) : m.erase k ≠ m := by
  intro heq
  rw [← heq, getElem?_erase, if_pos rfl] at h
  cases h

theorem modify_of_some (h : m[k]? = some v) (f : β → β) : m.modify k f = m.insert k (f v) := by
  apply ext_getElem?
  intro a
  rw [getElem?_insert, getElem?_modify, h]
  simp

theorem modify_insert (f : β → β) : (m.insert k v).modify k f = m.insert k (f v) := by
  rw [modify_of_some (v := v) (by simp)]
  apply ext_getElem?
  intro a
  simp only [getElem?_insert]
  split <;> rfl

theorem eq_of_modify {f : β → β} {l : ExtTreeMap κ β compare} (h : m.modify k f = l) (hne : ∀ v, l[k]? ≠ some (f v)) :
    m = l := by
  cases hk : m[k]? with
  | none =>
    rw [← h]
    apply ext_getElem?
    intro a
    rw [getElem?_modify]
    split
    · rename_i heq
      rw [← compare_eq_iff_eq.mp heq, hk]; rfl
    · rfl
  | some v =>
    rw [← h, modify_of_some hk] at hne
    exact absurd (by simp) (hne v)

omit [LawfulEqOrd κ] [DecidableEq κ] in
theorem filter_eq_of_size {α γ : Type} [Ord α] [TransOrd α] {l : ExtTreeMap α γ compare} {f : κ → β → Bool}
    {g : α → γ → Bool}
    (h : (m.filter f).size + (l.filter g).size = m.size + l.size) : m.filter f = m ∧ l.filter g = l := by
  have hm := size_filter_le_size (t := m) (f := f)
  have hl := size_filter_le_size (t := l) (f := g)
  exact ⟨filter_eq_self_iff.mpr (size_filter_eq_size_iff.mp (by omega)),
    filter_eq_self_iff.mpr (size_filter_eq_size_iff.mp (by omega))⟩

omit [DecidableEq κ] in
/-- A check over all values, `values().any(..)`. -/
theorem exists_value {p : β → Prop} : (∃ kv ∈ m.toList, p kv.2) ↔ ∃ (k : κ) (v : β), m[k]? = some v ∧ p v := by
  constructor
  · rintro ⟨⟨k, v⟩, hkv, hp⟩
    exact ⟨k, v, mem_toList_iff_getElem?_eq_some.mp hkv, hp⟩
  · rintro ⟨k, v, hk, hp⟩
    exact ⟨(k, v), mem_toList_iff_getElem?_eq_some.mpr hk, hp⟩

/-! ## Rebuilding a map from its entries -/

theorem insertMany_toList : (∅ : ExtTreeMap κ β compare).insertMany m.toList = m := by
  apply ext_getElem?
  intro a
  cases ha : m[a]? with
  | some v =>
    have hmem := mem_toList_iff_getElem?_eq_some.mpr ha
    exact getElem?_insertMany_list_of_mem ReflCmp.compare_self
      distinct_keys_toList hmem
  | none =>
    rw [getElem?_insertMany_list_of_contains_eq_false]
    · simp
    · simpa using ha

/-! Inserting a list of entries with distinct keys -/

variable {l : List (κ × β)}

theorem getElem?_insertMany_of_mem (hl : (l.map Prod.fst).Nodup) (h : (k, v) ∈ l) :
    (m.insertMany l)[k]? = some v := by
  refine getElem?_insertMany_list_of_mem ReflCmp.compare_self ?_ h
  rw [List.Nodup, List.pairwise_map] at hl
  refine hl.imp ?_
  intro a b hab
  simpa using hab

theorem getElem?_insertMany_of_not_mem (h : k ∉ l.map Prod.fst) : (m.insertMany l)[k]? = m[k]? := by
  apply getElem?_insertMany_list_of_contains_eq_false
  simpa using h

omit [DecidableEq κ] in
theorem nodup_keys_toList : (m.toList.map Prod.fst).Nodup := by
  have h := distinct_keys_toList (t := m)
  rw [List.Nodup, List.pairwise_map]
  refine h.imp ?_
  intro a b hab heq
  exact hab (heq ▸ ReflCmp.compare_self)

theorem set_insertMany_toList {t : ExtTreeSet κ compare} :
    (∅ : ExtTreeSet κ compare).insertMany t.toList = t := by
  apply ExtTreeSet.ext_mem
  intro a
  simp

/-! ## Properties of all entries -/

variable {P Q : κ → β → Prop}

def All (P : κ → β → Prop) (m : ExtTreeMap κ β compare) : Prop := ∀ k v, m[k]? = some v → P k v

omit [DecidableEq κ] [LawfulEqOrd κ] in
theorem All.empty : All P (∅ : ExtTreeMap κ β compare) := by
  intro k v h
  simp at h

omit [DecidableEq κ] in
theorem All.eq_empty (h : All (fun _ _ => False) m) : m = ∅ := by
  apply ext_getElem?
  intro a
  cases ha : m[a]? with
  | none => simp
  | some v => exact (h a v ha).elim

omit [DecidableEq κ] [LawfulEqOrd κ] in
theorem All.imp (h : All P m) (himp : ∀ k v, m[k]? = some v → P k v → Q k v) : All Q m :=
  fun k v hk => himp k v hk (h k v hk)

theorem All.insert (h : All P m) (hv : P k v) : All P (m.insert k v) := by
  intro a b hb
  rcases of_insert hb with ⟨rfl, rfl⟩ | hb
  · exact hv
  · exact h a b hb

theorem All.insertMany (h : All P m) (hl : ∀ e ∈ l, P e.1 e.2) : All P (m.insertMany l) := by
  induction l generalizing m with
  | nil => simpa using h
  | cons e l ih =>
    rw [insertMany_cons]
    exact ih (h.insert (hl e List.mem_cons_self)) fun e' he' => hl e' (List.mem_cons_of_mem _ he')

theorem All.erase (h : All P m) : All P (m.erase k) := fun a b hb => h a b (of_erase hb)

omit [DecidableEq κ] in
theorem All.filter {f : κ → β → Bool} (h : All P m) : All P (m.filter f) := by
  intro a b hb
  rw [getElem?_filter'] at hb
  exact h a b (Option.eq_some_of_filter_eq_some hb)

end Bmux.TreeMap
