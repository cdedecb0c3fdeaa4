import Bmux.L1Encoding.SerdeRoundtrip

/-!
# Reading a struct with another declaration of it

A struct written by name can be read by a target struct that declares its
fields in another order: every entry is put where its name belongs. A target
that drops a field fails: `deserialize_ignored_any` consumes nothing, so the
bytes of the dropped value are read as the next name
(`Sample.dropped_field_not_skipped`).

`Fields.entries` lists a value's fields with their types. One struct's fields
are among another's when its `Fields.types` are, and the values agree when the
entries are.
-/
namespace Bmux.Codec
open Wire Streams Canonical List Fields

abbrev Value := (t : Ty) × t.Val

def Fields.types : Fields → List (Text × Ty)
  | .nil => []
  | .cons name t fields => (name, t) :: fields.types

def Fields.entries : (fields : Fields) → fields.Val → List (Text × Value)
  | .nil, _ => []
  | .cons name t fields, v => (name, ⟨t, v.1⟩) :: fields.entries v.2

theorem serializeFields_eq (mode : EncodingMode) : (fields : Fields) → (v : fields.Val) →
    serializeFields mode fields v = (fields.entries v).map fun entry => (entry.1, serialize mode entry.2.1 entry.2.2)
  | .nil, _ => rfl
  | .cons name t fields, v => by
    rw [serializeFields, entries, map_cons, serializeFields_eq mode fields v.2]

theorem entries_names : (fields : Fields) → (v : fields.Val) → (fields.entries v).map Prod.fst = fields.names
  | .nil, _ => rfl
  | .cons name t fields, v => by rw [entries, map_cons, entries_names fields v.2, names]

theorem types_of_entry : (fields : Fields) → (v : fields.Val) → {name : Text} → {value : Value} →
    (name, value) ∈ fields.entries v → (name, value.1) ∈ fields.types
  | .nil, _, _, _, h => nomatch h
  | .cons head t fields, v, name, value, h => by
    rw [entries, mem_cons] at h
    rw [types, mem_cons]
    rcases h with ⟨rfl, rfl⟩ | h
    · exact .inl rfl
    · exact .inr (types_of_entry fields v.2 h)

theorem entry_of_types : (fields : Fields) → (v : fields.Val) → {name : Text} → {t : Ty} →
    (name, t) ∈ fields.types → ∃ x : t.Val, (name, ⟨t, x⟩) ∈ fields.entries v
  | .nil, _, _, _, h => nomatch h
  | .cons head ht fields, v, name, t, h => by
    rw [types, mem_cons] at h
    rcases h with ⟨rfl, rfl⟩ | h
    · exact ⟨v.1, mem_cons_self⟩
    · obtain ⟨x, hx⟩ := entry_of_types fields v.2 h
      exact ⟨x, mem_cons_of_mem _ hx⟩

variable {fields target : Fields}

/-- The value of a target whose fields are among those of an encoded struct. -/
theorem exists_projection (v : fields.Val) : (target : Fields) → target.types ⊆ fields.types →
    ∃ w : target.Val, target.entries w ⊆ fields.entries v
  | .nil, _ => ⟨(), nil_subset _⟩
  | .cons name t target, h => by
    rw [types, cons_subset] at h
    obtain ⟨x, hx⟩ := entry_of_types fields v h.1
    obtain ⟨w, hw⟩ := exists_projection v target h.2
    exact ⟨(x, w), cons_subset.mpr ⟨hx, hw⟩⟩

theorem entry_unique {v : fields.Val} (hnodup : fields.names.Nodup) {name : Text}
    {value value' : Value} (h : (name, value) ∈ fields.entries v) (h' : (name, value') ∈ fields.entries v) :
    value = value' := by
  rw [← entries_names fields v] at hnodup
  have heq := inj_on_of_nodup_map hnodup h h' rfl
  exact (Prod.mk.inj heq).2

theorem entries_subset {v : fields.Val} {w : target.Val} (hnodup : fields.names.Nodup)
    (hw : target.entries w ⊆ fields.entries v) (hall : fields.types ⊆ target.types) :
    fields.entries v ⊆ target.entries w := by
  intro entry hentry
  obtain ⟨x, hx⟩ := entry_of_types target w (hall (types_of_entry fields v hentry))
  have heq := entry_unique hnodup hentry (hw hx)
  rw [← heq] at hx
  exact hx

theorem names_of_types : (fields : Fields) → fields.types.map Prod.fst = fields.names
  | .nil => rfl
  | .cons name t fields => by rw [types, map_cons, names_of_types fields, names]

/-- The entries of one declaration are read by another that has the same fields. -/
theorem reordered_roundtrips {mode : EncodingMode} (hmode : isStableNamed mode)
    {v : fields.Val} {w : target.Val} (hfits : fields.length < 2 ^ 64) (hnodup : fields.names.Nodup)
    (htarget : target.wellFormed) (htnodup : target.names.Nodup)
    (hvw : fields.entries v ⊆ target.entries w) (htypes : target.types ⊆ fields.types) :
    Roundtrips (serialize mode (.struct fields) v) (deserialize mode (.struct target)) w := by
  have hmem : ∀ e ∈ serializeFields mode fields v, e ∈ serializeFields mode target w := by
    rw [serializeFields_eq, serializeFields_eq]
    exact map_subset _ hvw
  have hdistinct : ((serializeFields mode fields v).map Prod.fst ++ []).Nodup := by
    rw [append_nil, serializeFields_names]
    exact hnodup
  have hfills := fills_of_fieldwise (fieldwise_roundtrips target htarget htnodup w)
    (serializeFields mode fields v) [] hmem hdistinct
  rw [filled_nil, serializeFields_names, append_nil] at hfills
  have hentries := hfills.roundtrips hmode
  rw [length_serializeFields] at hentries
  have hall : ∀ name ∈ target.names, name ∈ fields.names.reverse := by
    intro name hname
    rw [mem_reverse, ← names_of_types]
    rw [← names_of_types] at hname
    exact map_subset _ htypes hname
  have hbody := hentries.andThen (reads_collect target w _ hall)
  have hlen := writeLen_roundtrips fields.length
  cases mode with
  | positional => cases hmode
  | stable | typedStable =>
    rw [serialize, serializeStruct, bind_assoc]
    refine tagged (hlen.bind ?_)
    rw [toNat_len hfits]
    exact hbody

/-- A struct in `TypedStable` mode is read by every target that declares its fields,
all of them and in any order: the decode succeeds with the encoded values. -/
theorem typed_struct_reordered (fields target : Fields) (hfields : (Ty.struct fields).wellFormed)
    (htarget : (Ty.struct target).wellFormed) (v : fields.Val) (hsub : target.types ⊆ fields.types)
    (hall : fields.types ⊆ target.types) :
    ∃ bytes w, toTypedVec (.struct fields) v = .ok bytes ∧ fromTypedBytes (.struct target) bytes = .ok w ∧
      target.entries w ⊆ fields.entries v := by
  have hvalid := hfields
  simp only [Ty.wellFormed, Bool.and_eq_true, decide_eq_true_eq] at hvalid htarget
  obtain ⟨w, hw⟩ := exists_projection v target hsub
  have hvw := entries_subset hvalid.1.2 hw hall
  have hround : Roundtrips (serialize .typedStable (.struct fields) v) (deserialize .typedStable (.struct target)) w :=
    reordered_roundtrips rfl hvalid.1.1 hvalid.1.2 htarget.2 htarget.1.2 hvw hsub
  obtain ⟨bytes, hwrite, hread⟩ := hround
  have hrun := hwrite []
  rw [nil_append] at hrun
  refine ⟨bytes, w, ?_, fromBytesWithMode_of_reads hread, hw⟩
  rw [toTypedVec, toVecWithMode, hrun]
  rfl

namespace Sample

def wide : Fields := .cons ⟨"a", by decide⟩ .bool (.cons ⟨"b", by decide⟩ .bool .nil)

def flipped : Fields := .cons ⟨"b", by decide⟩ .bool (.cons ⟨"a", by decide⟩ .bool .nil)

def narrow : Fields := .cons ⟨"b", by decide⟩ .bool .nil

/-- `Wide` read with its fields in the other order. -/
theorem wide_reordered : ∃ bytes w, toTypedVec (.struct wide) (true, false, ()) = .ok bytes ∧
      fromTypedBytes (.struct flipped) bytes = .ok w ∧ flipped.entries w ⊆ wide.entries (true, false, ()) :=
  typed_struct_reordered wide flipped (by decide) (by decide) (true, false, ())
    (by simp [wide, flipped, types]) (by simp [wide, flipped, types])

def wideBytes : Bytes := [19, 2, 1, 97, 1, 1, 1, 98, 1, 0]

/-- The value of the dropped field `a` stays in the input and is read as a name. -/
theorem dropped_field_not_skipped : (Ty.struct wide).wellFormed = true ∧ (Ty.struct narrow).wellFormed = true ∧
    narrow.types ⊆ wide.types ∧ toTypedVec (.struct wide) (true, false, ()) = .ok wideBytes ∧
    fromTypedBytes (.struct narrow) wideBytes = .error (.error (.custom (.missingField "b"))) := by
  refine ⟨by decide, by decide, by simp [wide, narrow, types], ?_, ?_⟩
  · decide +kernel
  · rfl

/-- Ten bytes for the dropped `a` happen to do no harm: they are read as a name, together with the absent `b`. -/
example : fromTypedBytes (.struct (.cons ⟨"b", by decide⟩ (.option .bool) .nil))
    [19, 2, 1, 97, 14, 10, 97, 97, 97, 97, 97, 97, 97, 97, 97, 97, 1, 98, 15] = .ok (none, ()) := rfl

end Sample
end Bmux.Codec
