import Bmux.L1Encoding.Serializer
import Bmux.L1Encoding.Deserializer

/-!
# The serde adapters invert each other

For each method of the serializer and the deserializer method of the same
shape, one lemma: what the first writes, the second reads back, in every mode
and whatever the `tagged_identifier` flag is (`Roundtrips`). The lemmas are
composed along the type: by position for tuples, by name for structs, where the
order in which the entries arrive does not matter as long as each finds its own
empty slot (`Fills`), and by name or declaration index for enums.

`serde_roundtrip` is the result for a whole type, with prefix-freeness and for
the three public decoders.
-/
namespace Bmux.Codec
open Wire Streams Canonical List Inverts Fields UInt64 Varint Prod

def Unlimited (d : Flags) : Prop := d.limits = none

abbrev Roundtrips {α : Type} (w : Serializer) (r : De α) (a : α) : Prop := Inverts Unlimited Unlimited w r a

variable {α : Type} {mode : EncodingMode}

/-! ## Primitives -/

theorem reads_record (event : Event) : Reads Unlimited Unlimited (record event) [] () :=
  fun _ _ hc => ⟨_, rfl, hc⟩

theorem reads_admitEntries (n : Nat) : Reads Unlimited Unlimited (admitEntries n) [] () := by
  intro rest c hc
  refine ⟨c, ?_, hc⟩
  rw [admitEntries, exec_of]
  rw [hc]
  rfl

theorem reads_admitBlob (n : Nat) : Reads Unlimited Unlimited (admitBlob n) [] () := by
  intro rest c hc
  refine ⟨c, ?_, hc⟩
  rw [admitBlob, exec_of]
  rw [hc]
  rfl

theorem reads_readU8 (byte : UInt8) : Reads Unlimited Unlimited readU8 [byte] byte := by
  have h : Reads Unlimited Unlimited (consume 1) [byte] ⟨[byte], rfl⟩ := reads_consume _ (n := 1) rfl
  exact h.bind (reads_pure byte)

variable {a : α} {decode : Bytes → Option (α × Nat)}

theorem reads_readVarint {b : Bytes}
    (h : ∀ rest, decode (b ++ rest) = some (a, b.length)) : Reads Unlimited Unlimited (readVarint decode) b a := by
  intro rest c hc
  refine ⟨c, ?_, hc⟩
  simp [readVarint, h rest]

theorem varint_roundtrips {b : Bytes}
    (h : ∀ rest, decode (b ++ rest) = some (a, b.length)) : Roundtrips (extend b) (readVarint decode) a :=
  extend (reads_readVarint h)

theorem writeLen_roundtrips (n : Nat) : Roundtrips (writeLen n) readVarintUsize (ofNat n) := by
  have hread := varint_roundtrips (decodeUsize_encodeUsize (ofNat n))
  have hadmit : Reads Unlimited Unlimited (admitEntries (ofNat n).toNat >>= fun _ => pure (ofNat n)) []
      (ofNat n) := (reads_admitEntries _).bind (reads_pure _)
  exact hread.andThen ((reads_record _).bind hadmit)

variable {n : Nat}

theorem toNat_len (h : n < 2 ^ 64) : (ofNat n).toNat = n := toNat_ofNat_of_lt' h

theorem bytes_roundtrips (v : Buffer) :
    Roundtrips (writeLen v.val.length >>= fun _ => extend v.val) readBytes v := by
  have hlen := varint_roundtrips (decodeUsize_encodeUsize (ofNat v.val.length))
  have hbytes : Roundtrips (extend v.val) (consume (ofNat v.val.length).toNat)
      ⟨v.val, (toNat_len v.fits).symm⟩ := extend (reads_consume _ _)
  refine hlen.bind (.before (reads_record _) (.before (reads_admitBlob _) (hbytes.andThen ?_)))
  exact reads_pure v

theorem writeStr_roundtrips (s : Text) : Roundtrips (writeStr s) readStr s := by
  have hbytes := bytes_roundtrips ⟨utf8 s.val, s.fits⟩
  refine hbytes.andThen ?_
  have hread : fromUtf8 (utf8 s.val) = some s.val := fromUtf8_utf8 s.val
  split
  · next value h =>
    rw [hread, Option.some.injEq] at h
    subst h
    exact reads_pure _
  · next h =>
    rw [hread] at h
    cases h

/-! ## Type tags -/

theorem tagOfU8_toU8 (tag : TypeTag) : tagOfU8 tag.toU8 = some tag := by
  cases tag <;> rfl

theorem reads_readTag (tag : TypeTag) : Reads Unlimited Unlimited (readTag .typedStable) [tag.toU8] (some tag) := by
  refine (reads_readU8 tag.toU8).bind ?_
  rw [tagOfU8_toU8]
  exact reads_pure _

theorem writeTag_roundtrips (mode : EncodingMode) (tag : TypeTag) :
    Roundtrips (writeTag mode tag) (expectTag mode tag) () := by
  cases mode with
  | stable | positional => exact pure ()
  | typedStable =>
    refine (extend (reads_readTag tag)).andThen ?_
    simp only [ne_eq, not_true_eq_false, if_false]
    exact reads_pure ()

variable {w : Serializer} {r : De α}

theorem tagged {tag : TypeTag} (h : Roundtrips w r a) :
    Roundtrips (writeTag mode tag >>= fun _ => w) (expectTag mode tag >>= fun _ => r) a :=
  (writeTag_roundtrips mode tag).bind h

theorem withTagged_roundtrips (enter : Cursor Flags → Bool)
    (h : Roundtrips w r a) : Roundtrips w (withTagged enter r) a :=
  h.within (fun _ hc => hc) (fun _ _ _ hc' => hc')

/-! ## Scalars -/

theorem push_roundtrips (byte : UInt8) : Roundtrips (push byte) readU8 byte :=
  extend (reads_readU8 byte)

theorem bool_roundtrips (v : Bool) : Roundtrips (serializeBool mode v) (deserializeBool mode) v := by
  refine tagged ((push_roundtrips _).andThen ?_)
  cases v <;> exact reads_pure _

theorem i8_roundtrips (v : Int8) : Roundtrips (serializeI8 mode v) (deserializeI8 mode) v := by
  have hfits : -2 ^ 7 ≤ v.toInt16.toInt ∧ v.toInt16.toInt < 2 ^ 7 := by
    rw [Int8.toInt_toInt16]
    exact ⟨v.le_toInt, v.toInt_lt⟩
  refine tagged ((varint_roundtrips (decodeI16_encodeI16 v.toInt16)).andThen ?_)
  rw [if_pos hfits, Int8.toInt8_toInt16]
  exact reads_pure v

theorem le_roundtrips {value : Nat} (h : value < 256 ^ n) (g : Nat → α) :
    Roundtrips (extend (leBytes n value)) (consume n >>= fun bytes => pure (g (ofLe bytes.val))) (g value) := by
  have hread : Roundtrips (extend (leBytes n value)) (consume n) ⟨leBytes n value, leBytes_length n value⟩ :=
    extend (reads_consume _ _)
  refine hread.andThen ?_
  rw [ofLe_leBytes h]
  exact reads_pure _

theorem f32_roundtrips (v : UInt32) : Roundtrips (serializeF32 mode v) (deserializeF32 mode) v := by
  have h := le_roundtrips (n := 4) v.toNat_lt UInt32.ofNat
  rw [UInt32.ofNat_toNat] at h
  exact tagged h

theorem f64_roundtrips (v : UInt64) : Roundtrips (serializeF64 mode v) (deserializeF64 mode) v := by
  have h := le_roundtrips (n := 8) v.toNat_lt UInt64.ofNat
  rw [UInt64.ofNat_toNat] at h
  exact tagged h

theorem char_roundtrips (v : Char) : Roundtrips (serializeChar mode v) (deserializeChar mode) v := by
  refine tagged ((varint_roundtrips (decodeU32_encodeU32 v.val)).andThen ?_)
  rw [dif_pos v.valid]
  exact reads_pure v

/-! ## Options, sequences and maps -/

theorem none_roundtrips (r : De α) : Roundtrips (serializeNone mode) (deserializeOption mode r) none := by
  cases mode with
  | typedStable => exact (extend (reads_readTag .none)).bind (pure none)
  | stable | positional =>
    exact (push_roundtrips 0).andThen (reads_pure none)

theorem some_roundtrips (h : Roundtrips w r a) :
    Roundtrips (serializeSome mode w) (deserializeOption mode r) (some a) := by
  cases mode with
  | typedStable => exact (extend (reads_readTag .some)).bind (h.map some)
  | stable | positional =>
    exact (push_roundtrips 1).bind (h.map some)

theorem seq_roundtrips {put : α → Serializer} (v : Seq α)
    (h : ∀ x ∈ v.elements, Roundtrips (put x) r x) :
    Roundtrips (serializeSeq mode (some v.elements.length) >>= fun _ => v.elements.forM put)
      (deserializeSeq mode r) v := by
  have helems := repeatRead v.elements (toNat_len v.fits).symm h
  rw [serializeSeq, bind_assoc]
  refine tagged ((writeLen_roundtrips _).bind (.before (reads_record _) ?_))
  exact helems.andThen (reads_pure v)

theorem entry_roundtrips {κ υ : Type} {wk wv : Serializer} {rk : De κ} {rv : De υ} {entry : κ × υ}
    (hk : Roundtrips wk rk entry.1) (hv : Roundtrips wv rv entry.2) :
    Roundtrips (wk >>= fun _ => wv) (nextEntry rk rv) entry :=
  (withTagged_roundtrips _ hk).bind ((withTagged_roundtrips _ hv).andThen (reads_pure entry))

theorem map_roundtrips {κ υ : Type} [DecidableEq κ] {put : κ × υ → Serializer} {rk : De κ} {rv : De υ}
    (m : Map κ υ) (h : ∀ entry ∈ m.entries, Roundtrips (put entry) (nextEntry rk rv) entry) :
    Roundtrips (serializeMap mode (some m.entries.length) >>= fun _ => m.entries.forM put)
      (deserializeMap mode rk rv) m := by
  have hentries := repeatRead m.entries (toNat_len m.fits).symm h
  rw [serializeMap, bind_assoc]
  refine tagged ((writeLen_roundtrips _).bind (.before (reads_record _) (hentries.andThen ?_)))
  rw [Map.ofEntries_entries]
  exact reads_pure m

/-! ## Tuples -/

theorem count_roundtrips (h : n < 2 ^ 64) :
    Roundtrips (whenTyped mode (writeLen n)) (readCount mode n) n := by
  cases mode with
  | typedStable =>
    have hlen := (writeLen_roundtrips n).map toNat
    rw [toNat_len h] at hlen
    exact hlen
  | stable | positional => exact pure n

theorem counted (visitSeq : Nat → De α) (h : n < 2 ^ 64) (hw : Roundtrips w (visitSeq n) a) :
    Roundtrips (whenTyped mode (writeLen n) >>= fun _ => w) (tupleVariant mode n visitSeq) a :=
  (count_roundtrips h).bind hw

/-! ## Structs -/

/-- The entries of a struct take the slots from one state to another, each entry
being read where its name puts it. -/
def Fills {σ : Type} (fill : Text → σ → De σ) : List (Text × Serializer) → σ → σ → Prop
  | [], slots, slots' => slots = slots'
  | field :: fields, slots, slots' =>
    ∃ next, Roundtrips field.2 (fill field.1 slots) next ∧ Fills fill fields next slots'

theorem Fills.roundtrips (hmode : isStableNamed mode) {σ : Type} {fill : Text → σ → De σ} :
    ∀ {fields : List (Text × Serializer)} {slots slots' : σ}, Fills fill fields slots slots' →
      Roundtrips (fields.forM (serializeField mode)) (visitEntries fill fields.length slots) slots'
  | [], slots, slots', h => by
    rw [show slots = slots' from h]
    exact pure _
  | field :: fields, slots, slots', h => by
    obtain ⟨next, hfield, hrest⟩ := h
    have hname : Roundtrips (whenNamed mode (writeStr field.1)) readStr field.1 := by
      rw [whenNamed, if_pos hmode]
      exact writeStr_roundtrips field.1
    have hentries := Fills.roundtrips hmode hrest
    change Roundtrips (serializeField mode field >>= fun _ => fields.forM (serializeField mode)) _ _
    rw [serializeField, bind_assoc]
    exact hname.bind (hfield.bind hentries)

/-- A struct's body: its field count and its entries by name, or its fields by position. -/
theorem struct_roundtrips {fields : List (Text × Serializer)} (hfits : n < 2 ^ 64)
    {visitMap visitSeq : Nat → De α}
    (hmap : isStableNamed mode → Roundtrips (fields.forM (serializeField mode)) (visitMap n) a)
    (hseq : Roundtrips (fields.forM snd) (visitSeq n) a) :
    Roundtrips (whenNamed mode (writeLen n) >>= fun _ => fields.forM (serializeField mode))
      (visitStruct mode n visitMap visitSeq) a := by
  cases mode with
  | stable | typedStable =>
    refine (writeLen_roundtrips n).bind ?_
    rw [toNat_len hfits]
    exact hmap rfl
  | positional => exact hseq

/-! ## Slots -/

/-- The slots once the fields named in `done` have been read. -/
def Fields.filled : (fields : Fields) → fields.Val → List Text → fields.Slots
  | .nil, _, _ => ()
  | .cons name _ fields, v, done => (if name ∈ done then some v.1 else none, fields.filled v.2 done)

theorem filled_nil : (fields : Fields) → (v : fields.Val) → fields.filled v [] = fields.empty
  | .nil, _ => rfl
  | .cons _ _ fields, v => by
    rw [filled, empty, filled_nil fields v.2, if_neg not_mem_nil]

theorem filled_of_notMem : (fields : Fields) → (v : fields.Val) → {name : Text} → name ∉ fields.names →
    (done : List Text) → fields.filled v (name :: done) = fields.filled v done
  | .nil, _, _, _, _ => rfl
  | .cons head _ fields, v, name, h, done => by
    rw [names, mem_cons, not_or] at h
    have hhead : head ∈ name :: done ↔ head ∈ done := by
      rw [mem_cons]
      exact or_iff_right (fun he => h.1 he.symm)
    simp only [filled, filled_of_notMem fields v.2 h.2 done, hhead]

theorem reads_collect : (fields : Fields) → (v : fields.Val) → (done : List Text) →
    (∀ name ∈ fields.names, name ∈ done) → Reads Unlimited Unlimited (collect fields (fields.filled v done)) [] v
  | .nil, _, _, _ => reads_pure _
  | .cons name t fields, v, done, h => by
    have hname : name ∈ done := h name mem_cons_self
    have hrest := reads_collect fields v.2 done fun n hn => h n (mem_cons_of_mem name hn)
    rw [filled, if_pos hname]
    exact (reads_pure v.1).bind (hrest.bind (reads_pure (v.1, v.2)))

theorem serializeFields_names (mode : EncodingMode) : (fields : Fields) → (v : fields.Val) →
    (serializeFields mode fields v).map fst = fields.names
  | .nil, _ => rfl
  | .cons name t fields, v => by
    rw [serializeFields, map_cons, serializeFields_names mode fields v.2, names]

theorem length_names : (fields : Fields) → fields.names.length = fields.length
  | .nil => rfl
  | .cons _ _ fields => by rw [Fields.names, length_cons, length_names fields, Fields.length]

theorem length_serializeFields (fields : Fields) (v : fields.Val) :
    (serializeFields mode fields v).length = fields.length := by
  rw [← length_map fst, serializeFields_names, length_names]

/-- Each field of `fields`, encoded from `v`, is read into its own empty slot. -/
def FieldwiseRoundtrips (mode : EncodingMode) (fields : Fields) (v : fields.Val) : Prop :=
  ∀ field ∈ serializeFields mode fields v, ∀ done, field.1 ∉ done →
    Roundtrips field.2 (fillField mode fields field.1 (fields.filled v done)) (fields.filled v (field.1 :: done))

theorem fills_of_fieldwise {fields : Fields} {v : fields.Val} (h : FieldwiseRoundtrips mode fields v) :
    ∀ (entries : List (Text × Serializer)) (done : List Text), (∀ e ∈ entries, e ∈ serializeFields mode fields v) →
      (entries.map fst ++ done).Nodup →
      Fills (fillField mode fields) entries (fields.filled v done)
        (fields.filled v ((entries.map fst).reverse ++ done))
  | [], _, _, _ => rfl
  | entry :: entries, done, hmem, hnodup => by
    rw [map_cons, cons_append, nodup_cons, mem_append, not_or] at hnodup
    have hentry := h entry (hmem entry mem_cons_self) done hnodup.1.2
    have hperm : (entries.map fst ++ entry.1 :: done).Nodup := by
      rw [nodup_middle, nodup_cons, mem_append, not_or]
      exact hnodup
    have hrest := fills_of_fieldwise h entries (entry.1 :: done)
      (fun e he => hmem e (mem_cons_of_mem entry he)) hperm
    rw [map_cons, reverse_cons, append_assoc]
    exact ⟨_, hentry, hrest⟩

/-! ## Enums -/

def identifier (mode : EncodingMode) (index : UInt32) (name : Text) : Identifier :=
  if isStableNamed mode then .name name else .index index

theorem selects_identifier (mode : EncodingMode) (index : UInt32) (name : Text) :
    (identifier mode index name).selects name index.toNat = true := by
  cases mode <;> simp [identifier, isStableNamed, Identifier.selects]

theorem not_selects_identifier (mode : EncodingMode) {index : UInt32} {name name' : Text} {index' : Nat}
    (hname : name ≠ name') (hindex : index.toNat ≠ index') :
    (identifier mode index name).selects name' index' = false := by
  cases mode <;> simp [identifier, isStableNamed, Identifier.selects, hname, hindex]

theorem identifier_roundtrips (index : UInt32) (name : Text) :
    Inverts (fun d => Unlimited d ∧ d.taggedIdentifier = false) Unlimited (writeVariant mode index name)
      (deserializeIdentifier mode) (identifier mode index name) := by
  have hname := (writeStr_roundtrips name).map Identifier.name
  have hindex := (varint_roundtrips (decodeU32_encodeU32 index)).map Identifier.index
  have weaken : ∀ {w : Serializer} {r : De Identifier} {a : Identifier}, Roundtrips w r a →
      Inverts (fun d => Unlimited d ∧ d.taggedIdentifier = false) Unlimited w r a :=
    fun ⟨b, hw, hr⟩ => ⟨b, hw, fun rest c hc => hr rest c hc.1⟩
  cases mode with
  | stable => exact weaken hname
  | positional => exact weaken hindex
  | typedStable =>
    obtain ⟨b, hw, hr⟩ := hname
    refine ⟨b, hw, fun rest c hc => ?_⟩
    have hget : (get : De (Cursor Flags)).exec ⟨b ++ rest, c⟩ = (.ok ⟨b ++ rest, c⟩, ⟨b ++ rest, c⟩) := rfl
    rw [deserializeIdentifier, exec_bind_ok hget]
    rw [hc.2]
    exact hr rest c hc.1

/-- An enum behind its tag: the identifier and then what it selects. -/
theorem enum_roundtrips {index : UInt32} {name : Text} {visitVariant : Identifier → De α}
    (h : Roundtrips w (visitVariant (identifier mode index name)) a) :
    Roundtrips (writeTag mode .enum >>= fun _ => writeVariant mode index name >>= fun _ => w)
      (deserializeEnum mode visitVariant) a := by
  refine tagged (within ?_ ?_ ((identifier_roundtrips index name).bind h))
  · exact fun _ hc => ⟨hc, rfl⟩
  · exact fun _ _ _ hc' => hc'

theorem unitVariant_roundtrips : Roundtrips (whenTyped mode (writeLen 0)) (unitVariant mode) () := by
  cases mode with
  | stable | positional => exact pure ()
  | typedStable => exact (writeLen_roundtrips 0).andThen (reads_pure ())

theorem newtypeVariant_roundtrips (h : Roundtrips w r a) :
    Roundtrips (whenTyped mode (writeLen 1) >>= fun _ => w) (newtypeVariant mode r) a := by
  cases mode with
  | stable | positional => exact h
  | typedStable => exact (writeLen_roundtrips 1).bind h

/-! ## Derived implementations -/

/-- The entries of a struct by name, or its fields by position. -/
theorem structBody_roundtrips {fields : Fields} {v : fields.Val} (hfits : fields.length < 2 ^ 64)
    (hnodup : fields.names.Nodup) (hnamed : FieldwiseRoundtrips mode fields v)
    (hseq : Roundtrips ((serializeFields mode fields v).forM snd) (visitFields mode fields fields.length 0) v) :
    Roundtrips
      (whenNamed mode (writeLen fields.length) >>= fun _ => (serializeFields mode fields v).forM (serializeField mode))
      (visitStruct mode fields.length
        (fun len => visitEntries (fillField mode fields) len fields.empty >>= collect fields)
        (fun remaining => visitFields mode fields remaining 0)) v := by
  refine struct_roundtrips hfits (fun hmode => ?_) hseq
  have hdistinct : ((serializeFields mode fields v).map fst ++ []).Nodup := by
    rw [append_nil, serializeFields_names]
    exact hnodup
  have hfills := fills_of_fieldwise hnamed (serializeFields mode fields v) [] (fun _ he => he) hdistinct
  rw [filled_nil, serializeFields_names, append_nil] at hfills
  have hentries := hfills.roundtrips hmode
  rw [length_serializeFields] at hentries
  exact hentries.andThen (reads_collect fields v _ fun _ hn => mem_reverse.mpr hn)

mutual
/-- By recursion over the type, together with the next three. -/
theorem value_roundtrips : (t : Ty) → t.wellFormed → (v : t.Val) →
    Roundtrips (serialize mode t v) (deserialize mode t) v
  | .bool, _, v => bool_roundtrips v
  | .i8, _, v => i8_roundtrips v
  | .i16, _, v => tagged (varint_roundtrips (decodeI16_encodeI16 v))
  | .i32, _, v => tagged (varint_roundtrips (decodeI32_encodeI32 v))
  | .i64, _, v => tagged (varint_roundtrips (decodeI64_encodeI64 v))
  | .u8, _, v => tagged (push_roundtrips v)
  | .u16, _, v => tagged (varint_roundtrips (decodeU16_encodeU16 v))
  | .u32, _, v => tagged (varint_roundtrips (decodeU32_encodeU32 v))
  | .u64, _, v => tagged (varint_roundtrips (decodeU64_encodeU64 v))
  | .f32, _, v => f32_roundtrips v
  | .f64, _, v => f64_roundtrips v
  | .char, _, v => char_roundtrips v
  | .str, _, v => tagged (writeStr_roundtrips v)
  | .bytes, _, v => tagged (bytes_roundtrips v)
  | .option t, _, none => none_roundtrips (deserialize mode t)
  | .option t, h, some v => some_roundtrips (value_roundtrips t h v)
  | .unit, _, _ | .unitStruct, _, _ => writeTag_roundtrips mode .unit
  | .newtypeStruct t, h, v => value_roundtrips t h v
  | .seq t, h, v => seq_roundtrips v fun x _ => value_roundtrips t h x
  | .tuple ts, h, v => by
    simp only [Ty.wellFormed, Bool.and_eq_true, decide_eq_true_eq] at h
    rw [serialize, serializeTuple, bind_assoc]
    exact tagged (counted (fun n => visitElements mode ts n 0) h.1 (elements_roundtrip ts h.2 v 0))
  | .tupleStruct ts, h, v => by
    simp only [Ty.wellFormed, Bool.and_eq_true, decide_eq_true_eq] at h
    rw [serialize, serializeTupleStruct, bind_assoc]
    exact tagged (counted (fun n => visitElements mode ts n 0) h.1 (elements_roundtrip ts h.2 v 0))
  | .map k v, h, m => by
    simp only [Ty.wellFormed, Bool.and_eq_true] at h
    exact map_roundtrips m fun e _ => entry_roundtrips (value_roundtrips k h.1 e.1) (value_roundtrips v h.2 e.2)
  | .struct fields, h, v => by
    simp only [Ty.wellFormed, Bool.and_eq_true, decide_eq_true_eq] at h
    have hbody := structBody_roundtrips h.1.1 h.1.2 (fieldwise_roundtrips fields h.2 h.1.2 v)
      (fields_roundtrip fields h.2 v 0)
    rw [serialize, serializeStruct, bind_assoc]
    exact tagged hbody
  | .enum variants, h, v => by
    simp only [Ty.wellFormed, Bool.and_eq_true, decide_eq_true_eq] at h
    obtain ⟨name, index, body, hser, -, -, hbody⟩ :=
      variant_roundtrips variants h.2 h.1.2 v 0 (by omega)
    rw [serialize, hser]
    exact enum_roundtrips hbody

theorem elements_roundtrip : (ts : Tys) → ts.wellFormed → (v : ts.Val) → (index : Nat) →
    Roundtrips ((serializeElements mode ts v).forM id) (visitElements mode ts ts.length index) v
  | .nil, _, _, _ => pure ()
  | .cons t ts, h, v, index => by
    simp only [Tys.wellFormed, Bool.and_eq_true] at h
    have hrest := elements_roundtrip ts h.2 v.2 (index + 1)
    exact (value_roundtrips t h.1 v.1).bind (hrest.andThen (reads_pure (v.1, v.2)))

theorem fields_roundtrip : (fields : Fields) → fields.wellFormed → (v : fields.Val) → (index : Nat) →
    Roundtrips ((serializeFields mode fields v).forM snd) (visitFields mode fields fields.length index) v
  | .nil, _, _, _ => pure ()
  | .cons _ t fields, h, v, index => by
    simp only [wellFormed, Bool.and_eq_true] at h
    have hrest := fields_roundtrip fields h.2 v.2 (index + 1)
    exact (value_roundtrips t h.1 v.1).bind (hrest.andThen (reads_pure (v.1, v.2)))

theorem fieldwise_roundtrips : (fields : Fields) → fields.wellFormed → fields.names.Nodup → (v : fields.Val) →
    FieldwiseRoundtrips mode fields v
  | .nil, _, _, _ => fun _ hmem => nomatch hmem
  | .cons name t fields, h, hnodup, v => by
    simp only [wellFormed, Bool.and_eq_true] at h
    rw [names, nodup_cons] at hnodup
    intro field hmem done hdone
    rw [serializeFields, mem_cons] at hmem
    rcases hmem with rfl | hmem
    · -- the head field: its slot is empty, and no other slot has its name
      have hvalue := value_roundtrips t h.1 v.1
      simp only [filled, fillField, if_neg hdone, mem_cons_self, if_true,
        filled_of_notMem fields v.2 hnodup.1]
      exact (withTagged_roundtrips _ hvalue).andThen (reads_pure _)
    · -- a later field: the head slot stays as it is
      have hname : field.1 ∈ fields.names := by
        rw [← serializeFields_names mode fields v.2]
        exact mem_map_of_mem hmem
      have hne : field.1 ≠ name := fun he => hnodup.1 (he ▸ hname)
      have hhead : name ∈ field.1 :: done ↔ name ∈ done := by
        rw [mem_cons]
        exact or_iff_right (fun he => hne he.symm)
      have hrest := fieldwise_roundtrips fields h.2 hnodup.2 v.2 field hmem done hdone
      simp only [filled, fillField, if_neg hne, hhead]
      exact hrest.andThen (reads_pure _)

/-- The variant that was written is the one its identifier selects. -/
theorem variant_roundtrips : (variants : Variants) → variants.wellFormed → variants.names.Nodup →
    (v : variants.Val) → (index : Nat) → index + variants.length ≤ 2 ^ 32 →
    ∃ (name : Text) (i : UInt32) (body : Serializer), serializeVariant mode variants v index =
          (writeTag mode .enum >>= fun _ => writeVariant mode i name >>= fun _ => body) ∧
        name ∈ variants.names ∧ index ≤ i.toNat ∧
        Roundtrips body (visitVariant mode variants (identifier mode i name) index) v
  | .nil, _, _, v, _, _ => nomatch v
  | .cons name shape variants, h, hnodup, .inl v, index, hindex => by
    simp only [Variants.wellFormed, Bool.and_eq_true] at h
    rw [Variants.length] at hindex
    have hi : (UInt32.ofNat index).toNat = index := UInt32.toNat_ofNat_of_lt' (by simp only [UInt32.size]; omega)
    obtain ⟨body, hser, hbody⟩ := shape_roundtrips shape h.1 v (UInt32.ofNat index) name
    refine ⟨name, UInt32.ofNat index, body, hser, mem_cons_self, hi.ge, ?_⟩
    have hselects := selects_identifier mode (UInt32.ofNat index) name
    rw [hi] at hselects
    rw [visitVariant, if_pos hselects]
    exact hbody.map Sum.inl
  | .cons name shape variants, h, hnodup, .inr v, index, hindex => by
    simp only [Variants.wellFormed, Bool.and_eq_true] at h
    rw [Variants.names, nodup_cons] at hnodup
    rw [Variants.length] at hindex
    obtain ⟨name', i, body, hser, hmem, hle, hbody⟩ :=
      variant_roundtrips variants h.2 hnodup.2 v (index + 1) (by omega)
    refine ⟨name', i, body, hser, mem_cons_of_mem name hmem, by omega, ?_⟩
    have hne : name' ≠ name := fun he => hnodup.1 (he ▸ hmem)
    have hskip : (identifier mode i name').selects name index = false :=
      not_selects_identifier mode hne (by omega)
    rw [visitVariant, if_neg (by rw [hskip]; decide)]
    exact hbody.map Sum.inr

theorem shape_roundtrips : (shape : Shape) → shape.wellFormed → (v : shape.Val) → (i : UInt32) → (name : Text) →
    ∃ body : Serializer, serializeShape mode shape v i name =
          (writeTag mode .enum >>= fun _ => writeVariant mode i name >>= fun _ => body) ∧
        Roundtrips body (visitShape mode shape) v
  | .unit, _, _, _, _ => ⟨_, rfl, unitVariant_roundtrips⟩
  | .newtype t, h, v, _, _ => ⟨_, rfl, newtypeVariant_roundtrips (value_roundtrips t h v)⟩
  | .tuple ts, h, v, i, name => by
    simp only [Shape.wellFormed, Bool.and_eq_true, decide_eq_true_eq] at h
    refine ⟨_, ?_, counted (fun n => visitElements mode ts n 0) h.1 (elements_roundtrip ts h.2 v 0)⟩
    simp only [serializeShape, serializeTupleVariant, bind_assoc]
  | .struct fields, h, v, i, name => by
    simp only [Shape.wellFormed, Bool.and_eq_true, decide_eq_true_eq] at h
    refine ⟨_, ?_, structBody_roundtrips h.1.1 h.1.2 (fieldwise_roundtrips fields h.2 h.1.2 v)
      (fields_roundtrip fields h.2 v 0)⟩
    simp only [serializeShape, serializeStructVariant, bind_assoc]
end

/-! ## The public encoders and decoders -/

theorem toVecWithMode_reads (mode : EncodingMode) (t : Ty) (h : t.wellFormed) (v : t.Val) :
    ∃ bytes, toVecWithMode mode t v = .ok bytes ∧ Reads Unlimited Unlimited (deserialize mode t) bytes v := by
  have hround : Roundtrips (serialize mode t v) (deserialize mode t) v := value_roundtrips t h v
  obtain ⟨bytes, hwrite, hread⟩ := hround
  refine ⟨bytes, ?_, hread⟩
  have hrun := hwrite []
  rw [toVecWithMode, hrun]
  rfl

theorem fromBytesWithMode_of_reads {mode : EncodingMode} {t : Ty} {bytes : Bytes} {v : t.Val}
    (h : Reads Unlimited Unlimited (deserialize mode t) bytes v) : fromBytesWithMode mode t bytes = .ok v := by
  obtain ⟨d, hrun, -⟩ := h [] Flags.new rfl
  rw [append_nil] at hrun
  rw [fromBytesWithMode, hrun]
  rfl

/-- In each mode the encoder succeeds, decoding what it wrote gives the value back and
stops where the encoding ends, and no encoding of a value of the type begins with
the encoding of another. -/
theorem serde_roundtrip (t : Ty) (h : t.wellFormed) (v : t.Val) :
    (∀ mode, ∃ bytes, toVecWithMode mode t v = .ok bytes ∧
      (∀ rest, ∃ d, (deserialize mode t).exec ⟨bytes ++ rest, .new⟩ = (.ok v, ⟨rest, d⟩)) ∧
      ∀ w rest, toVecWithMode mode t w = .ok (bytes ++ rest) → w = v ∧ rest = []) ∧
    (∃ bytes, toVec t v = .ok bytes ∧ fromBytes t bytes = .ok v) ∧
    (∃ bytes, toTypedVec t v = .ok bytes ∧ fromTypedBytes t bytes = .ok v) ∧
    ∃ bytes, toPositionalVec t v = .ok bytes ∧ fromPositionalBytes t bytes = .ok v := by
  have hmode : ∀ mode, ∃ bytes, toVecWithMode mode t v = .ok bytes ∧ fromBytesWithMode mode t bytes = .ok v := by
    intro mode
    obtain ⟨bytes, hwrite, hread⟩ := toVecWithMode_reads mode t h v
    exact ⟨bytes, hwrite, fromBytesWithMode_of_reads hread⟩
  refine ⟨fun mode => ?_, hmode .stable, hmode .typedStable, hmode .positional⟩
  obtain ⟨bytes, hwrite, hread⟩ := toVecWithMode_reads mode t h v
  refine ⟨bytes, hwrite, fun rest => ?_, fun w rest hw => ?_⟩
  · obtain ⟨d, hrun, -⟩ := hread rest Flags.new rfl
    exact ⟨d, hrun⟩
  · obtain ⟨bytes', hwrite', hread'⟩ := toVecWithMode_reads mode t h w
    rw [hw, Except.ok.injEq] at hwrite'
    have hnew : Unlimited Flags.new := rfl
    have happend : bytes ++ rest = bytes' ++ [] := by rw [hwrite', append_nil]
    have heq := hread.eq_of_append_eq hnew hread' happend
    exact ⟨heq.1.symm, heq.2⟩

namespace Sample

def side : Ty := .enum (.cons ⟨"Left", by decide⟩ .unit (.cons ⟨"At", by decide⟩ (.newtype .u16) .nil))

def panes : Ty :=
  .struct (.cons ⟨"focus", by decide⟩ (.option side) (.cons ⟨"sizes", by decide⟩ (.map side (.seq .i32)) .nil))

def panesValue : panes.Val :=
  (some (.inl ()), ⟨[(.inl (), ⟨[-1, 300], by decide⟩), (.inr (.inl 7), ⟨[], by decide⟩)], by decide, by decide⟩, ())

/-- A map with enum keys inside a struct, in each mode. -/
theorem panes_roundtrip : panes.wellFormed = true ∧
    (∃ bytes, toVec panes panesValue = .ok bytes ∧ fromBytes panes bytes = .ok panesValue) ∧
    (∃ bytes, toTypedVec panes panesValue = .ok bytes ∧ fromTypedBytes panes bytes = .ok panesValue) ∧
    ∃ bytes, toPositionalVec panes panesValue = .ok bytes ∧ fromPositionalBytes panes bytes = .ok panesValue :=
  ⟨by decide, (serde_roundtrip panes (by decide) panesValue).2⟩

end Sample
end Bmux.Codec
