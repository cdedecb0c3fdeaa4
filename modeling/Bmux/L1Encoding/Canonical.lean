import Bmux.Core.Wire

/-!
# The canonical field encoding (`plugins/cluster-plugin/src/control_codec.rs`)

Every durable record of the cluster plugin is written field by field with
`Writer` and read back with `Reader`: fixed-width big-endian integers, raw
16-byte UUIDs, booleans as exactly `0` or `1`, strings and byte fields with a
big-endian `u32` length in front. The writer asserts its limits (a violation
panics); the reader checks the same limits and returns a `CodecError`.

Each writer method is a `Put`, each reader method a `Get`, and the pair obeys
`Lawful`: it round-trips in front of any suffix, it accepts only what the
writer writes, and it does not panic. The `expect`s inside the reader are the
`panic` branches of `getFixed` and `Reader.bool`; the laws show they are dead.
-/
namespace Bmux.Canonical
open Wire List LawfulAs String LawfulOn

/-- A UUID is its 128 bits; `as_bytes` is the big-endian byte order. -/
abbrev Uuid := BitVec 128

abbrev Digest := BitVec 256

def MAX_STRING_BYTES : Nat := 65536
def MAX_BYTES : Nat := 16 * 1024 * 1024
def MAX_LIST_ITEMS : Nat := 16384

inductive CodecError where
  | truncated
  | invalidMagic
  | unsupportedSchema (version : UInt16)
  | invalidTag (typeName : String) (tag : UInt16)
  | invalidBoolean (value : UInt8)
  | invalidUtf8
  | limitExceeded (name : String)
  | trailingBytes
  deriving DecidableEq, Repr

/-! ## UTF-8 -/

def utf8 (s : String) : Bytes := s.toUTF8.data.toList

def fromUtf8 (b : Bytes) : Option String := fromUTF8? ⟨b.toArray⟩

theorem fromUtf8_eq_some {b : Bytes} {s : String} : fromUtf8 b = some s ↔ utf8 s = b := by
  unfold fromUtf8 utf8 String.fromUTF8? String.fromUTF8
  constructor
  · intro h
    split at h
    · simp only [Option.some.injEq] at h
      subst h
      simp [String.toUTF8]
    · cases h
  · intro h
    have hs : (⟨b.toArray⟩ : ByteArray) = s.toUTF8 := by rw [← h]
    have hv : (⟨b.toArray⟩ : ByteArray).IsValidUTF8 := by rw [hs]; exact s.isValidUTF8
    rw [dif_pos hv]
    simp only [Option.some.injEq]
    apply String.toByteArray_inj.mp
    exact hs

@[simp] theorem fromUtf8_utf8 (s : String) : fromUtf8 (utf8 s) = some s := fromUtf8_eq_some.mpr rfl

theorem utf8_length (s : String) : (utf8 s).length = s.utf8ByteSize := rfl

theorem utf8_append_length (s t : String) : (utf8 (s ++ t)).length = (utf8 s).length + (utf8 t).length := by
  simp [utf8_length]

theorem utf8_ofList_le (l : List Char) : (utf8 (ofList l)).length ≤ 4 * l.length := by
  rw [utf8_length, utf8ByteSize_ofList]
  induction l with
  | nil => simp
  | cons c l ih =>
    have hc := c.utf8Size_le_four
    rw [utf8Len_cons, length_cons]
    omega

/-! ## Writer -/

namespace Writer
variable {ε : Type}

def raw (bytes : Bytes) : Put ε := .ok bytes

def bool (value : Bool) : Put ε := .ok [if value then 1 else 0]

def u16 : UInt16 → Put ε := putFixed 2 UInt16.toNat
def u32 : UInt32 → Put ε := putFixed 4 UInt32.toNat
def u64 : UInt64 → Put ε := putFixed 8 UInt64.toNat

def len (value : Nat) : Put ε := if value < 2 ^ 32 then .ok (beBytes 4 value) else .error .panicked

def string (value : String) : Put ε :=
  if (utf8 value).length ≤ MAX_STRING_BYTES then seq [len (utf8 value).length, raw (utf8 value)]
  else .error .panicked

/-- Writes `Some` as `true` and the value, `None` as `false`. -/
def optional {α : Type} (put : α → Put ε) : Option α → Put ε
  | some value => seq [bool true, put value]
  | none => seq [bool false]

def optionalString : Option String → Put ε := optional string
def optionalU64 : Option UInt64 → Put ε := optional u64

def bytes (value : Bytes) : Put ε :=
  if value.length ≤ MAX_BYTES then seq [len value.length, raw value] else .error .panicked

def uuid : Uuid → Put ε := putFixed 16 BitVec.toNat

def list {α : Type} (put : α → Put ε) (items : List α) : Put ε := seq (len items.length :: items.map put)

def digest : Digest → Put ε := putFixed 32 BitVec.toNat

variable (b : Bytes)

@[simp] theorem writes_raw : Writes (raw b : Put ε) := ⟨b, rfl⟩
@[simp] theorem writes_bool (b : Bool) : Writes (bool b : Put ε) := ⟨_, rfl⟩
@[simp] theorem writes_u16 (v : UInt16) : Writes (u16 v : Put ε) := ⟨_, rfl⟩
@[simp] theorem writes_u32 (v : UInt32) : Writes (u32 v : Put ε) := ⟨_, rfl⟩
@[simp] theorem writes_u64 (v : UInt64) : Writes (u64 v : Put ε) := ⟨_, rfl⟩
@[simp] theorem writes_uuid (v : Uuid) : Writes (uuid v : Put ε) := ⟨_, rfl⟩
@[simp] theorem writes_digest (v : Digest) : Writes (digest v : Put ε) := ⟨_, rfl⟩

@[simp] theorem writes_len (n : Nat) : Writes (len n : Put ε) ↔ n < 2 ^ 32 := by
  unfold len
  split
  · rename_i h; exact iff_of_true (writes_ok _) h
  · rename_i h; exact iff_of_false (not_writes_error _) h

theorem writes_prefixed {max : Nat} (hmax : max < 2 ^ 32) (b : Bytes) :
    Writes (if b.length ≤ max then seq [len b.length, raw b] else .error .panicked : Put ε) ↔ b.length ≤ max := by
  split
  · rename_i h
    exact iff_of_true ((writes_seq_cons _ _).mpr ⟨(writes_len _).mpr (by omega), by simp⟩) h
  · rename_i h; exact iff_of_false (not_writes_error _) h

@[simp] theorem writes_string (s : String) :
    Writes (string s : Put ε) ↔ (utf8 s).length ≤ MAX_STRING_BYTES := writes_prefixed (by decide) _

@[simp] theorem writes_bytes : Writes (bytes b : Put ε) ↔ b.length ≤ MAX_BYTES := writes_prefixed (by decide) b

theorem writes_list {α : Type} (put : α → Put ε) (items : List α) :
    Writes (list put items) ↔ items.length < 2 ^ 32 ∧ ∀ a ∈ items, Writes (put a) := by
  simp [list, writes_seq]

@[simp] theorem writes_optionalString (v : Option String) :
    Writes (optionalString v : Put ε) ↔ ∀ s, v = some s → (utf8 s).length ≤ MAX_STRING_BYTES := by
  cases v <;> simp [optionalString, optional]

@[simp] theorem writes_optionalU64 (v : Option UInt64) : Writes (optionalU64 v : Put ε) := by
  cases v <;> simp [optionalU64, optional]

/-! The number of bytes a field takes. -/

@[simp] theorem size_raw : size (raw b : Put ε) = b.length := rfl
@[simp] theorem size_u16 (v : UInt16) : size (u16 v : Put ε) = 2 := rfl
@[simp] theorem size_u32 (v : UInt32) : size (u32 v : Put ε) = 4 := rfl
@[simp] theorem size_u64 (v : UInt64) : size (u64 v : Put ε) = 8 := rfl
@[simp] theorem size_uuid (v : Uuid) : size (uuid v : Put ε) = 16 := rfl
@[simp] theorem size_digest (v : Digest) : size (digest v : Put ε) = 32 := rfl

theorem size_len_le (n : Nat) : size (len n : Put ε) ≤ 4 := by
  unfold len
  split
  · exact le_of_eq (beBytes_length 4 n)
  · exact zero_le

theorem size_prefixed_le (max : Nat) (b : Bytes) :
    size (if b.length ≤ max then seq [len b.length, raw b] else .error .panicked : Put ε) ≤ 4 + b.length := by
  split
  · refine le_trans (size_seq_le _) ?_
    have hlen := size_len_le (ε := ε) b.length
    simp only [map_cons, map_nil, sum_cons, sum_nil, size_raw]
    omega
  · exact zero_le

theorem size_string_le (s : String) : size (string s : Put ε) ≤ 4 + (utf8 s).length := size_prefixed_le _ _

theorem size_bytes_le : size (bytes b : Put ε) ≤ 4 + b.length := size_prefixed_le _ _

theorem size_list_le {α : Type} {put : α → Put ε} {items : List α} {n : Nat}
    (h : ∀ a ∈ items, size (put a) ≤ n) : size (list put items) ≤ 4 + items.length * n := by
  have hsum : ((items.map put).map size).sum ≤ items.length * n := by
    have hcard := sum_le_card_nsmul ((items.map put).map size) n (by simpa using h)
    simpa using hcard
  have hlen := size_len_le (ε := ε) items.length
  refine le_trans (size_seq_le _) ?_
  simp only [map_cons, sum_cons]
  omega

end Writer

/-! ## Reader -/

namespace Reader

def take (len : Nat) : Get CodecError Bytes := Wire.take .truncated len

def bool : Get CodecError Bool := do
  match ← take 1 with
  | [value] =>
    if value = 0 then return false
    else if value = 1 then return true
    else fail (.invalidBoolean value)
  | _ => panic

def u16 : Get CodecError UInt16 := getFixed .truncated 2 UInt16.ofNat
def u32 : Get CodecError UInt32 := getFixed .truncated 4 UInt32.ofNat
def u64 : Get CodecError UInt64 := getFixed .truncated 8 UInt64.ofNat

def len (name : String) (max : Nat) : Get CodecError Nat := do
  let len ← u32
  if len.toNat > max then fail (.limitExceeded name) else return len.toNat

def string : Get CodecError String := do
  let n ← len "string" MAX_STRING_BYTES
  let bytes ← take n
  match fromUtf8 bytes with
  | some value => return value
  | none => fail .invalidUtf8

variable {α : Type} (get : Get CodecError α)

def optional : Get CodecError (Option α) := do
  if ← bool then
    let value ← get
    return some value
  else return none

def optionalString : Get CodecError (Option String) := optional string
def optionalU64 : Get CodecError (Option UInt64) := optional u64

def bytes : Get CodecError Bytes := do
  let n ← len "byte field" MAX_BYTES
  take n

def uuid : Get CodecError Uuid := getFixed .truncated 16 (BitVec.ofNat 128)

def list (name : String) (max : Nat) (get : Get CodecError α) : Get CodecError (List α) := do
  let n ← len name max
  repeatGet get n

def tagged (typeName : String) (ofTag : UInt16 → Option α) : Get CodecError α := do
  let tag ← u16
  match ofTag tag with
  | some value => return value
  | none => fail (.invalidTag typeName tag)

def digest : Get CodecError Digest := getFixed .truncated 32 (BitVec.ofNat 256)

def magic (expected : Bytes) : Get CodecError Unit := do
  let found ← take expected.length
  if found = expected then return () else fail .invalidMagic

/-- Runs a reader over the whole input: its fields, then `reader.finish()?`
(mirrors plugins/cluster-plugin/src/control_codec.rs:1295-1301). -/
def whole (bytes : Bytes) : Outcome CodecError α :=
  match (get.run bytes) with
  | .error fault => .error fault
  | .ok (value, rest) => if rest = [] then .ok value else .error (.error .trailingBytes)

end Reader

/-! ## Laws of the fields -/

section
variable {ε : Type}

theorem u16_lawful : Lawful (Writer.u16 : UInt16 → Put ε) Reader.u16 :=
  fixed_lawful _ 2 _ _ UInt16.toNat_lt (fun _ => UInt16.ofNat_toNat) fun _ => UInt16.toNat_ofNat_of_lt'

theorem u32_lawful : Lawful (Writer.u32 : UInt32 → Put ε) Reader.u32 :=
  fixed_lawful _ 4 _ _ UInt32.toNat_lt (fun _ => UInt32.ofNat_toNat) fun _ => UInt32.toNat_ofNat_of_lt'

theorem u64_lawful : Lawful (Writer.u64 : UInt64 → Put ε) Reader.u64 :=
  fixed_lawful _ 8 _ _ UInt64.toNat_lt (fun _ => UInt64.ofNat_toNat) fun _ => UInt64.toNat_ofNat_of_lt'

theorem uuid_lawful : Lawful (Writer.uuid : Uuid → Put ε) Reader.uuid :=
  fixed_lawful _ 16 _ _ BitVec.isLt (by simp) fun _ => Nat.mod_eq_of_lt

theorem digest_lawful : Lawful (Writer.digest : Digest → Put ε) Reader.digest :=
  fixed_lawful _ 32 _ _ BitVec.isLt (by simp) fun _ => Nat.mod_eq_of_lt

theorem take_lawful (n : Nat) :
    LawfulOn (fun b : Bytes => b.length = n) (Writer.raw : Bytes → Put ε) (Reader.take n) := by
  refine intro ?_ ?_ (take_noPanic _ n)
  · rintro a b rest rfl hb
    cases hb
    exact run_take_append _ a rest
  · intro inp a rest h
    obtain ⟨h1, h2⟩ := take_ok h
    exact ⟨h1, a, rfl, h2⟩

theorem bool_lawful : Lawful (Writer.bool : Bool → Put ε) Reader.bool := by
  refine single (bind (fun b : Bool => [if b then 1 else 0]) (take_lawful 1) (fun _ _ => rfl) fun bs hbs => ?_)
  obtain ⟨v, rfl⟩ := length_eq_one_iff.mp hbs
  simp only
  split
  · rename_i hv; exact pure (b := false) (fun b hb => by cases b <;> simp_all) (by simp [hv])
  · split
    · rename_i hv; exact pure (b := true) (fun b hb => by cases b <;> simp_all) (by simp [hv])
    · exact fail fun b hb => by cases b <;> simp_all

theorem len_lawful (name : String) (max : Nat) (hmax : max < 2 ^ 32) :
    LawfulOn (· ≤ max) (Writer.len : Nat → Put ε) (Reader.len name max) := by
  have h32 {n : Nat} (hn : n ≤ max) : (UInt32.ofNat n).toNat = n :=
    UInt32.toNat_ofNat_of_lt' (by simp [UInt32.size]; omega)
  have hput (n : Nat) (hn : n ≤ max) : (Writer.len n : Put ε) = seq [Writer.u32 (UInt32.ofNat n)] := by
    rw [seq_single, Writer.len, if_pos (by omega), Writer.u32, putFixed, h32 hn]
  refine congr (bind UInt32.ofNat u32_lawful (fun _ _ => trivial) fun v _ => ?_) hput
  split
  · refine fail ?_
    rintro n ⟨hn, rfl⟩
    rw [h32 hn] at *
    omega
  · rename_i hle
    refine pure ?_ ⟨not_lt.mp hle, UInt32.ofNat_toNat⟩
    rintro n ⟨hn, rfl⟩
    exact (h32 hn).symm

theorem prefixed_lawful (name : String) (max : Nat) (hmax : max < 2 ^ 32) :
    LawfulOn (fun b : Bytes => b.length ≤ max) (fun b => seq [(Writer.len b.length : Put ε), Writer.raw b])
      (do let n ← Reader.len name max; Reader.take n) := by
  refine bind List.length (len_lawful name max hmax) (fun b hb => hb) fun n hn => ?_
  refine ((take_lawful n).weaken fun b => ?_).last
  constructor
  · exact fun h => h.2
  · rintro rfl; exact ⟨hn, rfl⟩

theorem guarded_lawful {α : Type} {R : α → Prop} [DecidablePred R] {put : α → Put ε} {get : Get CodecError α}
    (h : LawfulOn R put get) : Lawful (fun a => if R a then put a else .error .panicked) get := by
  refine intro ?_ ?_ h.noPanic
  · intro a b rest _ hb
    split at hb
    · exact h.roundtrip rest ‹_› hb
    · cases hb
  · intro inp a rest hg
    obtain ⟨ha, b, hb, rfl⟩ := h.strict hg
    exact ⟨trivial, b, (if_pos ha).trans hb, rfl⟩

theorem bytes_lawful : Lawful (Writer.bytes : Bytes → Put ε) Reader.bytes :=
  guarded_lawful (prefixed_lawful "byte field" MAX_BYTES (by decide))

theorem string_lawful : Lawful (Writer.string : String → Put ε) Reader.string := by
  have h := prefixed_lawful (ε := ε) "string" MAX_STRING_BYTES (by decide)
  -- `len` then `take` is one length-prefixed read; only the UTF-8 check comes after it
  have hassoc : Reader.string = (do
      let bytes ← (do let n ← Reader.len "string" MAX_STRING_BYTES; Reader.take n)
      match fromUtf8 bytes with
      | some value => return value
      | none => fail .invalidUtf8) := by
    simp [Reader.string]
  rw [hassoc]
  refine guarded_lawful (single (bind utf8 h (fun _ ha => ha) fun bs hbs => ?_))
  split
  · rename_i s hs
    obtain rfl := fromUtf8_eq_some.mp hs
    refine pure (fun a ha => ?_) ⟨hbs, rfl⟩
    rw [← ha.2, fromUtf8_utf8] at hs
    exact Option.some.inj hs
  · rename_i hs
    refine fail ?_
    rintro a ⟨-, rfl⟩
    rw [fromUtf8_utf8] at hs
    cases hs

variable {α : Type}

variable {get : Get CodecError α} {P : α → Prop} {put : α → Put ε}

theorem optional_lawful {get : Get CodecError α} (h : LawfulOn P put get) :
    LawfulOn (fun v : Option α => ∀ a, v = some a → P a) (Writer.optional put) (Reader.optional get) := by
  have hput : ∀ v, Writer.optional put v = seq (Writer.bool v.isSome :: v.toList.map put) := by
    intro v; cases v <;> rfl
  refine congr (w := fun v => seq (Writer.bool v.isSome :: v.toList.map put)) ?_
    fun v _ => hput v
  refine bind Option.isSome bool_lawful (fun _ _ => trivial) fun b _ => ?_
  cases b with
  | false =>
    refine (pure (c := id) (b := none) (fun v hv => ?_) (by simp)).congr ?_
    · cases v <;> simp_all
    · rintro v ⟨-, hv⟩
      cases v with
      | none => rfl
      | some a => cases hv
  | true =>
    refine toOn (c := some) (R := P) (w := fun a => seq [put a]) ?_ ?_ rfl
    · refine bind id h (fun _ hb => hb) fun a ha => ?_
      exact pure (fun _ hb => hb.2) ⟨ha, rfl⟩
    · intro v; cases v <;> simp

theorem list_lawful {get : Get CodecError α} (name : String) (max : Nat) (hmax : max < 2 ^ 32)
    (h : LawfulOn P put get) :
    LawfulOn (fun l : List α => l.length ≤ max ∧ ∀ a ∈ l, P a) (Writer.list put) (Reader.list name max get) := by
  refine bind List.length (len_lawful name max hmax) (fun _ hl => hl.1) fun n hn => ?_
  refine (h.repeatGet n).weaken fun l => ?_
  constructor
  · exact fun hl => ⟨hl.2, hl.1.2⟩
  · exact fun hl => ⟨⟨hl.1 ▸ hn, hl.2⟩, hl.1⟩

theorem tagged_lawful (typeName : String) {tag : α → UInt16} {ofTag : UInt16 → Option α}
    (h1 : ∀ a, ofTag (tag a) = some a) (h2 : ∀ t a, ofTag t = some a → tag a = t) :
    Lawful (fun a => (Writer.u16 (tag a) : Put ε)) (Reader.tagged typeName ofTag) := by
  refine single ?_
  refine bind tag u16_lawful (fun _ _ => trivial) fun t _ => ?_
  cases ht : ofTag t with
  | none =>
    refine fail fun a ha => ?_
    rw [← ha.2, h1] at ht
    cases ht
  | some a =>
    refine pure (fun a' ha => ?_) ⟨trivial, h2 t a ht⟩
    rw [← ha.2, h1] at ht
    exact Option.some.inj ht

theorem magic_lawful (expected : Bytes) :
    Lawful (fun _ : Unit => (Writer.raw expected : Put ε)) (Reader.magic expected) :=
  single (guard (fun _ => expected) (take_lawful _) (fun _ _ => ⟨rfl, rfl⟩) fun _ _ ha =>
    pure (fun _ _ => rfl) ⟨trivial, ha.symm⟩)

theorem whole_ok {b : Bytes} {a : α} : Reader.whole get b = .ok a ↔ get.run b = .ok (a, []) := by
  unfold Reader.whole
  cases get.run b with
  | error f => simp
  | ok r => obtain ⟨v, rest⟩ := r; simp only; split <;> simp_all

theorem whole_noPanic (h : ∀ b, get.run b ≠ .error .panicked) (b : Bytes) : Reader.whole get b ≠ .error .panicked := by
  have hb := h b
  unfold Reader.whole
  cases hr : get.run b with
  | error f => simp_all
  | ok r => simp only; split <;> simp

/-- A lawful reader run to the end of its input, against an encoder that may
check more than the writer before it writes. -/
theorem whole_canonical {P Q : α → Prop} {put encode : α → Put ε} {get : Get CodecError α}
    (h : LawfulOn P put get) (hQ : ∀ a, Q a → P a ∧ Writes (put a))
    (henc : ∀ a, P a → Writes (put a) → encode a = put a) :
    CanonicalCodec Q encode (Reader.whole get) where
  roundtrip := by
    intro a ha
    obtain ⟨hP, b, hb⟩ := hQ a ha
    refine ⟨b, (henc a hP ⟨b, hb⟩).trans hb, whole_ok.mpr ?_⟩
    have := h.roundtrip [] hP hb
    rwa [append_nil] at this
  strict := by
    intro b a hd
    obtain ⟨hP, o, ho, rfl⟩ := h.strict (whole_ok.mp hd)
    rw [henc a hP ⟨o, ho⟩, ho, append_nil]
  noPanic := whole_noPanic h.noPanic

end
end Bmux.Canonical
