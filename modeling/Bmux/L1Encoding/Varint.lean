import Bmux.Core.Wire

/-!
# Variable-length integers (`packages/codec/src/varint.rs`)

The IPC codec writes every integer wider than a byte as unsigned LEB128: seven
payload bits a byte, lowest group first, with `0x80` on every byte but the
last. Signed integers are mapped to unsigned ones by ZigZag first, and narrower
types are widened to 64 bits and checked on the way back.

`decodeU64` reports the value and the number of bytes it consumed. Each pair is
shown to invert in front of any suffix (`decodeU64_encodeU64` and its
narrower forms), which is all the serde layer needs from this file.

On any other bytes the value is the number of the varint that was read, if it
fits 64 bits (`varints_faithful`); a tenth group is cut off (`tenth_group_cut`).
-/
namespace Bmux.Codec.Varint
open Wire Nat Option

/-! ## Seven bits at a time -/

variable (value : UInt64)

theorem toNat_shiftRight_seven : (value >>> 7).toNat = value.toNat / 128 := by
  simp [shiftRight_eq_div_pow]

theorem shiftRight_seven_eq_zero : value >>> 7 = 0 ↔ value.toNat < 128 := by
  rw [← UInt64.toNat_inj, toNat_shiftRight_seven, UInt64.toNat_zero]
  omega

theorem shiftRight_seven_lt (h : value >>> 7 ≠ 0) :
    (value >>> 7).toNat < value.toNat := by
  rw [ne_eq, shiftRight_seven_eq_zero] at h
  rw [toNat_shiftRight_seven]
  omega

/-! ## Encoding -/

def encodeU64 (value : UInt64) : Bytes :=
  let byte := (value &&& 0x7F).toUInt8
  if value >>> 7 ≠ 0 then (byte ||| 0x80) :: encodeU64 (value >>> 7) else [byte]
termination_by value.toNat
decreasing_by exact shiftRight_seven_lt value ‹_›

/-- mirrors packages/codec/src/varint.rs:22-38; `usize` is 64 bits wide, so its
casts to and from `u64` change nothing -/
def encodeU32 (value : UInt32) : Bytes := encodeU64 value.toUInt64
def encodeU16 (value : UInt16) : Bytes := encodeU64 value.toUInt64
def encodeUsize : Bytes := encodeU64 value

/-- mirrors packages/codec/src/varint.rs:40-56; `>>` on `i64` keeps the sign -/
def zigzagEncodeI64 (value : Int64) : UInt64 := ((value <<< 1) ^^^ (value >>> 63)).toUInt64
def zigzagEncodeI32 (value : Int32) : UInt64 := zigzagEncodeI64 value.toInt64
def zigzagEncodeI16 (value : Int16) : UInt64 := zigzagEncodeI64 value.toInt64

def encodeI64 (value : Int64) : Bytes := encodeU64 (zigzagEncodeI64 value)
def encodeI32 (value : Int32) : Bytes := encodeU64 (zigzagEncodeI32 value)
def encodeI16 (value : Int16) : Bytes := encodeU64 (zigzagEncodeI16 value)

/-! ## Decoding -/

def decodeLoop : Bytes → Nat → UInt64 → Nat → Option (UInt64 × Nat)
  | [], _, _, _ => none
  | byte :: input, i, result, shift =>
    if shift ≥ 70 then none
    else
      let result := result ||| ((byte &&& 0x7F).toUInt64 <<< UInt64.ofNat shift)
      if byte &&& 0x80 = 0 then some (result, i + 1) else decodeLoop input (i + 1) result (shift + 7)

variable (input : Bytes)

def decodeU64 : Option (UInt64 × Nat) := decodeLoop input 0 0 0

def decodeU32 : Option (UInt32 × Nat) := do
  let (value, consumed) ← decodeU64 input
  if value.toNat < 2 ^ 32 then some (value.toUInt32, consumed) else none

def decodeU16 : Option (UInt16 × Nat) := do
  let (value, consumed) ← decodeU64 input
  if value.toNat < 2 ^ 16 then some (value.toUInt16, consumed) else none

def decodeUsize : Option (UInt64 × Nat) := decodeU64 input

def zigzagDecodeI64 : Int64 := (value >>> 1).toInt64 ^^^ (-(value &&& 1).toInt64)

def decodeI64 : Option (Int64 × Nat) := do
  let (raw, consumed) ← decodeU64 input
  some (zigzagDecodeI64 raw, consumed)

def decodeI32 : Option (Int32 × Nat) := do
  let (raw, consumed) ← decodeU64 input
  let signed := zigzagDecodeI64 raw
  if -2 ^ 31 ≤ signed.toInt ∧ signed.toInt < 2 ^ 31 then some (signed.toInt32, consumed) else none

def decodeI16 : Option (Int16 × Nat) := do
  let (raw, consumed) ← decodeU64 input
  let signed := zigzagDecodeI64 raw
  if -2 ^ 15 ≤ signed.toInt ∧ signed.toInt < 2 ^ 15 then some (signed.toInt16, consumed) else none

/-! ## LEB128 inverts -/

theorem toNat_lowGroup : (value &&& 0x7F).toUInt8.toNat = value.toNat % 128 := by
  have h : value.toNat &&& 0x7F = value.toNat % 128 := and_two_pow_sub_one_eq_mod _ 7
  change (value.toNat &&& 0x7F) % 256 = _
  omega

variable (rest : Bytes) (byte : UInt8)

theorem toNat_payload : (byte &&& 0x7F).toNat = byte.toNat % 128 := by
  exact and_two_pow_sub_one_eq_mod _ 7

theorem toNat_continued (h : byte.toNat < 2 ^ 7) : (byte ||| 0x80).toNat = byte.toNat + 128 := by
  rw [UInt8.toNat_or, Nat.or_comm, add_comm]
  exact (two_pow_add_eq_or_of_lt h 1).symm

theorem last_iff : byte &&& 0x80 = 0 ↔ byte.toNat < 128 := by
  have hb := byte.toNat_lt
  rw [← UInt8.toNat_inj]
  change byte.toNat &&& 2 ^ 7 = 0 ↔ _
  rw [and_two_pow, testBit_eq_decide_div_mod_eq]
  by_cases h : byte.toNat < 128
  · have hbit : byte.toNat / 128 % 2 = 0 := by omega
    simp [h, hbit]
  · have hbit : byte.toNat / 128 % 2 = 1 := by omega
    simp [h, hbit]

/-- The number that the groups of a varint stand for. -/
def groupsValue : Bytes → Nat
  | [] => 0
  | byte :: varint => byte.toNat % 128 + 128 * groupsValue varint

/-- The varint at the front: up to the first byte without the continuation bit. -/
def varintOf : Bytes → Option Bytes
  | [] => none
  | byte :: input => if byte.toNat < 128 then some [byte] else (varintOf input).map (byte :: ·)

theorem collect_eq {result : UInt64} {k : Nat} (hk : k < 10) (hresult : result.toNat < 128 ^ k) (byte : UInt8) :
    result ||| ((byte &&& 0x7F).toUInt64 <<< UInt64.ofNat (7 * k)) =
      .ofNat (result.toNat + 128 ^ k * (byte.toNat % 128)) := by
  have hshift : (UInt64.ofNat (7 * k)).toNat % 64 = 7 * k := by
    rw [UInt64.toNat_ofNat']
    omega
  have hwidth : 2 ^ 64 = 2 ^ (7 * k) * 2 ^ (64 - 7 * k) := by rw [← pow_add, Nat.add_sub_cancel' (by omega)]
  have hpow : 128 ^ k = 2 ^ (7 * k) := by rw [Nat.pow_mul]
  rw [hpow] at hresult ⊢
  rw [← UInt64.toNat_inj, UInt64.toNat_or, UInt64.toNat_shiftLeft, hshift, UInt8.toNat_toUInt64, toNat_payload,
    UInt64.toNat_ofNat', shiftLeft_eq, mul_comm _ (2 ^ _), hwidth, mul_mod_mul_left, Nat.or_comm,
      ← two_pow_add_eq_or_of_lt hresult, mod_mul,
    add_mul_mod_self_left, mod_eq_of_lt hresult, add_mul_div_left _ _ (Nat.two_pow_pos _), div_eq_of_lt hresult,
      zero_add, add_comm]

/-- The loop behind `k` groups takes the rest of the varint, up to ten groups in all. -/
theorem decodeLoop_eq {input : Bytes} {result : UInt64} {i k : Nat} (hk : k ≤ 10) (hresult : result.toNat < 128 ^ k) :
    decodeLoop input i result (7 * k) = (varintOf input).bind fun varint =>
      if k + varint.length ≤ 10 then some (.ofNat (result.toNat + 128 ^ k * groupsValue varint), i + varint.length)
        else none := by
  induction input generalizing i k result with
  | nil => rfl
  | cons byte input ih =>
    rw [decodeLoop, varintOf]
    by_cases hfull : 7 * k ≥ 70
    · rw [if_pos hfull]
      split
      · exact (if_neg (by rw [List.length_singleton]; omega)).symm
      · cases varintOf input with
        | none => rfl
        | some varint => exact (if_neg (by rw [List.length_cons]; omega)).symm
    · have hnext : (UInt64.ofNat (result.toNat + 128 ^ k * (byte.toNat % 128))).toNat < 128 ^ (k + 1) := by
        refine lt_of_le_of_lt (mod_le _ _) ?_
        have hgroup : 128 ^ k * (byte.toNat % 128) ≤ 128 ^ k * 127 := Nat.mul_le_mul_left _ (by omega)
        omega
      rw [if_neg hfull, collect_eq (by omega) hresult]
      simp only [last_iff]
      split
      · exact (if_pos (by rw [List.length_singleton]; omega)).symm
      · rw [← mul_succ, ih (by omega) hnext]
        cases varintOf input with
        | none => rfl
        | some varint =>
          have hvalue : UInt64.ofNat ((UInt64.ofNat (result.toNat + 128 ^ k * (byte.toNat % 128))).toNat +
            128 ^ (k + 1) * groupsValue varint) =
              .ofNat (result.toNat + 128 ^ k * groupsValue (byte :: varint)) := by
            rw [UInt64.ofNat_add, UInt64.ofNat_toNat, ← UInt64.ofNat_add, groupsValue]
            ring_nf
          simp only [map_some, bind_some, hvalue, List.length_cons, add_assoc, add_comm 1]

theorem decodeU64_eq : decodeU64 input = (varintOf input).bind fun varint =>
    if varint.length ≤ 10 then some (.ofNat (groupsValue varint), varint.length) else none := by
  have h := @decodeLoop_eq input 0 0 0 zero_le (by decide)
  simpa [decodeU64] using h

theorem varintOf_encodeU64 :
    varintOf (encodeU64 value ++ rest) = some (encodeU64 value) ∧ groupsValue (encodeU64 value) = value.toNat := by
  fun_induction encodeU64 value with
  | case1 n byte hne ih =>
    have hlow : byte.toNat = n.toNat % 128 := toNat_lowGroup n
    have hcont : (byte ||| 0x80).toNat = byte.toNat + 128 := toNat_continued byte (by omega)
    rw [List.cons_append, varintOf, groupsValue, if_neg (by omega), ih.1, ih.2, toNat_shiftRight_seven]
    exact ⟨rfl, by omega⟩
  | case2 n byte hz =>
    rw [not_not, shiftRight_seven_eq_zero] at hz
    have hlow : byte.toNat = n.toNat % 128 := toNat_lowGroup n
    rw [List.singleton_append, varintOf, if_pos (by omega), groupsValue, groupsValue]
    exact ⟨rfl, by omega⟩

theorem length_encodeU64 : ∀ k, value.toNat < 128 ^ (k + 1) → (encodeU64 value).length ≤ k + 1 := by
  fun_induction encodeU64 value with
  | case1 n byte hne ih =>
    intro k hn
    rw [ne_eq, shiftRight_seven_eq_zero] at hne
    cases k with
    | zero => omega
    | succ k =>
      refine succ_le_succ (ih k ?_)
      rw [toNat_shiftRight_seven]
      omega
  | case2 => exact fun k _ => succ_le_succ zero_le

theorem decodeU64_encodeU64 : decodeU64 (encodeU64 value ++ rest) = some (value, (encodeU64 value).length) := by
  obtain ⟨hvarint, hgroups⟩ := varintOf_encodeU64 value rest
  have hlen := length_encodeU64 value 9 (lt_of_lt_of_le value.toNat_lt (by decide))
  simp [decodeU64_eq, hvarint, if_pos hlen, hgroups]

theorem decodeU32_encodeU32 (value : UInt32) (rest : Bytes) :
    decodeU32 (encodeU32 value ++ rest) = some (value, (encodeU32 value).length) := by
  have hfits : value.toUInt64.toNat < 2 ^ 32 := value.toNat_lt
  simp only [decodeU32, encodeU32, decodeU64_encodeU64, bind_eq_bind, bind_some, if_pos hfits,
    UInt32.toUInt32_toUInt64]

theorem decodeU16_encodeU16 (value : UInt16) (rest : Bytes) :
    decodeU16 (encodeU16 value ++ rest) = some (value, (encodeU16 value).length) := by
  have hfits : value.toUInt64.toNat < 2 ^ 16 := value.toNat_lt
  simp only [decodeU16, encodeU16, decodeU64_encodeU64, bind_eq_bind, bind_some, if_pos hfits,
    UInt16.toUInt16_toUInt64]

theorem decodeUsize_encodeUsize : decodeUsize (encodeUsize value ++ rest) = some (value, (encodeUsize value).length) :=
  decodeU64_encodeU64 value rest

/-! ## ZigZag inverts -/

def unzigzag (n : Nat) : Int := if n % 2 = 0 then n / 2 else -(n / 2) - 1

theorem toInt_zigzagDecodeI64 : (zigzagDecodeI64 value).toInt = unzigzag value.toNat := by
  have hlt := value.toNat_lt
  have hshift : (value >>> 1).toBitVec.toNat = value.toNat / 2 := by
    rfl
  have hhalf : (value >>> 1).toInt64.toInt = (value.toNat / 2 : Nat) := by
    change (value >>> 1).toBitVec.toInt = _
    rw [BitVec.toInt_eq_toNat_of_lt (by omega), hshift]
  have hbit : (value &&& 1).toNat = value.toNat % 2 := by
    exact and_two_pow_sub_one_eq_mod _ 1
  rw [zigzagDecodeI64, unzigzag]
  split
  · next heven =>
    have hzero : value &&& 1 = 0 := UInt64.toNat_inj.mp (hbit.trans heven)
    rw [hzero]
    simpa using hhalf
  · next hodd =>
    have hone : value &&& 1 = 1 := UInt64.toNat_inj.mp (hbit.trans (mod_two_ne_zero.mp hodd))
    have hneg : -(1 : UInt64).toInt64 = -1 := rfl
    rw [hone, hneg, Int64.xor_neg_one, Int64.toInt_not, Int.bmod_eq_of_le] <;> omega

theorem toNat_zigzagEncodeI64 (value : Int64) :
    ((zigzagEncodeI64 value).toNat : Int) = if value.toInt < 0 then -2 * value.toInt - 1 else 2 * value.toInt := by
  have hle := value.le_toInt
  have hlt := value.toInt_lt
  -- `>> 63` fills every bit with the sign
  have hsign : value >>> 63 = if value.toInt < 0 then -1 else 0 := by
    rw [← Int64.toInt_inj]
    change (value.toBitVec.sshiftRight 63).toInt = _
    rw [BitVec.toInt_sshiftRight, Int.shiftRight_eq_div_pow]
    change value.toInt / _ = _
    split
    · change _ = (-1 : Int)
      omega
    · change _ = (0 : Int)
      omega
  have hdouble : (value <<< 1).toUInt64.toNat = 2 * value.toBitVec.toNat % 2 ^ 64 := by
    rfl
  have hvalue := BitVec.toInt_eq_toNat_cond value.toBitVec
  change value.toInt = _ at hvalue
  rw [zigzagEncodeI64, hsign]
  split
  · have hnot : (~~~(value <<< 1)).toUInt64.toNat = 2 ^ 64 - 1 - (value <<< 1).toUInt64.toNat := BitVec.toNat_not
    rw [Int64.xor_neg_one, hnot]
    omega
  · rw [Int64.xor_zero]
    omega

theorem zigzagDecodeI64_zigzagEncodeI64 (value : Int64) : zigzagDecodeI64 (zigzagEncodeI64 value) = value := by
  have h := toNat_zigzagEncodeI64 value
  rw [← Int64.toInt_inj, toInt_zigzagDecodeI64, unzigzag]
  split at h <;> split <;> omega

theorem decodeI64_encodeI64 (value : Int64) (rest : Bytes) :
    decodeI64 (encodeI64 value ++ rest) = some (value, (encodeI64 value).length) := by
  simp [decodeI64, encodeI64, decodeU64_encodeU64, zigzagDecodeI64_zigzagEncodeI64]

theorem decodeI32_encodeI32 (value : Int32) (rest : Bytes) :
    decodeI32 (encodeI32 value ++ rest) = some (value, (encodeI32 value).length) := by
  simp only [decodeI32, encodeI32, zigzagEncodeI32, decodeU64_encodeU64, bind_eq_bind, bind_some,
    zigzagDecodeI64_zigzagEncodeI64, Int32.toInt_toInt64, value.le_toInt, value.toInt_lt, and_self, if_true,
    Int32.toInt32_toInt64]

theorem decodeI16_encodeI16 (value : Int16) (rest : Bytes) :
    decodeI16 (encodeI16 value ++ rest) = some (value, (encodeI16 value).length) := by
  simp only [decodeI16, encodeI16, zigzagEncodeI16, decodeU64_encodeU64, bind_eq_bind, bind_some,
    zigzagDecodeI64_zigzagEncodeI64, Int16.toInt_toInt64, value.le_toInt, value.toInt_lt, and_self, if_true,
    Int16.toInt16_toInt64]

/-! ## What a decoded value is -/

theorem varintOf_front {varint : Bytes} (h : varintOf input = some varint) : varint <+: input := by
  induction input generalizing varint with
  | nil => cases h
  | cons byte input ih =>
    rw [varintOf] at h
    split at h
    · cases h
      exact ⟨input, rfl⟩
    · obtain ⟨rest, hrest, rfl⟩ := map_eq_some_iff.mp h
      exact List.cons_prefix_cons.mpr ⟨rfl, ih hrest⟩

/-- The first `n` bytes are a whole varint, and `P` holds of its number exactly if that fits 64 bits. -/
def Stands (n : Nat) (P : Nat → Prop) : Prop := ∃ varint, varintOf input = some varint ∧ varint <+: input ∧
  varint.length = n ∧ n ≤ 10 ∧ (P (groupsValue varint) ↔ groupsValue varint < 2 ^ 64)

variable {input : Bytes} {n : Nat}

theorem decodeU64_stands {v : UInt64} (h : decodeU64 input = some (v, n)) : Stands input n (v.toNat = ·) := by
  rw [decodeU64_eq] at h
  obtain ⟨varint, hvarint, h⟩ := bind_eq_some_iff.mp h
  obtain ⟨hlen, h⟩ := ite_none_right_eq_some.mp h
  cases h
  refine ⟨varint, hvarint, varintOf_front input hvarint, rfl, hlen, ?_⟩
  simp

theorem unzigzag_inj {a b : Nat} : unzigzag a = unzigzag b ↔ a = b := by
  unfold unzigzag
  split <;> split <;> omega

/-- The signed decoders cast what `decode_u64` yields, and ZigZag loses nothing. -/
theorem stands_of_bind {β : Type} {f : UInt64 × Nat → Option (β × Nat)} {toInt : β → Int} {v : β}
    (hf : ∀ raw m, f (raw, m) = some (v, n) → m = n ∧ toInt v = (zigzagDecodeI64 raw).toInt)
    (h : (decodeU64 input).bind f = some (v, n)) : Stands input n (toInt v = unzigzag ·) := by
  obtain ⟨⟨raw, m⟩, hraw, hread⟩ := bind_eq_some_iff.mp h
  obtain ⟨rfl, hv⟩ := hf raw m hread
  obtain ⟨varint, hvarint, hfront, hn, hlen, hvalue⟩ := decodeU64_stands hraw
  refine ⟨varint, hvarint, hfront, hn, hlen, ?_⟩
  simp only [hv, toInt_zigzagDecodeI64, unzigzag_inj]
  exact hvalue

/-- **Varints.** What is decoded comes from a whole varint and is its number, through ZigZag for the signed widths,
exactly if that fits 64 bits. What is encoded is decoded back in front of any bytes. -/
theorem varints_faithful (input rest : Bytes) (n : Nat) :
    (∀ v, decodeU64 input = some (v, n) → Stands input n (v.toNat = ·)) ∧
    (∀ v, decodeI64 input = some (v, n) → Stands input n (v.toInt = unzigzag ·)) ∧
    (∀ v, decodeI32 input = some (v, n) → Stands input n (v.toInt = unzigzag ·)) ∧
    (∀ v, decodeI16 input = some (v, n) → Stands input n (v.toInt = unzigzag ·)) ∧
    (∀ v, decodeU64 (encodeU64 v ++ rest) = some (v, (encodeU64 v).length)) ∧
    (∀ v, decodeI64 (encodeI64 v ++ rest) = some (v, (encodeI64 v).length)) ∧
    (∀ v, decodeI32 (encodeI32 v ++ rest) = some (v, (encodeI32 v).length)) ∧
    ∀ v, decodeI16 (encodeI16 v ++ rest) = some (v, (encodeI16 v).length) := by
  refine ⟨fun v => decodeU64_stands, fun v => stands_of_bind fun raw m hread => ?_,
    fun v => stands_of_bind fun raw m hread => ?_,
    fun v => stands_of_bind fun raw m hread => ?_, (decodeU64_encodeU64 · rest), (decodeI64_encodeI64 · rest),
    (decodeI32_encodeI32 · rest), (decodeI16_encodeI16 · rest)⟩
  · cases hread
    exact ⟨rfl, rfl⟩
  · obtain ⟨hfits, hread⟩ := ite_none_right_eq_some.mp hread
    cases hread
    rw [Int64.toInt_toInt32, Int.bmod_eq_of_le] <;> omega
  · obtain ⟨hfits, hread⟩ := ite_none_right_eq_some.mp hread
    cases hread
    rw [Int64.toInt_toInt16, Int.bmod_eq_of_le] <;> omega

/-- A tenth group above 1 is cut off: 2 ^ 64 is decoded as 0. -/
theorem tenth_group_cut :
    decodeU64 [0x80, 0x80, 0x80, 0x80, 0x80, 0x80, 0x80, 0x80, 0x80, 0x02] = some (0, 10) ∧
    groupsValue [0x80, 0x80, 0x80, 0x80, 0x80, 0x80, 0x80, 0x80, 0x80, 0x02] = 2 ^ 64 := by
  decide +kernel

end Bmux.Codec.Varint
