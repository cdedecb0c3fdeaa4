import Bmux.Core.Streams
import Bmux.L1Encoding.Serde
import Bmux.L1Encoding.Varint

/-!
# The serializer (`packages/codec/src/serde_adapter/ser.rs`)

Every method appends to the output; what it appends depends on the mode only
through three questions: are there type tags, are there names, or neither. The
two methods that take an optional length fail without one, the others cannot
fail. `serialize` is the derived implementation for a type of the universe: it
calls the method of the value's shape and passes on the lengths, names and
declaration indices the type fixes.
-/
namespace Bmux.Codec
open Wire Streams Canonical Varint

abbrev Serializer := Sink Error Unit

section Serializer
variable (mode : EncodingMode)

def push (byte : UInt8) : Serializer := extend [byte]

def whenTyped (w : Serializer) : Serializer := if mode = .typedStable then w else pure ()

def unlessTyped (w : Serializer) : Serializer := if mode ≠ .typedStable then w else pure ()

def isStableNamed : Bool := mode = .stable ∨ mode = .typedStable

def whenNamed (w : Serializer) : Serializer := if isStableNamed mode then w else pure ()

def writeStr (value : Text) : Serializer := do
  extend (encodeUsize (UInt64.ofNat (utf8 value.val).length))
  extend (utf8 value.val)

def writeTag (tag : TypeTag) : Serializer := whenTyped mode (push tag.toU8)

def writeLen (len : Nat) : Serializer := extend (encodeUsize (UInt64.ofNat len))

def serializeBool (v : Bool) : Serializer := do
  writeTag mode .bool
  push (if v then 1 else 0)

def serializeI8 (v : Int8) : Serializer := do
  writeTag mode .i8
  extend (encodeI16 v.toInt16)

def serializeI16 (v : Int16) : Serializer := do
  writeTag mode .i16
  extend (encodeI16 v)

def serializeI32 (v : Int32) : Serializer := do
  writeTag mode .i32
  extend (encodeI32 v)

def serializeI64 (v : Int64) : Serializer := do
  writeTag mode .i64
  extend (encodeI64 v)

def serializeU8 (v : UInt8) : Serializer := do
  writeTag mode .u8
  push v

def serializeU16 (v : UInt16) : Serializer := do
  writeTag mode .u16
  extend (encodeU16 v)

def serializeU32 (v : UInt32) : Serializer := do
  writeTag mode .u32
  extend (encodeU32 v)

def serializeU64 (v : UInt64) : Serializer := do
  writeTag mode .u64
  extend (encodeU64 v)

def serializeF32 (bits : UInt32) : Serializer := do
  writeTag mode .f32
  extend (leBytes 4 bits.toNat)

def serializeF64 (bits : UInt64) : Serializer := do
  writeTag mode .f64
  extend (leBytes 8 bits.toNat)

def serializeChar (v : Char) : Serializer := do
  writeTag mode .char
  extend (encodeU32 v.val)

def serializeStr (v : Text) : Serializer := do
  writeTag mode .string
  writeStr v

def serializeBytes (v : Buffer) : Serializer := do
  writeTag mode .bytes
  writeLen v.val.length
  extend v.val

def serializeNone : Serializer := do
  writeTag mode .none
  unlessTyped mode (push 0)

def serializeSome (value : Serializer) : Serializer := do
  writeTag mode .some
  unlessTyped mode (push 1)
  value

def serializeUnit : Serializer := writeTag mode .unit

def serializeUnitStruct : Serializer := writeTag mode .unit

variable (index : UInt32)

variable (variant : Text)

def writeVariant : Serializer :=
  if isStableNamed mode then writeStr variant else extend (encodeU32 index)

def serializeUnitVariant : Serializer := do
  writeTag mode .enum
  writeVariant mode index variant
  whenTyped mode (writeLen 0)

def serializeNewtypeStruct (value : Serializer) : Serializer := value

def serializeNewtypeVariant (value : Serializer) : Serializer := do
  writeTag mode .enum
  writeVariant mode index variant
  whenTyped mode (writeLen 1)
  value

def serializeSeq (len : Option Nat) : Serializer :=
  match len with
  | none => throw (.message "sequence length must be known up front")
  | some len => do
    writeTag mode .seq
    writeLen len

variable (len : Nat)

def serializeTuple : Serializer := do
  writeTag mode .seq
  whenTyped mode (writeLen len)

def serializeTupleStruct : Serializer := do
  writeTag mode .seq
  whenTyped mode (writeLen len)

def serializeTupleVariant : Serializer := do
  writeTag mode .enum
  writeVariant mode index variant
  whenTyped mode (writeLen len)

def serializeMap (len : Option Nat) : Serializer :=
  match len with
  | none => throw (.message "map length must be known up front")
  | some len => do
    writeTag mode .map
    writeLen len

def serializeStruct : Serializer := do
  writeTag mode .struct
  whenNamed mode (writeLen len)

def serializeStructVariant : Serializer := do
  writeTag mode .enum
  writeVariant mode index variant
  whenNamed mode (writeLen len)

def serializeField (field : Text × Serializer) : Serializer := do
  whenNamed mode (writeStr field.1)
  field.2

/-! ## Derived `Serialize` -/

mutual
def serialize : (t : Ty) → t.Val → Serializer
  | .bool, v => serializeBool mode v
  | .i8, v => serializeI8 mode v
  | .i16, v => serializeI16 mode v
  | .i32, v => serializeI32 mode v
  | .i64, v => serializeI64 mode v
  | .u8, v => serializeU8 mode v
  | .u16, v => serializeU16 mode v
  | .u32, v => serializeU32 mode v
  | .u64, v => serializeU64 mode v
  | .f32, v => serializeF32 mode v
  | .f64, v => serializeF64 mode v
  | .char, v => serializeChar mode v
  | .str, v => serializeStr mode v
  | .bytes, v => serializeBytes mode v
  | .option _, none => serializeNone mode
  | .option t, some v => serializeSome mode (serialize t v)
  | .unit, _ => serializeUnit mode
  | .unitStruct, _ => serializeUnitStruct mode
  | .newtypeStruct t, v => serializeNewtypeStruct (serialize t v)
  | .seq t, v => do
    serializeSeq mode (some v.elements.length)
    v.elements.forM (serialize t)
  | .tuple ts, v => do
    serializeTuple mode ts.length
    (serializeElements ts v).forM id
  | .tupleStruct ts, v => do
    serializeTupleStruct mode ts.length
    (serializeElements ts v).forM id
  | .map k v, m => do
    serializeMap mode (some m.entries.length)
    m.entries.forM fun entry => do
      serialize k entry.1
      serialize v entry.2
  | .struct fields, v => do
    serializeStruct mode fields.length
    (serializeFields fields v).forM (serializeField mode)
  | .enum variants, v => serializeVariant variants v 0

def serializeElements : (ts : Tys) → ts.Val → List Serializer
  | .nil, _ => []
  | .cons t ts, v => serialize t v.1 :: serializeElements ts v.2

def serializeFields : (fields : Fields) → fields.Val → List (Text × Serializer)
  | .nil, _ => []
  | .cons name t fields, v => (name, serialize t v.1) :: serializeFields fields v.2

/-- The variant a value is of, from declaration index `index` on. -/
def serializeVariant : (variants : Variants) → variants.Val → (index : Nat) → Serializer
  | .nil, v, _ => nomatch v
  | .cons name shape _, .inl v, index => serializeShape shape v (UInt32.ofNat index) name
  | .cons _ _ variants, .inr v, index => serializeVariant variants v (index + 1)

def serializeShape : (shape : Shape) → shape.Val → (index : UInt32) → (name : Text) → Serializer
  | .unit, _, index, name => serializeUnitVariant mode index name
  | .newtype t, v, index, name => serializeNewtypeVariant mode index name (serialize t v)
  | .tuple ts, v, index, name => do
    serializeTupleVariant mode index name ts.length
    (serializeElements ts v).forM id
  | .struct fields, v, index, name => do
    serializeStructVariant mode index name fields.length
    (serializeFields fields v).forM (serializeField mode)
end

def toVecWithMode (t : Ty) (v : t.Val) : Except Error Bytes :=
  (serialize mode t v).run [] |>.map Prod.snd

end Serializer

def toVec : (t : Ty) → t.Val → Except Error Bytes := toVecWithMode .stable

def toTypedVec : (t : Ty) → t.Val → Except Error Bytes := toVecWithMode .typedStable

def toPositionalVec : (t : Ty) → t.Val → Except Error Bytes := toVecWithMode .positional

end Bmux.Codec
