import Bmux.Core.Streams
import Bmux.L1Encoding.Serde
import Bmux.L1Encoding.Varint

/-!
# The deserializer (`packages/codec/src/serde_adapter/de.rs`)

The cursor over the input carries the deserializer's other fields. The mutable
flag `tagged_identifier` is set while a map key is read and while a struct field
that starts like a tagged string is read, cleared inside an enum, and put back
afterwards; only `deserializeIdentifier` looks at it. With limits, every
declared length is checked before anything is built from it and the entries
left are counted down.

`deserialize` is the derived implementation for a type of the universe. A
struct read by name may list its fields in any order: each name is matched
against the declared ones, a second value for a field and a missing field are
refused, and an unknown name is skipped with `deserialize_ignored_any`, which
consumes nothing.
-/
namespace Bmux.Codec
open Wire Streams Canonical Varint

structure DecodeLimits where
  maxInputBytes : Nat
  maxBlobBytes : Nat
  maxContainerEntries : Nat
  maxTotalEntries : Nat
  deriving DecidableEq, Repr

/-- What a decode does with the lengths it meets: a string or byte length is
read, a container length is read, a visitor is given a length as size hint. -/
inductive Event where
  | blob (len : Nat)
  | entries (len : Nat)
  | sizeHint (len : Nat)
  deriving DecidableEq, Repr

/-- mirrors packages/codec/src/serde_adapter/de.rs:12-19, without the input and
the mode. The log is not in the source: it is what the limits are about. -/
structure Flags where
  taggedIdentifier : Bool
  limits : Option DecodeLimits
  remainingEntries : Nat
  log : List Event
  deriving DecidableEq, Repr

/-- mirrors packages/codec/src/serde_adapter/de.rs:22-31; `usize::MAX` entries are left -/
def Flags.new : Flags := ⟨false, none, 2 ^ 64 - 1, []⟩

abbrev De (α : Type) := Source Flags (Fault Error) α

def reject {α : Type} (e : Error) : De α := throw (.error e)

def record (event : Event) : De Unit := .of fun d =>
  (.ok (), { d with context := { d.context with log := d.context.log ++ [event] } })

/-! ## Reading the input -/

def consume (n : Nat) : De { b : Bytes // b.length = n } := Streams.consume (.error .unexpectedEof) n

def readU8 : De UInt8 := do
  let bytes ← consume 1
  return bytes.val.get ⟨0, by rw [bytes.property]; exact Nat.one_pos⟩

def tagOfU8 : UInt8 → Option TypeTag
  | 0 => some .unit | 1 => some .bool | 2 => some .i8 | 3 => some .i16 | 4 => some .i32 | 5 => some .i64
  | 6 => some .u8 | 7 => some .u16 | 8 => some .u32 | 9 => some .u64 | 10 => some .f32 | 11 => some .f64
  | 12 => some .char | 13 => some .string | 14 => some .bytes | 15 => some .none | 16 => some .some
  | 17 => some .seq | 18 => some .map | 19 => some .struct | 20 => some .enum | _ => none

def readVarint {α : Type} (decode : Bytes → Option (α × Nat)) : De α := .of fun d =>
  match decode d.input with
  | some (value, consumed) => (.ok value, { d with input := d.input.drop consumed })
  | none => (.error (.error .unexpectedEof), d)

def readVarintU64 : De UInt64 := readVarint decodeU64
def readVarintU32 : De UInt32 := readVarint decodeU32
def readVarintU16 : De UInt16 := readVarint decodeU16
def readVarintI16 : De Int16 := readVarint decodeI16
def readVarintI32 : De Int32 := readVarint decodeI32
def readVarintI64 : De Int64 := readVarint decodeI64

def admitEntries (value : Nat) : De Unit := .of fun d =>
  match d.context.limits with
  | none => (.ok (), d)
  | some limits =>
    if value > limits.maxContainerEntries ∨ value > d.context.remainingEntries then
      (.error (.error (.message "container entry budget exceeded")), d)
    else (.ok (), { d with context := { d.context with remainingEntries := d.context.remainingEntries - value } })

def admitBlob (len : Nat) : De Unit := .of fun d =>
  match d.context.limits with
  | none => (.ok (), d)
  | some limits =>
    if len > limits.maxBlobBytes then (.error (.error (.message "blob byte budget exceeded")), d) else (.ok (), d)

def readVarintUsize : De UInt64 := do
  let value ← readVarint decodeUsize
  record (.entries value.toNat)
  admitEntries value.toNat
  return value

def readBytes : De Buffer := do
  let len ← readVarint decodeUsize
  record (.blob len.toNat)
  admitBlob len.toNat
  let bytes ← consume len.toNat
  return ⟨bytes.val, by rw [bytes.property]; exact len.toNat_lt⟩

def readStr : De Text := do
  let bytes ← readBytes
  match h : fromUtf8 bytes.val with
  | some value => return ⟨value, by rw [fromUtf8_eq_some.mp h]; exact bytes.fits⟩
  | none => reject .invalidUtf8

section Deserializer
variable (mode : EncodingMode)

def readTag : De (Option TypeTag) :=
  if mode ≠ .typedStable then pure none
  else do
    let byte ← readU8
    match tagOfU8 byte with
    | some tag => return some tag
    | none => reject (.message "invalid type tag")

def expectTag (expected : TypeTag) : De Unit := do
  match ← readTag mode with
  | some actual =>
    if actual ≠ expected then
      reject (.message s!"unexpected type tag: expected {expected.debug}, got {actual.debug}")
    else pure ()
  | none => pure ()

/-! ## Scalars -/

def deserializeBool : De Bool := do
  expectTag mode .bool
  match ← readU8 with
  | 0 => return false
  | 1 => return true
  | _ => reject .invalidBool

def deserializeI8 : De Int8 := do
  expectTag mode .i8
  let v ← readVarintI16
  if -2 ^ 7 ≤ v.toInt ∧ v.toInt < 2 ^ 7 then return v.toInt8 else reject (.message "i8 overflow")

def deserializeI16 : De Int16 := do
  expectTag mode .i16
  readVarintI16

def deserializeI32 : De Int32 := do
  expectTag mode .i32
  readVarintI32

def deserializeI64 : De Int64 := do
  expectTag mode .i64
  readVarintI64

def deserializeU8 : De UInt8 := do
  expectTag mode .u8
  readU8

def deserializeU16 : De UInt16 := do
  expectTag mode .u16
  readVarintU16

def deserializeU32 : De UInt32 := do
  expectTag mode .u32
  readVarintU32

def deserializeU64 : De UInt64 := do
  expectTag mode .u64
  readVarintU64

def deserializeF32 : De UInt32 := do
  expectTag mode .f32
  let bytes ← consume 4
  return UInt32.ofNat (ofLe bytes.val)

def deserializeF64 : De UInt64 := do
  expectTag mode .f64
  let bytes ← consume 8
  return UInt64.ofNat (ofLe bytes.val)

def deserializeChar : De Char := do
  expectTag mode .char
  let v ← readVarintU32
  if h : v.isValidChar then return ⟨v, h⟩ else reject .invalidChar

def deserializeStr : De Text := do
  expectTag mode .string
  readStr

def deserializeBytes : De Buffer := do
  expectTag mode .bytes
  readBytes

/-! ## Options, sequences and maps -/

variable {α : Type} (fields : Nat) (len : Nat) (visitSeq : Nat → De α) (value : De α)

/-- mirrors packages/codec/src/serde_adapter/de.rs:373-389 -/
def deserializeOption : De (Option α) :=
  if mode = .typedStable then do
    match ← readTag mode with
    | some .none => return none
    | some .some => some <$> value
    | some actual => reject (.message s!"unexpected option type tag: {actual.debug}")
    | none => throw .panicked
  else do
    match ← readU8 with
    | 0 => return none
    | 1 => some <$> value
    | _ => reject .invalidBool

def deserializeUnit : De Unit := expectTag mode .unit
def deserializeUnitStruct : De Unit := expectTag mode .unit
def deserializeNewtypeStruct : De α := value

/-- mirrors packages/codec/src/serde_adapter/de.rs:413-421; the element access counts down -/
def deserializeSeq (element : De α) : De (Seq α) := do
  expectTag mode .seq
  let len ← readVarintUsize
  record (.sizeHint len.toNat)
  let elements ← repeatRead element len.toNat
  return ⟨elements.val, by rw [elements.property]; exact len.toNat_lt⟩

/-- Run `body` with the flag set to what `enter` says and put it back. -/
def withTagged (enter : Cursor Flags → Bool) (body : De α) : De α :=
  within (fun d => { d.context with taggedIdentifier := enter d })
    (fun previous now => { now with taggedIdentifier := previous.taggedIdentifier }) body

/-- mirrors packages/codec/src/serde_adapter/de.rs:683-700, with `raw_keys` off -/
def nextKey (key : De α) : De α := withTagged (fun _ => true) key

def nextValue (rawKeys : Bool) (value : De α) : De α :=
  withTagged (fun d => if rawKeys && d.input.head? = some TypeTag.string.toU8 then true else d.context.taggedIdentifier)
    value

def nextEntry {κ υ : Type} (key : De κ) (value : De υ) : De (κ × υ) := do
  let k ← nextKey key
  let v ← nextValue false value
  return (k, v)

/-- mirrors packages/codec/src/serde_adapter/de.rs:456-464; the visitor inserts what it reads -/
def deserializeMap {κ υ : Type} [DecidableEq κ] (key : De κ) (value : De υ) : De (Map κ υ) := do
  expectTag mode .map
  let len ← readVarintUsize
  record (.sizeHint len.toNat)
  let entries ← repeatRead (nextEntry key value) len.toNat
  return .ofEntries entries.val (by rw [entries.property]; exact len.toNat_lt)

/-! ## Tuples and structs -/

def readCount : De Nat := if mode = .typedStable then UInt64.toNat <$> readVarintUsize else pure len

def deserializeTuple : De α := do
  expectTag mode .seq
  let remaining ← readCount mode len
  visitSeq remaining

def deserializeTupleStruct : De α := do
  expectTag mode .seq
  let remaining ← readCount mode len
  visitSeq remaining

/-- A struct's fields by name, or by position. -/
def visitStruct (visitMap visitSeq : Nat → De α) : De α :=
  match mode with
  | .stable | .typedStable => do
    let len ← readVarintUsize
    visitMap len.toNat
  | .positional => visitSeq fields

def deserializeStruct (visitMap visitSeq : Nat → De α) : De α := do
  expectTag mode .struct
  visitStruct mode fields visitMap visitSeq

/-! ## Enums -/

inductive Identifier where
  | name (value : Text)
  | index (value : UInt32)
  deriving DecidableEq

def deserializeIdentifier : De Identifier :=
  match mode with
  | .stable => .name <$> readStr
  | .typedStable => do
    if (← get).context.taggedIdentifier then expectTag mode .string
    .name <$> readStr
  | .positional => .index <$> readVarintU32

def deserializeEnum (visitVariant : Identifier → De α) : De α := do
  expectTag mode .enum
  withTagged (fun _ => false) do
    let variant ← deserializeIdentifier mode
    visitVariant variant

def unitVariant : De Unit :=
  if mode = .typedStable then do
    let remaining ← readVarintUsize
    if remaining ≠ 0 then reject (.message s!"unit variant expected 0 fields, found {remaining}") else pure ()
  else pure ()

def newtypeVariant : De α :=
  if mode = .typedStable then do
    let remaining ← readVarintUsize
    if remaining ≠ 1 then reject (.message s!"newtype variant expected 1 field, found {remaining}") else value
  else value

def tupleVariant : De α := do
  let remaining ← readCount mode len
  visitSeq remaining

def structVariant (visitMap visitSeq : Nat → De α) : De α :=
  visitStruct mode fields visitMap visitSeq

/-! ## Derived `Deserialize` -/

def Identifier.selects (name : Text) (index : Nat) : Identifier → Bool
  | .name value => value = name
  | .index value => value.toNat = index

def Identifier.unknown : Identifier → Refusal
  | .name value => .unknownVariant value.val
  | .index value => .variantIndex value

@[reducible] def Fields.Slots : Fields → Type
  | .nil => Unit
  | .cons _ t fields => Option t.Val × fields.Slots

def Fields.empty : (fields : Fields) → fields.Slots
  | .nil => ()
  | .cons _ _ fields => (none, fields.empty)

/-- `serde::de::missing_field`: an `Option` that is not there is `None`. -/
def missingField (name : Text) : (t : Ty) → De t.Val
  | .option _ => pure none
  | _ => reject (.custom (.missingField name.val))

def collect : (fields : Fields) → fields.Slots → De fields.Val
  | .nil, _ => pure ()
  | .cons name t fields, (slot, slots) => do
    let value ← match slot with
      | some value => pure value
      | none => missingField name t
    let values ← collect fields slots
    return (value, values)

def visitEntries {σ : Type} (fill : Text → σ → De σ) : Nat → σ → De σ
  | 0, slots => pure slots
  | n + 1, slots => do
    let key ← readStr
    let slots ← fill key slots
    visitEntries fill n slots

mutual
def deserialize : (t : Ty) → De t.Val
  | .bool => deserializeBool mode
  | .i8 => deserializeI8 mode
  | .i16 => deserializeI16 mode
  | .i32 => deserializeI32 mode
  | .i64 => deserializeI64 mode
  | .u8 => deserializeU8 mode
  | .u16 => deserializeU16 mode
  | .u32 => deserializeU32 mode
  | .u64 => deserializeU64 mode
  | .f32 => deserializeF32 mode
  | .f64 => deserializeF64 mode
  | .char => deserializeChar mode
  | .str => deserializeStr mode
  | .bytes => deserializeBytes mode
  | .option t => deserializeOption mode (deserialize t)
  | .unit => deserializeUnit mode
  | .unitStruct => deserializeUnitStruct mode
  | .newtypeStruct t => deserializeNewtypeStruct (deserialize t)
  | .seq t => deserializeSeq mode (deserialize t)
  | .tuple ts => deserializeTuple mode ts.length fun remaining => visitElements ts remaining 0
  | .tupleStruct ts => deserializeTupleStruct mode ts.length fun remaining => visitElements ts remaining 0
  | .map k v => deserializeMap mode (deserialize k) (deserialize v)
  | .struct fields =>
    deserializeStruct mode fields.length
      (fun len => visitEntries (fillField fields) len fields.empty >>= collect fields)
      (fun remaining => visitFields fields remaining 0)
  | .enum variants => deserializeEnum mode fun variant => visitVariant variants variant 0

def visitElements : (ts : Tys) → (remaining index : Nat) → De ts.Val
  | .nil, _, _ => pure ()
  | .cons _ _, 0, index => reject (.custom (.invalidLength index))
  | .cons t ts, remaining + 1, index => do
    let value ← deserialize t
    let values ← visitElements ts remaining (index + 1)
    return (value, values)

def visitFields : (fields : Fields) → (remaining index : Nat) → De fields.Val
  | .nil, _, _ => pure ()
  | .cons _ _ _, 0, index => reject (.custom (.invalidLength index))
  | .cons _ t fields, remaining + 1, index => do
    let value ← deserialize t
    let values ← visitFields fields remaining (index + 1)
    return (value, values)

def fillField : (fields : Fields) → Text → fields.Slots → De fields.Slots
  | .nil, _, slots => pure slots
  | .cons name t fields, key, (slot, slots) =>
    if key = name then
      match slot with
      | some _ => reject (.custom (.duplicateField name.val))
      | none => do
        let value ← nextValue true (deserialize t)
        return (some value, slots)
    else do
      let slots ← fillField fields key slots
      return (slot, slots)

/-- The variant the identifier selects, from declaration index `index` on. -/
def visitVariant : (variants : Variants) → Identifier → (index : Nat) → De variants.Val
  | .nil, variant, _ => reject (.custom variant.unknown)
  | .cons name shape variants, variant, index =>
    if variant.selects name index then .inl <$> visitShape shape
    else .inr <$> visitVariant variants variant (index + 1)

def visitShape : (shape : Shape) → De shape.Val
  | .unit => unitVariant mode
  | .newtype t => newtypeVariant mode (deserialize t)
  | .tuple ts => tupleVariant mode ts.length fun remaining => visitElements ts remaining 0
  | .struct fields =>
    structVariant mode fields.length
      (fun len => visitEntries (fillField fields) len fields.empty >>= collect fields)
      (fun remaining => visitFields fields remaining 0)
end

def finish {α : Type} : Except (Fault Error) α × Cursor Flags → Outcome Error α
  | (.ok value, d) => if d.input.length ≠ 0 then .error (.error .trailingBytes) else .ok value
  | (.error e, _) => .error e

def fromBytesWithMode (t : Ty) (bytes : Bytes) : Outcome Error t.Val :=
  finish ((deserialize mode t).exec ⟨bytes, .new⟩)

end Deserializer

def fromBytes : (t : Ty) → Bytes → Outcome Error t.Val := fromBytesWithMode .stable

def fromTypedBytes : (t : Ty) → Bytes → Outcome Error t.Val := fromBytesWithMode .typedStable

def fromPositionalBytes : (t : Ty) → Bytes → Outcome Error t.Val := fromBytesWithMode .positional

def boundedRun (t : Ty) (bytes : Bytes) (limits : DecodeLimits) : Except (Fault Error) t.Val × Cursor Flags :=
  (deserialize .positional t).exec
    ⟨bytes, { Flags.new with limits := some limits, remainingEntries := limits.maxTotalEntries }⟩

def fromBytesBounded (t : Ty) (bytes : Bytes) (limits : DecodeLimits) : Outcome Error t.Val :=
  if bytes.length > limits.maxInputBytes then .error (.error (.message "input byte budget exceeded"))
  else finish (boundedRun t bytes limits)

def fromPositionalBytesBounded : (t : Ty) → Bytes → DecodeLimits → Outcome Error t.Val := fromBytesBounded

end Bmux.Codec
