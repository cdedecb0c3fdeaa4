import Bmux.L1Encoding.Canonical

/-!
# The serde adapters (`packages/codec/src/serde_adapter`)

One serializer and one deserializer serve three formats. `Stable` writes field
and variant names, `TypedStable` puts a type tag in front of every value as
well, `Positional` relies on the declaration order of fields and variants.

The types a program serializes form a universe `Ty`, and `Ty.Val` gives the
values of each. What the derive macros generate for such a type is a program
over the type: `serialize` (`Serializer.lean`) and `deserialize`
(`Deserializer.lean`) call, for each shape, the method of that shape.
-/
namespace Bmux.Codec
open Wire Canonical List Prod

inductive EncodingMode where
  | stable
  | typedStable
  | positional
  deriving DecidableEq, Repr

inductive TypeTag where
  | unit | bool | i8 | i16 | i32 | i64 | u8 | u16 | u32 | u64 | f32 | f64 | char | string | bytes
  | none | some | seq | map | struct | enum
  deriving DecidableEq, Repr

def TypeTag.toU8 : TypeTag → UInt8
  | .unit => 0 | .bool => 1 | .i8 => 2 | .i16 => 3 | .i32 => 4 | .i64 => 5 | .u8 => 6 | .u16 => 7
  | .u32 => 8 | .u64 => 9 | .f32 => 10 | .f64 => 11 | .char => 12 | .string => 13 | .bytes => 14
  | .none => 15 | .some => 16 | .seq => 17 | .map => 18 | .struct => 19 | .enum => 20

def TypeTag.debug : TypeTag → String
  | .unit => "Unit" | .bool => "Bool" | .i8 => "I8" | .i16 => "I16" | .i32 => "I32" | .i64 => "I64"
  | .u8 => "U8" | .u16 => "U16" | .u32 => "U32" | .u64 => "U64" | .f32 => "F32" | .f64 => "F64"
  | .char => "Char" | .string => "String" | .bytes => "Bytes" | .none => "None" | .some => "Some"
  | .seq => "Seq" | .map => "Map" | .struct => "Struct" | .enum => "Enum"

/-- What a derived `Deserialize` refuses on its own; serde turns each into an
`Error::Message` through `Error::custom`. -/
inductive Refusal where
  | missingField (name : String)
  | duplicateField (name : String)
  | unknownVariant (name : String)
  | variantIndex (index : UInt32)
  | invalidLength (length : Nat)
  deriving DecidableEq, Repr

/-- mirrors packages/codec/src/error.rs:5-36, the errors of the unlimited path -/
inductive Error where
  | message (text : String)
  | custom (refusal : Refusal)
  | unexpectedEof
  | trailingBytes
  | invalidUtf8
  | invalidBool
  | invalidChar
  | unsupportedType (name : String)
  deriving DecidableEq, Repr

/-! ## Values that exist in memory -/

structure Text where
  val : String
  fits : (utf8 val).length < 2 ^ 64
  deriving DecidableEq

structure Buffer where
  val : Bytes
  fits : val.length < 2 ^ 64
  deriving DecidableEq

structure Seq (α : Type) where
  elements : List α
  fits : elements.length < 2 ^ 64
  deriving DecidableEq

structure Map (κ υ : Type) where
  entries : List (κ × υ)
  distinct : (entries.map fst).Nodup
  fits : entries.length < 2 ^ 64
  deriving DecidableEq

def insertEntry {κ υ : Type} [DecidableEq κ] (entry : κ × υ) : List (κ × υ) → List (κ × υ)
  | [] => [entry]
  | head :: entries =>
    if head.1 = entry.1 then (head.1, entry.2) :: entries else head :: insertEntry entry entries

section Insert
variable {κ υ : Type} [DecidableEq κ]

theorem keys_insertEntry (entry : κ × υ) (l : List (κ × υ)) : (insertEntry entry l).map fst =
      if entry.1 ∈ l.map fst then l.map fst else l.map fst ++ [entry.1] := by
  induction l with
  | nil => simp [insertEntry]
  | cons head l ih =>
    unfold insertEntry
    by_cases h : head.1 = entry.1
    · simp [h]
    · rw [if_neg h, map_cons, ih, map_cons]
      by_cases hmem : entry.1 ∈ l.map fst
      · rw [if_pos hmem, if_pos (mem_cons_of_mem _ hmem)]
      · have hcons : entry.1 ∉ head.1 :: l.map fst := by
          rw [mem_cons]
          exact not_or.mpr ⟨fun he => h he.symm, hmem⟩
        rw [if_neg hmem, if_neg hcons, cons_append]

theorem insertEntry_new {entry : κ × υ} {l : List (κ × υ)} (h : entry.1 ∉ l.map fst) :
    insertEntry entry l = l ++ [entry] := by
  induction l with
  | nil => rfl
  | cons head l ih =>
    rw [map_cons, mem_cons, not_or] at h
    unfold insertEntry
    rw [if_neg (fun he => h.1 he.symm), ih h.2, cons_append]

theorem length_insertEntry_le (entry : κ × υ) (l : List (κ × υ)) :
    (insertEntry entry l).length ≤ l.length + 1 := by
  induction l with
  | nil => simp [insertEntry]
  | cons head l ih =>
    unfold insertEntry
    split <;> simp only [length_cons] <;> omega

variable (l : List (κ × υ))

def insertEntries (acc : List (κ × υ)) : List (κ × υ) :=
  l.foldl (fun acc entry => insertEntry entry acc) acc

theorem insertEntries_nodup {acc : List (κ × υ)} (h : (acc.map fst).Nodup) :
    ((insertEntries l acc).map fst).Nodup := by
  induction l generalizing acc with
  | nil => exact h
  | cons entry l ih =>
    apply ih
    rw [keys_insertEntry]
    by_cases hmem : entry.1 ∈ acc.map fst
    · rwa [if_pos hmem]
    · rw [if_neg hmem]
      exact nodup_append'.mpr ⟨h, nodup_singleton _, disjoint_singleton.mpr hmem⟩

theorem length_insertEntries_le (l acc : List (κ × υ)) :
    (insertEntries l acc).length ≤ acc.length + l.length := by
  induction l generalizing acc with
  | nil => exact le_rfl
  | cons entry l ih =>
    have htail := ih (insertEntry entry acc)
    have hhead := length_insertEntry_le entry acc
    change (insertEntries l (insertEntry entry acc)).length ≤ _
    rw [length_cons]
    omega

theorem insertEntries_distinct {acc : List (κ × υ)} (h : ((acc ++ l).map fst).Nodup) :
    insertEntries l acc = acc ++ l := by
  induction l generalizing acc with
  | nil => exact (append_nil acc).symm
  | cons entry l ih =>
    have hnew : entry.1 ∉ acc.map fst := by
      rw [map_append] at h
      intro hmem
      exact disjoint_of_nodup_append h hmem mem_cons_self
    have hsplit : acc ++ entry :: l = acc ++ [entry] ++ l := by simp
    change insertEntries l (insertEntry entry acc) = _
    rw [insertEntry_new hnew, hsplit]
    rw [hsplit] at h
    exact ih h

def Map.ofEntries (h : l.length < 2 ^ 64) : Map κ υ where
  entries := insertEntries l []
  distinct := insertEntries_nodup l List.nodup_nil
  fits := Nat.lt_of_le_of_lt (length_insertEntries_le l []) (by simpa using h)

theorem Map.ofEntries_entries (m : Map κ υ) : Map.ofEntries m.entries m.fits = m := by
  obtain ⟨entries, distinct, fits⟩ := m
  have h : insertEntries entries [] = entries := insertEntries_distinct entries distinct
  simp only [Map.ofEntries, h]

end Insert

/-! ## The universe of serializable types -/

mutual
/-- A type with derived serde implementations. -/
inductive Ty where
  | bool | i8 | i16 | i32 | i64 | u8 | u16 | u32 | u64 | f32 | f64 | char | str | bytes
  | option (t : Ty)
  | unit
  | unitStruct
  | newtypeStruct (t : Ty)
  | seq (t : Ty)
  | tuple (ts : Tys)
  | tupleStruct (ts : Tys)
  | map (k v : Ty)
  | struct (fields : Fields)
  | enum (variants : Variants)

inductive Tys where
  | nil
  | cons (t : Ty) (ts : Tys)

inductive Fields where
  | nil
  | cons (name : Text) (t : Ty) (fields : Fields)

inductive Variants where
  | nil
  | cons (name : Text) (shape : Shape) (variants : Variants)

inductive Shape where
  | unit
  | newtype (t : Ty)
  | tuple (ts : Tys)
  | struct (fields : Fields)
end

mutual
/-- The values of a type. A float is its bit pattern, a newtype its content. -/
@[reducible] def Ty.Val : Ty → Type
  | .bool => Bool
  | .i8 => Int8
  | .i16 => Int16
  | .i32 => Int32
  | .i64 => Int64
  | .u8 => UInt8
  | .u16 => UInt16
  | .u32 => UInt32
  | .u64 => UInt64
  | .f32 => UInt32
  | .f64 => UInt64
  | .char => Char
  | .str => Text
  | .bytes => Buffer
  | .option t => Option t.Val
  | .unit => Unit
  | .unitStruct => Unit
  | .newtypeStruct t => t.Val
  | .seq t => Seq t.Val
  | .tuple ts => ts.Val
  | .tupleStruct ts => ts.Val
  | .map k v => Map k.Val v.Val
  | .struct fields => fields.Val
  | .enum variants => variants.Val

@[reducible] def Tys.Val : Tys → Type
  | .nil => Unit
  | .cons t ts => t.Val × ts.Val

@[reducible] def Fields.Val : Fields → Type
  | .nil => Unit
  | .cons _ t fields => t.Val × fields.Val

@[reducible] def Variants.Val : Variants → Type
  | .nil => Empty
  | .cons _ shape variants => shape.Val ⊕ variants.Val

@[reducible] def Shape.Val : Shape → Type
  | .unit => Unit
  | .newtype t => t.Val
  | .tuple ts => ts.Val
  | .struct fields => fields.Val
end

mutual
def Ty.decEq : (t : Ty) → DecidableEq t.Val
  | .bool => inferInstanceAs (DecidableEq Bool)
  | .i8 => inferInstanceAs (DecidableEq Int8)
  | .i16 => inferInstanceAs (DecidableEq Int16)
  | .i32 => inferInstanceAs (DecidableEq Int32)
  | .i64 => inferInstanceAs (DecidableEq Int64)
  | .u8 => inferInstanceAs (DecidableEq UInt8)
  | .u16 => inferInstanceAs (DecidableEq UInt16)
  | .u32 => inferInstanceAs (DecidableEq UInt32)
  | .u64 => inferInstanceAs (DecidableEq UInt64)
  | .f32 => inferInstanceAs (DecidableEq UInt32)
  | .f64 => inferInstanceAs (DecidableEq UInt64)
  | .char => inferInstanceAs (DecidableEq Char)
  | .str => inferInstanceAs (DecidableEq Text)
  | .bytes => inferInstanceAs (DecidableEq Buffer)
  | .option t => have := t.decEq; inferInstanceAs (DecidableEq (Option t.Val))
  | .unit => inferInstanceAs (DecidableEq Unit)
  | .unitStruct => inferInstanceAs (DecidableEq Unit)
  | .newtypeStruct t => t.decEq
  | .seq t => have := t.decEq; inferInstanceAs (DecidableEq (Seq t.Val))
  | .tuple ts => ts.decEq
  | .tupleStruct ts => ts.decEq
  | .map k v => have := k.decEq; have := v.decEq; inferInstanceAs (DecidableEq (Map k.Val v.Val))
  | .struct fields => fields.decEq
  | .enum variants => variants.decEq

def Tys.decEq : (ts : Tys) → DecidableEq ts.Val
  | .nil => inferInstanceAs (DecidableEq Unit)
  | .cons t ts => have := t.decEq; have := ts.decEq; inferInstanceAs (DecidableEq (t.Val × ts.Val))

def Fields.decEq : (fields : Fields) → DecidableEq fields.Val
  | .nil => inferInstanceAs (DecidableEq Unit)
  | .cons _ t fields => have := t.decEq; have := fields.decEq; inferInstanceAs (DecidableEq (t.Val × fields.Val))

def Variants.decEq : (variants : Variants) → DecidableEq variants.Val
  | .nil => inferInstanceAs (DecidableEq Empty)
  | .cons _ shape variants =>
    have := shape.decEq; have := variants.decEq; inferInstanceAs (DecidableEq (shape.Val ⊕ variants.Val))

def Shape.decEq : (shape : Shape) → DecidableEq shape.Val
  | .unit => inferInstanceAs (DecidableEq Unit)
  | .newtype t => t.decEq
  | .tuple ts => ts.decEq
  | .struct fields => fields.decEq
end

instance (t : Ty) : DecidableEq t.Val := t.decEq

def Tys.length : Tys → Nat
  | .nil => 0
  | .cons _ ts => ts.length + 1

def Fields.length : Fields → Nat
  | .nil => 0
  | .cons _ _ fields => fields.length + 1

def Variants.length : Variants → Nat
  | .nil => 0
  | .cons _ _ variants => variants.length + 1

def Fields.names : Fields → List Text
  | .nil => []
  | .cons name _ fields => name :: fields.names

def Variants.names : Variants → List Text
  | .nil => []
  | .cons name _ variants => name :: variants.names

mutual
/-- What the compiler guarantees of a type: the names of fields and of variants
are distinct, lengths are `usize`s and variant indices `u32`s. -/
def Ty.wellFormed : Ty → Bool
  | .option t | .newtypeStruct t | .seq t => t.wellFormed
  | .tuple ts | .tupleStruct ts => ts.length < 2 ^ 64 && ts.wellFormed
  | .map k v => k.wellFormed && v.wellFormed
  | .struct fields => fields.length < 2 ^ 64 && fields.names.Nodup && fields.wellFormed
  | .enum variants => variants.length ≤ 2 ^ 32 && variants.names.Nodup && variants.wellFormed
  | _ => true

def Tys.wellFormed : Tys → Bool
  | .nil => true
  | .cons t ts => t.wellFormed && ts.wellFormed

def Fields.wellFormed : Fields → Bool
  | .nil => true
  | .cons _ t fields => t.wellFormed && fields.wellFormed

def Variants.wellFormed : Variants → Bool
  | .nil => true
  | .cons _ shape variants => shape.wellFormed && variants.wellFormed

def Shape.wellFormed : Shape → Bool
  | .unit => true
  | .newtype t => t.wellFormed
  | .tuple ts => ts.length < 2 ^ 64 && ts.wellFormed
  | .struct fields => fields.length < 2 ^ 64 && fields.names.Nodup && fields.wellFormed
end

end Bmux.Codec
