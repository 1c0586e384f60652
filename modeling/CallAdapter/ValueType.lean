/-!
# Types of values

`ValueType` is the declared type of a parameter, a local or a result. A *value type* has a
zero value of its own; the others are *reference types*, whose default is the null
reference. Types are compared by their whole structure, so two struct types of one name with
different fields are different types.
-/

namespace CallAdapter

/-- The declared type of a slot. -/
inductive ValueType where
  /-- No value; meaningful as a result only. -/
  | unit
  | bool
  | u8
  | i16
  | i32
  | i64
  | f32
  | f64
  /-- Strings: a reference type whose values can still be written into code. -/
  | str
  /-- A wrapper that is empty or holds a value of the inner type. -/
  | nullable (inner : ValueType)
  /-- A record of named fields. -/
  | struct (name : String) (fields : List (String × ValueType))
  /-- The top of the reference types. -/
  | object
  /-- A named class of objects. -/
  | reference (name : String)
deriving Inhabited, Repr

namespace ValueType

/-! ### Equality -/

mutual

/-- Structural equality as a test. -/
def same : ValueType → ValueType → Bool
  | .unit, .unit | .bool, .bool | .u8, .u8 | .i16, .i16 | .i32, .i32 | .i64, .i64 => true
  | .f32, .f32 | .f64, .f64 | .str, .str | .object, .object => true
  | .nullable s, .nullable t => same s t
  | .struct m fs, .struct n gs => m == n && sameFields fs gs
  | .reference m, .reference n => m == n
  | _, _ => false

def sameFields : List (String × ValueType) → List (String × ValueType) → Bool
  | [], [] => true
  | (m, s) :: fs, (n, t) :: gs => m == n && same s t && sameFields fs gs
  | _, _ => false

end

mutual

/-- The test `same` decides equality of types. -/
theorem same_iff : ∀ s t : ValueType, same s t = true ↔ s = t
  | .unit, t | .bool, t | .u8, t | .i16, t | .i32, t | .i64, t => by cases t <;> simp [same]
  | .f32, t | .f64, t | .str, t | .object, t => by cases t <;> simp [same]
  | .nullable s, t => by cases t <;> simp [same, same_iff s]
  | .struct _ fs, t => by cases t <;> simp [same, sameFields_iff fs]
  | .reference _, t => by cases t <;> simp [same]

/-- The test `sameFields` decides equality of field lists. -/
theorem sameFields_iff :
    ∀ fs gs : List (String × ValueType), sameFields fs gs = true ↔ fs = gs
  | [], gs => by cases gs <;> simp [sameFields]
  | (_, s) :: fs, [] => by simp [sameFields]
  | (_, s) :: fs, (_, t) :: gs => by
    simp [sameFields, same_iff s t, sameFields_iff fs gs, and_assoc]

end

instance : DecidableEq ValueType := fun s t => decidable_of_iff _ (same_iff s t)

/-! ### Classification -/

/-- Whether values of the type default to a value rather than to the null reference. -/
def isValueType : ValueType → Bool
  | .str | .object | .reference _ => false
  | _ => true

/-- Whether a constant of the type can be written into code at all: value types and
strings. -/
def isSimple (t : ValueType) : Bool := t.isValueType || t == .str

def underlying? : ValueType → Option ValueType
  | .nullable t => some t
  | _ => none

/-- Whether a slot of type `t` can take what a slot of type `s` holds: the types are equal,
`t` is the top type, or `t` wraps `s`. -/
def isAssignableFrom (t s : ValueType) : Bool :=
  t == s ||
    match t with
    | .object => true
    | .nullable u => u == s
    | _ => false

/-! ### Text -/

def text : ValueType → String
  | .unit => "Unit"
  | .bool => "Bool"
  | .u8 => "U8"
  | .i16 => "I16"
  | .i32 => "I32"
  | .i64 => "I64"
  | .f32 => "F32"
  | .f64 => "F64"
  | .str => "String"
  | .nullable t => t.text ++ "?"
  | .struct name _ => name
  | .object => "Object"
  | .reference name => name

instance : ToString ValueType := ⟨text⟩

end ValueType

end CallAdapter
