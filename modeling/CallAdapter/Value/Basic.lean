import CallAdapter.Binary.Word
import CallAdapter.ValueType

/-!
# Values

`Value` is what flows through procedures at run time. Integers are words of their width and
floating-point numbers are kept as bits. A nullable wrapper is either `empty` or `present`.

A value is an *instance* of a type when it has exactly that type; the top type `object`
takes every value that is neither absent nor the unit.
-/

namespace CallAdapter

open Binary (Single Double)

/-- An opaque object of a named class. Objects are told apart by their identity alone. -/
structure ObjectRef where
  className : String
  id : Nat
deriving DecidableEq, Repr

inductive Value where
  | unit
  /-- The null reference. -/
  | null
  | bool (b : Bool)
  | u8 (n : UInt8)
  | i16 (n : Int16)
  | i32 (n : Int32)
  | i64 (n : Int64)
  | f32 (x : Single)
  | f64 (x : Double)
  | str (s : String)
  /-- A nullable wrapper without a value. -/
  | empty
  /-- A nullable wrapper around a value. -/
  | present (inner : Value)
  /-- A record: the name and the fields of its type, and the values of the fields. -/
  | struct (name : String) (fields : List (String × ValueType)) (values : List Value)
  | object (ref : ObjectRef)
deriving Inhabited, Repr

namespace Value

/-- Whether there is no value to write down: the null reference or an empty wrapper. -/
def isAbsent : Value → Bool
  | .null | .empty => true
  | _ => false

/-- The value inside a wrapper; a bare value is left as it is. -/
def unwrap : Value → Value
  | .present v => v
  | v => v

/-- The name of a value's own type. -/
def typeName : Value → String
  | .unit => "Unit"
  | .null => "Null"
  | .bool _ => "Bool"
  | .u8 _ => "U8"
  | .i16 _ => "I16"
  | .i32 _ => "I32"
  | .i64 _ => "I64"
  | .f32 _ => "F32"
  | .f64 _ => "F64"
  | .str _ => "String"
  | .empty => "Nullable"
  | .present v => v.typeName ++ "?"
  | .struct name _ _ => name
  | .object ref => ref.className

def isInstance : Value → ValueType → Bool
  | .unit, .unit | .bool _, .bool | .u8 _, .u8 | .i16 _, .i16 | .i32 _, .i32 => true
  | .i64 _, .i64 | .f32 _, .f32 | .f64 _, .f64 | .str _, .str => true
  | .empty, .nullable _ => true
  | .present v, .nullable t => v.isInstance t
  | .struct m fs _, .struct n gs => m == n && decide (fs = gs)
  | .object ref, .reference name => ref.className == name
  | .unit, .object | .null, .object | .empty, .object => false
  | _, .object => true
  | _, _ => false

mutual

/-- Equality of values: numbers as numbers, objects by identity, records by type and
fields. It is not reflexive, since what is no number equals nothing. -/
def equal : Value → Value → Bool
  | .unit, .unit | .null, .null | .empty, .empty => true
  | .bool a, .bool b => a == b
  | .u8 a, .u8 b => a == b
  | .i16 a, .i16 b => a == b
  | .i32 a, .i32 b => a == b
  | .i64 a, .i64 b => a == b
  | .f32 a, .f32 b => a.equal b
  | .f64 a, .f64 b => a.equal b
  | .str a, .str b => a == b
  | .present a, .present b => equal a b
  | .struct m fs as, .struct n gs bs => m == n && decide (fs = gs) && equalAll as bs
  | .object a, .object b => a.id == b.id
  | _, _ => false

def equalAll : List Value → List Value → Bool
  | [], [] => true
  | a :: as, b :: bs => equal a b && equalAll as bs
  | _, _ => false

end

end Value

end CallAdapter
