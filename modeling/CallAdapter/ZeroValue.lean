import CallAdapter.Value.Basic

/-!
# Zero values

The value with which a slot of a type starts. A record starts with the zero values of its
fields, a wrapper starts empty, and a reference starts as null.
-/

namespace CallAdapter.ValueType

mutual

/-- What a slot of the type holds before anything is stored there. -/
def initial : ValueType → Value
  | .unit => .unit
  | .bool => .bool false
  | .u8 => .u8 0
  | .i16 => .i16 0
  | .i32 => .i32 0
  | .i64 => .i64 0
  | .f32 => .f32 .zero
  | .f64 => .f64 .zero
  | .nullable _ => .empty
  | .struct name fields => .struct name fields (initialFields fields)
  | .str | .object | .reference _ => .null

def initialFields : List (String × ValueType) → List Value
  | [] => []
  | (_, t) :: fields => initial t :: initialFields fields

end

/-- The zero value of a value type. Reference types have none. -/
def zero? (t : ValueType) : Option Value := if t.isValueType then some t.initial else none

end CallAdapter.ValueType
