import CallAdapter.Value.Basic

/-!
# Values in slots

Two ways to put a value into a slot of a declared type. `asArgument?` is how a host's
argument is received: only changes that lose nothing apply. `asSlot?` is how the evaluation
stack hands a value on: 32-bit integers stand for the shorter integers and for truth values,
and a 64-bit floating-point number narrows. Both wrap a bare value at a nullable type and put
the null reference into a reference slot for an absent value.
-/

namespace CallAdapter.Value

/-- Puts a value into a slot: an instance is left as it is, an absent value fills nullable
and reference slots, a bare value is wrapped, and `scalar` says which other values change
their type. -/
def fit? (scalar : Value → ValueType → Option Value) (v : Value) : ValueType → Option Value
  | .nullable t =>
    if v.isInstance (.nullable t) then some v
    else
      match v with
      | .null => some .empty
      | _ => (fit? scalar v t).map .present
  | t =>
    if v.isInstance t then some v
    else
      match t with
      | .str | .object | .reference _ => if v.isAbsent then some .null else none
      | _ => scalar v t

/-- The changes of type that lose nothing. -/
def widen? : Value → ValueType → Option Value
  | .i32 n, .i64 => some (.i64 n.toInt64)
  | .f32 x, .f64 => some (.f64 x.toDouble)
  | _, _ => none

/-- The changes of type of the evaluation stack. -/
def reshape? : Value → ValueType → Option Value
  | .i32 n, .bool => some (.bool (n != 0))
  | .i32 n, .u8 => some (.u8 n.toUInt32.toUInt8)
  | .i32 n, .i16 => some (.i16 n.toInt16)
  | .f64 x, .f32 => some (.f32 x.toSingle)
  | v, t => widen? v t

/-- The value received for an argument of type `t`, or none if it is refused. -/
def asArgument? : Value → ValueType → Option Value := fit? widen?

/-- The value handed on from the stack to a slot of type `t`, or none if it is refused. -/
def asSlot? : Value → ValueType → Option Value := fit? reshape?

end CallAdapter.Value
