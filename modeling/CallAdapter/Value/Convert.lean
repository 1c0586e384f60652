import CallAdapter.Decimal.Reading
import CallAdapter.Error
import CallAdapter.Text.WhiteSpace
import CallAdapter.Value.Text

/-!
# Conversion

`Value.convert` turns a value that the host fixes for a parameter into one of the
parameter's type. Numbers convert when they are in range, texts are read, every primitive
can be written as a text, and an absent value converts to nullable and reference types only.
-/

namespace CallAdapter.Value

open Binary (Single Double)
open Text (trim)

/-! ### Numerical readings -/

/-- The integer that a value stands for. Floating-point numbers go to the nearest integer, a
half to the even neighbour, and a text is a numeral of a 64-bit integer. -/
def integral? : Value → Option Int
  | .bool b => some (if b then 1 else 0)
  | .u8 n => some n.toNat
  | .i16 n => some n.toInt
  | .i32 n => some n.toInt
  | .i64 n => some n.toInt
  | .f32 x => x.toInt?
  | .f64 x => x.toInt?
  | .str s =>
    (Text.readInt? (trim s.toList)).filter fun n =>
      Int64.minValue.toInt ≤ n && n ≤ Int64.maxValue.toInt
  | _ => none

/-- The floating-point number that a value stands for. -/
def real? : Value → Option Double
  | .bool b => some (.ofInt (if b then 1 else 0))
  | .u8 n => some (.ofInt n.toNat)
  | .i16 n => some (.ofInt n.toInt)
  | .i32 n => some (.ofInt n.toInt)
  | .i64 n => some (.ofInt n.toInt)
  | .f32 x => some x.toDouble
  | .f64 x => some x
  | .str s => Double.read? (trim s.toList)
  | _ => none

/-- The truth value that a value stands for: the words `true` and `false` in any case, and
for numbers whether they differ from zero. -/
def truth? : Value → Option Bool
  | .str s =>
    match String.ofList ((trim s.toList).map Char.toLower) with
    | "true" => some true
    | "false" => some false
    | _ => none
  | v => v.real?.map fun x => !x.isZero

/-- The value of an integer type that denotes `n`, if `n` is in the range of the type. -/
def ofIntegral? (n : Int) : ValueType → Option Value
  | .u8 => if 0 ≤ n ∧ n ≤ 255 then some (.u8 (UInt8.ofNat n.toNat)) else none
  | .i16 =>
    if Int16.minValue.toInt ≤ n ∧ n ≤ Int16.maxValue.toInt then some (.i16 (Int16.ofInt n))
    else none
  | .i32 =>
    if Int32.minValue.toInt ≤ n ∧ n ≤ Int32.maxValue.toInt then some (.i32 (Int32.ofInt n))
    else none
  | .i64 =>
    if Int64.minValue.toInt ≤ n ∧ n ≤ Int64.maxValue.toInt then some (.i64 (Int64.ofInt n))
    else none
  | _ => none

/-! ### Conversion -/

/-- A bare value as a value of another type that is no wrapper. -/
def convertBare? (v : Value) : ValueType → Option Value
  | .bool => v.truth?.map .bool
  | .u8 => v.integral?.bind (ofIntegral? · .u8)
  | .i16 => v.integral?.bind (ofIntegral? · .i16)
  | .i32 => v.integral?.bind (ofIntegral? · .i32)
  | .i64 => v.integral?.bind (ofIntegral? · .i64)
  | .f32 => v.real?.map fun x => .f32 x.toSingle
  | .f64 => v.real?.map .f64
  | .str =>
    match v with
    | .null => some .null
    | .bool _ | .u8 _ | .i16 _ | .i32 _ | .i64 _ | .f32 _ | .f64 _ => some (.str v.text)
    | _ => none
  | .object | .reference _ => if v.isAbsent then some .null else none
  | .unit | .struct _ _ | .nullable _ => none

/-- A value as a value of a type that is no wrapper: wrappers around the value are taken off
one by one until what is inside is an instance. -/
def convertPlain (t : ValueType) : Value → Except BuildError Value
  | .present v => if (Value.present v).isInstance t then .ok (.present v) else convertPlain t v
  | v =>
    if v.isInstance t then .ok v
    else
      match v.convertBare? t with
      | some w => .ok w
      | none => .error (.valueMismatch v.text t)

/-- A value as a value of the given type. An instance is left as it is. At a nullable type an
absent value becomes the empty wrapper, and any other value converts, without one wrapper of
its own, to the inner type. -/
def convert : Value → ValueType → Except BuildError Value
  | v, .nullable t =>
    if v.isInstance (.nullable t) then .ok v
    else if v.isAbsent then .ok .empty
    else (convert v.unwrap t).map .present
  | v, t => convertPlain t v

end CallAdapter.Value
