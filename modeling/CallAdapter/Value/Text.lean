import CallAdapter.Decimal.Float
import CallAdapter.Text.Hex
import CallAdapter.Text.Quoted
import CallAdapter.Value.Basic

/-!
# Texts of values

How a value is shown: numbers in plain decimal notation, strings quoted, a present wrapper
as the value inside it, absent values as `null`, records with their fields by name. An
object is shown by its class and its identity, so two objects never share a text.
-/

namespace CallAdapter

namespace ObjectRef

/-- The identity of an object as a hexadecimal address, different for different objects. -/
def address (ref : ObjectRef) : String := "0x" ++ Text.hex 12 ref.id

def text (ref : ObjectRef) : String := "<" ++ ref.className ++ " @ " ++ ref.address ++ ">"

end ObjectRef

namespace Value

mutual

def text : Value → String
  | .unit => "()"
  | .null | .empty => "null"
  | .bool b => if b then "true" else "false"
  | .u8 n => toString n.toNat
  | .i16 n => toString n.toInt
  | .i32 n => toString n.toInt
  | .i64 n => toString n.toInt
  | .f32 x => x.text .plain
  | .f64 x => x.text .plain
  | .str s => Text.quote s
  | .present v => v.text
  | .struct name fields values =>
    name ++ " \x7b" ++ ",".intercalate (fieldTexts fields values) ++ " \x7d"
  | .object ref => ref.text

def fieldTexts : List (String × ValueType) → List Value → List String
  | (name, _) :: fields, v :: values => (" " ++ name ++ ": " ++ v.text) :: fieldTexts fields values
  | _, _ => []

end

instance : ToString Value := ⟨text⟩

end Value

end CallAdapter
