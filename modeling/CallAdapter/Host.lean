import CallAdapter.Procedure.Basic

/-!
# Stock host functions

Host functions that come with the library. A function that its arguments do not suit fails
with a message of its own.
-/

namespace CallAdapter

open Binary (Single Double)

inductive StockFunction where
  /-- The first argument. -/
  | echo
  /-- `(a + b) * c - d`, on four floating-point numbers of one width. -/
  | formula
  /-- The 64-bit sum of all integers and truth values. -/
  | sum
  /-- The texts of the arguments. -/
  | describe
  /-- The type names and the texts of the arguments. -/
  | trace
  /-- Whether two arguments are equal. -/
  | equal
  /-- The smaller of two 32-bit integers. -/
  | min
  /-- The number of arguments. -/
  | count
  /-- The argument with the given index. -/
  | pick (index : Nat)
  /-- The given value. -/
  | const (v : Value)
  /-- Fails with the given message. -/
  | fail (message : String)
deriving Inhabited, Repr

/-- `(a + b) * c - d` on 32-bit numbers, each step rounded. -/
def formulaSingle (a b c d : Single) : Single :=
  let x (s : Single) : Float32 := Float32.ofBits s.bits
  ⟨((x a + x b) * x c - x d).toBits⟩

/-- `(a + b) * c - d` on 64-bit numbers, each step rounded. -/
def formulaDouble (a b c d : Double) : Double :=
  let x (s : Double) : Float := Float.ofBits s.bits
  ⟨((x a + x b) * x c - x d).toBits⟩

/-- The 64-bit integer that a value adds to a sum. -/
def Value.summand : Value → Int64
  | .bool b => if b then 1 else 0
  | .u8 n => Int64.ofNat n.toNat
  | .i16 n => n.toInt64
  | .i32 n => n.toInt64
  | .i64 n => n
  | _ => 0

def StockFunction.run : StockFunction → HostFunction
  | .echo, v :: _ => .ok v
  | .echo, [] => .error (.host "echo needs an argument")
  | .formula, [.f32 a, .f32 b, .f32 c, .f32 d] => .ok (.f32 (formulaSingle a b c d))
  | .formula, [.f64 a, .f64 b, .f64 c, .f64 d] => .ok (.f64 (formulaDouble a b c d))
  | .formula, _ => .error (.host "formula expects four F32 or four F64 values")
  | .sum, args => .ok (.i64 (args.foldl (fun total v => total + v.summand) 0))
  | .describe, args => .ok (.str ("/".intercalate (args.map Value.text)))
  | .trace, args =>
    .ok (.str (", ".intercalate (args.map fun v => v.typeName ++ "=" ++ v.text)))
  | .equal, [a, b] => .ok (.bool (a.equal b))
  | .equal, _ => .error (.host "equal expects two values")
  | .min, [.i32 a, .i32 b] => .ok (.i32 (if a ≤ b then a else b))
  | .min, _ => .error (.host "min expects two I32 values")
  | .count, args => .ok (.i32 (Int32.ofNat args.length))
  | .pick index, args =>
    match args[index]? with
    | some v => .ok v
    | none => .error (.host s!"no argument {index}")
  | .const v, _ => .ok v
  | .fail message, _ => .error (.host message)

end CallAdapter
