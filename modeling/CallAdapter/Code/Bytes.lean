/-!
# Little-endian words

A word of `width` bytes, least significant byte first.
-/

namespace CallAdapter.LittleEndian

/-- The lowest `width` bytes of a number. -/
def write (width n : Nat) : List UInt8 :=
  match width with
  | 0 => []
  | width + 1 => UInt8.ofNat n :: write width (n / 256)

/-- The number that some bytes stand for. -/
def read : List UInt8 → Nat
  | [] => 0
  | b :: bs => b.toNat + 256 * read bs

theorem length_write (width n : Nat) : (write width n).length = width := by
  induction width generalizing n with
  | zero => rfl
  | succ width ih => simp [write, ih]

end CallAdapter.LittleEndian
