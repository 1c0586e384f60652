import Mathlib
import CallAdapter.Code.Decode

/-!
# Words and tokens in code

Little-endian words and tokens are read back as they were written.

* `LittleEndian.read_write`, `LittleEndian.write_read`: a number below `256 ^ width` and its
  `width` bytes determine each other.
* `Token.find?_make`, `Token.find?_make_overflow`: the token of a row finds that row as long as
  the row is below `rowLimit - 1`. The row `rowLimit - 1` itself wraps to a token that names no
  row at all.
-/

namespace CallAdapter

/-! ### Little-endian words -/

namespace LittleEndian

theorem read_lt (bytes : List UInt8) : read bytes < 256 ^ bytes.length := by
  induction bytes with
  | nil => simp [read]
  | cons b bs ih =>
    have hb : b.toNat < 256 := b.toNat_lt
    rw [read, List.length_cons, pow_succ]
    omega

/-- Reading takes the number modulo the width. -/
theorem read_write (width n : Nat) : read (write width n) = n % 256 ^ width := by
  induction width generalizing n with
  | zero => simp [write, read, Nat.mod_one]
  | succ width ih =>
    have hpow : 256 ^ (width + 1) = 256 * 256 ^ width := by rw [pow_succ, Nat.mul_comm]
    rw [write, read, ih, UInt8.toNat_ofNat', hpow, Nat.mod_mul]

theorem read_write_of_lt {width n : Nat} (h : n < 256 ^ width) : read (write width n) = n := by
  rw [read_write, Nat.mod_eq_of_lt h]

/-- Every byte string is the word of the number that it stands for. -/
theorem write_read (bytes : List UInt8) : write bytes.length (read bytes) = bytes := by
  induction bytes with
  | nil => rfl
  | cons b bs ih =>
    have hb : b.toNat < 256 := b.toNat_lt
    have hlow : UInt8.ofNat (b.toNat + 256 * read bs) = b := by
      apply UInt8.toNat_inj.mp
      rw [UInt8.toNat_ofNat']
      omega
    have hhigh : (b.toNat + 256 * read bs) / 256 = read bs := by omega
    rw [List.length_cons, read, write, hlow, hhigh, ih]

theorem toNat_ofNat_read_four {bytes : List UInt8} (h : bytes.length = 4) :
    (UInt32.ofNat (read bytes)).toNat = read bytes := by
  have hlt : read bytes < 256 ^ 4 := h ▸ read_lt bytes
  exact UInt32.toNat_ofNat_of_lt' hlt

theorem toNat_ofNat_read_eight {bytes : List UInt8} (h : bytes.length = 8) :
    (UInt64.ofNat (read bytes)).toNat = read bytes := by
  have hlt : read bytes < 256 ^ 8 := h ▸ read_lt bytes
  exact UInt64.toNat_ofNat_of_lt' hlt

end LittleEndian

@[simp] theorem Binary.Single.ofWord_word (x : Single) : Single.ofWord x.word = x := by
  rw [Single.ofWord, Single.word, UInt32.ofNat_toNat]

@[simp] theorem Binary.Double.ofWord_word (x : Double) : Double.ofWord x.word = x := by
  rw [Double.ofWord, Double.word, UInt64.ofNat_toNat]

/-! ### Tokens -/

namespace Token

/-- The token in four bytes of code. -/
def ofBytes (bytes : List UInt8) : UInt32 := UInt32.ofNat (LittleEndian.read bytes)

theorem ofBytes_write (token : UInt32) : ofBytes (LittleEndian.write 4 token.toNat) = token := by
  have h : token.toNat < 256 ^ 4 := token.toNat_lt
  rw [ofBytes, LittleEndian.read_write_of_lt h, UInt32.ofNat_toNat]

theorem write_ofBytes {bytes : List UInt8} (h : bytes.length = 4) :
    LittleEndian.write 4 (ofBytes bytes).toNat = bytes := by
  rw [ofBytes, LittleEndian.toNat_ofNat_read_four h, ← h, LittleEndian.write_read]

theorem toNat_make (tableByte : UInt8) (row : Nat) :
    (make tableByte row).toNat = tableByte.toNat * rowLimit + (row + 1) % rowLimit := by
  have hb : tableByte.toNat < 256 := tableByte.toNat_lt
  have hrow : (row + 1) % rowLimit < rowLimit := Nat.mod_lt _ (by decide)
  rw [make, UInt32.toNat_ofNat_of_lt']
  simp only [rowLimit, UInt32.size] at *
  omega

@[simp] theorem table_make (tableByte : UInt8) (row : Nat) :
    table (make tableByte row) = tableByte := by
  have hrow : (row + 1) % rowLimit < rowLimit := Nat.mod_lt _ (by decide)
  have hdiv : (tableByte.toNat * rowLimit + (row + 1) % rowLimit) / rowLimit
      = tableByte.toNat := by
    simp only [rowLimit] at *
    omega
  rw [table, toNat_make, hdiv, UInt8.ofNat_toNat]

theorem toNat_make_mod (tableByte : UInt8) (row : Nat) :
    (make tableByte row).toNat % rowLimit = (row + 1) % rowLimit := by
  rw [toNat_make, Nat.mul_comm, Nat.mul_add_mod, Nat.mod_mod]

theorem row?_make (tableByte : UInt8) {row : Nat} (h : row + 1 < rowLimit) :
    row? (make tableByte row) = some row := by
  rw [row?, toNat_make_mod, Nat.mod_eq_of_lt h]

theorem row?_make_overflow (tableByte : UInt8) {row : Nat} (h : row + 1 = rowLimit) :
    row? (make tableByte row) = none := by
  rw [row?, toNat_make_mod, h, Nat.mod_self]

variable {α : Type}

/-- The token of a row names that row. -/
theorem find?_make (tableByte : UInt8) (entries : List α) {row : Nat} (h : row + 1 < rowLimit) :
    find? tableByte entries (make tableByte row) = entries[row]? := by
  rw [find?, table_make, if_pos rfl, row?_make tableByte h, Option.bind_some]

/-- The row that is just too large gets a token without a row, so it is never taken for
another one. -/
theorem find?_make_overflow (tableByte : UInt8) (entries : List α) {row : Nat}
    (h : row + 1 = rowLimit) : find? tableByte entries (make tableByte row) = none := by
  rw [find?, table_make, if_pos rfl, row?_make_overflow tableByte h, Option.bind_none]

/-- What a token finds: the entry of its row in the table that its first byte names. -/
theorem find?_eq_some_iff (tableByte : UInt8) (entries : List α) (token : UInt32) (a : α) :
    find? tableByte entries token = some a ↔
      table token = tableByte ∧ ∃ row, row? token = some row ∧ entries[row]? = some a := by
  rw [find?]
  split
  · next h => simp [h, Option.bind_eq_some_iff]
  · next h => simp [h]

/-- A token finds something exactly when its table is the right one and its row exists. -/
theorem find?_isSome_iff (tableByte : UInt8) (entries : List α) (token : UInt32) :
    (find? tableByte entries token).isSome ↔
      table token = tableByte ∧ ∃ row < entries.length, row? token = some row := by
  simp only [Option.isSome_iff_exists, find?_eq_some_iff]
  constructor
  · rintro ⟨a, htable, row, hrow, ha⟩
    exact ⟨htable, row, (List.getElem?_eq_some_iff.mp ha).1, hrow⟩
  · rintro ⟨htable, row, hlt, hrow⟩
    exact ⟨entries[row], htable, row, hrow, List.getElem?_eq_getElem hlt⟩

theorem mem_of_find? {tableByte : UInt8} {entries : List α} {token : UInt32} {a : α}
    (h : find? tableByte entries token = some a) : a ∈ entries := by
  obtain ⟨-, row, -, hrow⟩ := (find?_eq_some_iff _ _ _ _).mp h
  exact List.mem_of_getElem? hrow

end Token

end CallAdapter
