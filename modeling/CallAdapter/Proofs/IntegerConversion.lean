import CallAdapter.Proofs.ConvertedValues

/-!
# Conversion of integers

The values of the integer types and the two truth values denote integers (`Value.Denotes`). Between
types, conversion goes by the integer: it succeeds if the integer is in the range of the type, with the
value that denotes it there. Wrappers around the value make no difference (`convertPlain_core`).

On the way through a text an integer is written in decimal digits and read back. `readInt?_toString`
says that a numeral is read as the integer that it was written for, and `trim_padded` that white space
around it is not seen. The truth values are written as words, and are read as words.
-/

namespace CallAdapter

open Value Text

/-! ### Integers and ranges -/

/-- The value has this type, an integer type or that of the truth values, and denotes this integer. -/
inductive Value.Denotes : Value → ValueType → Int → Prop
  | bool (b : Bool) : Denotes (.bool b) .bool (if b then 1 else 0)
  | u8 (n : UInt8) : Denotes (.u8 n) .u8 n.toNat
  | i16 (n : Int16) : Denotes (.i16 n) .i16 n.toInt
  | i32 (n : Int32) : Denotes (.i32 n) .i32 n.toInt
  | i64 (n : Int64) : Denotes (.i64 n) .i64 n.toInt

/-- The least and the greatest integer of an integer type. -/
def ValueType.range? : ValueType → Option (Int × Int)
  | .u8 => some (0, 255)
  | .i16 => some (-32768, 32767)
  | .i32 => some (-2147483648, 2147483647)
  | .i64 => some (-9223372036854775808, 9223372036854775807)
  | _ => none

section Denotes

variable {u : Value} {s t : ValueType} {n low high : Int}

theorem Value.Denotes.integral?_eq (h : u.Denotes s n) : u.integral? = some n := by
  cases h <;> rfl

/-- The integer is in the range of the type. -/
theorem Value.Denotes.in_range (h : u.Denotes t n) (ht : t.range? = some (low, high)) :
    low ≤ n ∧ n ≤ high := by
  cases h with
  | bool => cases ht
  | u8 m =>
    cases ht
    have := m.toNat_lt
    omega
  | i16 m | i32 m | i64 m =>
    cases ht
    have := m.le_toInt
    have := m.toInt_lt
    omega

/-- The widest type has a value for the integer. -/
theorem Value.Denotes.in_widest_range (h : u.Denotes s n) :
    Int64.minValue.toInt ≤ n ∧ n ≤ Int64.maxValue.toInt := by
  rw [Int64.toInt_minValue, Int64.toInt_maxValue]
  cases h with
  | bool b => cases b <;> decide
  | u8 m =>
    have := m.toNat_lt
    omega
  | i16 m | i32 m | i64 m =>
    have := m.le_toInt
    have := m.toInt_lt
    omega

/-- An integer in the range of a type is denoted by the value that is made for it. -/
theorem exists_ofIntegral? (ht : t.range? = some (low, high)) (hn : low ≤ n ∧ n ≤ high) :
    ∃ w, ofIntegral? n t = some w ∧ w.Denotes t n := by
  cases t with
  | u8 =>
    cases ht
    refine ⟨_, if_pos hn, ?_⟩
    -- The word of an integer in range stands for that integer: nothing wraps around.
    have hword : ((UInt8.ofNat n.toNat).toNat : Int) = n := by
      rw [UInt8.toNat_ofNat', Nat.mod_eq_of_lt (by omega)]
      omega
    have hdenotes := Denotes.u8 (UInt8.ofNat n.toNat)
    rwa [hword] at hdenotes
  | i16 =>
    cases ht
    refine ⟨_, if_pos hn, ?_⟩
    have hword : (Int16.ofInt n).toInt = n := Int16.toInt_ofInt_of_le (by omega) (by omega)
    have hdenotes := Denotes.i16 (Int16.ofInt n)
    rwa [hword] at hdenotes
  | i32 =>
    cases ht
    refine ⟨_, if_pos hn, ?_⟩
    have hword : (Int32.ofInt n).toInt = n := Int32.toInt_ofInt_of_le (by omega) (by omega)
    have hdenotes := Denotes.i32 (Int32.ofInt n)
    rwa [hword] at hdenotes
  | i64 =>
    cases ht
    refine ⟨_, if_pos hn, ?_⟩
    have hword : (Int64.ofInt n).toInt = n := Int64.toInt_ofInt_of_le (by omega) (by omega)
    have hdenotes := Denotes.i64 (Int64.ofInt n)
    rwa [hword] at hdenotes
  | _ => cases ht

/-- A value of an integer type is made for its own integer. -/
theorem Value.Denotes.ofIntegral?_eq (h : u.Denotes t n) (ht : t.range? = some (low, high)) :
    ofIntegral? n t = some u := by
  have hn := h.in_range ht
  cases h with
  | bool => cases ht
  | u8 m =>
    cases ht
    exact (if_pos hn).trans (by rw [Int.toNat_natCast, UInt8.ofNat_toNat])
  | i16 m =>
    cases ht
    exact (if_pos hn).trans (by rw [Int16.ofInt_toInt])
  | i32 m =>
    cases ht
    exact (if_pos hn).trans (by rw [Int32.ofInt_toInt])
  | i64 m =>
    cases ht
    exact (if_pos hn).trans (by rw [Int64.ofInt_toInt])

theorem ofIntegral?_eq_none (ht : t.range? = some (low, high)) (hn : ¬ (low ≤ n ∧ n ≤ high)) :
    ofIntegral? n t = none := by
  cases t with
  | u8 | i16 | i32 | i64 =>
    cases ht
    exact if_neg hn
  | _ => cases ht

end Denotes

/-! ### Through the wrappers -/

theorem text_core (v : Value) : v.core.text = v.text := by
  induction v using Value.core.induct with
  | case1 v ih =>
    rw [core, ih, text]
  | case2 v hbare => rw [core]; exact hbare

/-- Wrappers are taken off, save for the top type, to which they belong. -/
theorem convertPlain_core {t : ValueType} (ht : t.underlying? = none) (hobject : t ≠ .object)
    (v : Value) : convertPlain t v = convertPlain t v.core := by
  induction v using Value.core.induct with
  | case1 v ih =>
    have hinst : (Value.present v).isInstance t = false :=
      Bool.eq_false_iff.mpr fun h => hobject (eq_object_of_isInstance_present ht h)
    rw [convertPlain, if_neg (by simp [hinst]), ih, core]
  | case2 v hbare =>
    rw [core]
    exact hbare

section Exact

variable {u v : Value} {s t : ValueType} {n low high : Int}

theorem underlying?_of_range? (ht : t.range? = some (low, high)) : t.underlying? = none := by
  cases t with
  | nullable => cases ht
  | _ => rfl

theorem ne_object_of_range? (ht : t.range? = some (low, high)) : t ≠ .object := by
  rintro rfl
  cases ht

theorem Value.Denotes.eq_of_isInstance (h : u.Denotes s n) (ht : t.range? = some (low, high))
    (hinst : u.isInstance t = true) : s = t := by
  cases t with
  | u8 | i16 | i32 | i64 =>
    cases h <;> first
      | rfl
      | cases hinst
  | _ => cases ht

theorem Value.Denotes.isBare (h : u.Denotes s n) : u.isBare = true := by
  cases h <;> rfl

/-- A bare value that is no instance becomes what it stands for, if it stands for something. -/
theorem convertPlain_bare (hbare : u.isBare = true) (hinst : u.isInstance t = false) :
    convertPlain t u
      = ((u.convertBare? t).map Except.ok).getD (.error (.valueMismatch u.text t)) := by
  cases u with
  | null | empty | present => cases hbare
  | _ =>
    rw [convertPlain, if_neg (by simp [hinst])]
    · split
      · next hw => rw [hw, Option.map_some, Option.getD_some]
      · next hw => rw [hw, Option.map_none, Option.getD_none]
    · simp

theorem convertBare?_of_range? (ht : t.range? = some (low, high)) (hn : u.integral? = some n) :
    u.convertBare? t = ofIntegral? n t := by
  cases t with
  | u8 | i16 | i32 | i64 =>
    rw [convertBare?, hn]
    rfl
  | _ => cases ht

/-- An integer in the range of the type is kept. -/
theorem exists_convert_of_range (h : v.core.Denotes s n) (ht : t.range? = some (low, high))
    (hn : low ≤ n ∧ n ≤ high) : ∃ w, v.convert t = .ok w ∧ w.Denotes t n := by
  rw [convert_plain (underlying?_of_range? ht),
    convertPlain_core (underlying?_of_range? ht) (ne_object_of_range? ht)]
  cases hinst : v.core.isInstance t with
  | true =>
    obtain rfl := h.eq_of_isInstance ht hinst
    rw [← convert_plain (underlying?_of_range? ht)]
    exact ⟨v.core, convert_of_isInstance hinst, h⟩
  | false =>
    obtain ⟨w, hw, hdenotes⟩ := exists_ofIntegral? ht hn
    refine ⟨w, ?_, hdenotes⟩
    rw [convertPlain_bare h.isBare hinst, convertBare?_of_range? ht h.integral?_eq, hw]
    rfl

/-- An integer out of the range of the type is refused. -/
theorem convert_of_out_of_range (h : v.core.Denotes s n) (ht : t.range? = some (low, high))
    (hn : ¬ (low ≤ n ∧ n ≤ high)) : v.convert t = .error (.valueMismatch v.text t) := by
  have hinst : v.core.isInstance t = false := by
    refine Bool.eq_false_iff.mpr fun hinst => ?_
    obtain rfl := h.eq_of_isInstance ht hinst
    exact hn (h.in_range ht)
  rw [convert_plain (underlying?_of_range? ht),
    convertPlain_core (underlying?_of_range? ht) (ne_object_of_range? ht),
    convertPlain_bare h.isBare hinst, convertBare?_of_range? ht h.integral?_eq,
    ofIntegral?_eq_none ht hn, text_core]
  rfl

end Exact

/-! ### Numerals -/

theorem isDigit_of_mem_toDigits {n : Nat} {c : Char} (hc : c ∈ Nat.toDigits 10 n) :
    c.isDigit = true :=
  Nat.isDigit_of_mem_toDigits (by decide) (by decide) hc

/-- The digits of a number are read as the number. -/
theorem readDigits?_toDigits (n : Nat) : readDigits? (Nat.toDigits 10 n) = some n := by
  have hall : (Nat.toDigits 10 n).all Char.isDigit = true :=
    List.all_eq_true.mpr fun c hc => isDigit_of_mem_toDigits hc
  have hnonempty : (Nat.toDigits 10 n).isEmpty = false := by
    simp [Nat.toDigits_ne_nil]
  rw [readDigits?, if_pos (by simp [hall, hnonempty]), Nat.ofDigitChars_ten_toDigits]

theorem splitSign_digits {cs : List Char} (h : ∀ c ∈ cs, c.isDigit = true) :
    splitSign cs = (false, cs) := by
  unfold splitSign
  split
  · have := h '-' (by simp)
    cases this
  · have := h '+' (by simp)
    cases this
  · rfl

/-- The text of an integer: its digits, behind the sign of a negative one. -/
theorem toList_toString (n : Int) :
    (toString n).toList = (if n < 0 then ['-'] else []) ++ Nat.toDigits 10 n.natAbs := by
  rw [Int.toString_eq_repr, Int.repr_eq_if]
  split
  · next hn => rw [if_neg (by omega), Nat.toList_repr, List.nil_append, ← Int.natAbs_of_nonneg hn,
      Int.toNat_natCast, Int.natAbs_natCast]
  · next hn =>
    rw [if_pos (by omega), String.toList_append, Nat.toList_repr,
      show (-n).toNat = n.natAbs by omega]
    rfl

/-- A numeral is read as the integer that it was written for. -/
theorem readInt?_toString (n : Int) : readInt? (toString n).toList = some n := by
  rw [toList_toString]
  split
  · have hsign : splitSign (['-'] ++ Nat.toDigits 10 n.natAbs) = (true, Nat.toDigits 10 n.natAbs) := rfl
    simp only [readInt?, hsign, readDigits?_toDigits, if_true]
    simp only [pure, bind, Option.bind_some, Option.map_some, Option.some.injEq]
    omega
  · rw [List.nil_append, readInt?, splitSign_digits fun c hc => isDigit_of_mem_toDigits hc]
    simp only [readDigits?_toDigits, Bool.false_eq_true, if_false]
    simp only [pure, bind, Option.bind_some, Option.map_some, Option.some.injEq]
    omega

/-! ### White space -/

/-- Only white space. -/
def Text.IsBlank (s : String) : Prop := ∀ c ∈ s.toList, isWhiteSpace c = true

/-- White space around a text without white space is not seen. -/
theorem trim_padded {before text after : String} (hbefore : IsBlank before) (hafter : IsBlank after)
    (htext : ∀ c ∈ text.toList, isWhiteSpace c = false) :
    trim (before ++ text ++ after).toList = text.toList := by
  rw [trim, String.toList_append, String.toList_append, List.append_assoc,
    List.dropWhile_append_of_pos hbefore]
  cases hcs : text.toList with
  | nil => simp [List.dropWhile_eq_nil_iff.mpr hafter]
  | cons c cs =>
    -- From either end, the search stops at a character of the text.
    rw [hcs] at htext
    have hfront : (c :: cs ++ after.toList).dropWhile isWhiteSpace = c :: cs ++ after.toList := by
      simp [htext c (by simp)]
    have hback : (c :: cs).reverse.dropWhile isWhiteSpace = (c :: cs).reverse := by
      rw [List.dropWhile_eq_self_iff]
      intro hlen
      have hmem := List.mem_reverse.mp (List.getElem_mem hlen)
      rw [htext _ hmem]
      exact Bool.false_ne_true
    have hblank : ∀ c ∈ after.toList.reverse, isWhiteSpace c = true :=
      fun c hc => hafter c (List.mem_reverse.mp hc)
    rw [hfront, List.reverse_append, List.dropWhile_append_of_pos hblank, hback,
      List.reverse_reverse]

theorem isWhiteSpace_of_isDigit {c : Char} (h : c.isDigit = true) : isWhiteSpace c = false := by
  simp only [Char.isDigit, ge_iff_le, Bool.and_eq_true, decide_eq_true_eq, UInt32.le_iff_toNat_le] at h
  simp only [isWhiteSpace, whiteSpace, CharRange.contains, List.any_cons, List.any_nil, Char.toNat]
  grind

theorem isWhiteSpace_of_mem_toString {n : Int} {c : Char} (hc : c ∈ (toString n).toList) :
    isWhiteSpace c = false := by
  rw [toList_toString, List.mem_append] at hc
  rcases hc with hsign | hdigit
  · obtain rfl : c = '-' := by
      split at hsign
      · simpa using hsign
      · cases hsign
    decide
  · exact isWhiteSpace_of_isDigit (isDigit_of_mem_toDigits hdigit)

/-! ### Through a text -/

section Texts

variable {v : Value} {s : ValueType} {n low high : Int} {before after : String}

theorem Value.Denotes.convert_str (h : v.Denotes s n) : v.convert .str = .ok (.str v.text) := by
  cases h <;> rfl

theorem Value.Denotes.text_eq (h : v.Denotes s n) (hs : s.range? = some (low, high)) :
    v.text = toString n := by
  cases h with
  | bool => cases hs
  | _ => rfl

/-- An integer is read from its padded text. -/
theorem Value.Denotes.integral?_padded (h : v.Denotes s n) (hbefore : IsBlank before)
    (hafter : IsBlank after) :
    (Value.str (before ++ toString n ++ after)).integral? = some n := by
  have hrange := h.in_widest_range
  rw [integral?, trim_padded hbefore hafter fun c hc => isWhiteSpace_of_mem_toString hc,
    readInt?_toString, Option.filter_some_pos]
  simp only [Bool.and_eq_true, decide_eq_true_eq]
  exact hrange

/-- A value of an integer type is read back from its padded text. -/
theorem Value.Denotes.convert_padded (h : v.Denotes s n) (hs : s.range? = some (low, high))
    (hbefore : IsBlank before) (hafter : IsBlank after) :
    (Value.str (before ++ v.text ++ after)).convert s = .ok v := by
  have hinst : (Value.str (before ++ v.text ++ after)).isInstance s = false := by
    cases s with
    | u8 | i16 | i32 | i64 => rfl
    | _ => cases hs
  have hintegral := h.integral?_padded hbefore hafter
  rw [← h.text_eq hs] at hintegral
  rw [convert_plain (underlying?_of_range? hs), convertPlain_bare rfl hinst,
    convertBare?_of_range? hs hintegral, h.ofIntegral?_eq hs]
  rfl

/-- A truth value is read back from its padded word. -/
theorem convert_bool_padded (b : Bool) (hbefore : IsBlank before) (hafter : IsBlank after) :
    (Value.str (before ++ (Value.bool b).text ++ after)).convert .bool = .ok (.bool b) := by
  have hword : ∀ c ∈ (Value.bool b).text.toList, isWhiteSpace c = false := by
    cases b <;> simp [text, isWhiteSpace, whiteSpace, CharRange.contains]
  have htruth : (Value.str (before ++ (Value.bool b).text ++ after)).truth? = some b := by
    rw [truth?, trim_padded hbefore hafter hword]
    cases b <;> rfl
  rw [convert_plain rfl, convertPlain_bare rfl rfl, convertBare?, htruth]
  rfl

end Texts

/-- **Conversion of integers is exact and survives texts.** Let a value of an integer type or a truth
value denote `n`. Under any number of wrappers it converts to an integer type if `n` is in the range
of the type, and what it converts to denotes `n`; otherwise it is refused. And it converts to a text
from which it is read back, whatever white space is put around it. -/
theorem convert_integer (u : Value) (s : ValueType) (n : Int) (h : u.Denotes s n) :
    (∀ v : Value, v.core = u → ∀ (t : ValueType) (low high : Int), t.range? = some (low, high) →
      (low ≤ n ∧ n ≤ high → ∃ w, v.convert t = .ok w ∧ w.Denotes t n) ∧
      (¬ (low ≤ n ∧ n ≤ high) → v.convert t = .error (.valueMismatch v.text t))) ∧
    ∃ text, u.convert .str = .ok (.str text) ∧
      ∀ before after, IsBlank before → IsBlank after →
        (Value.str (before ++ text ++ after)).convert s = .ok u := by
  constructor
  · rintro v rfl t low high ht
    exact ⟨exists_convert_of_range h ht, convert_of_out_of_range h ht⟩
  · refine ⟨u.text, h.convert_str, fun before after hbefore hafter => ?_⟩
    cases h with
    | bool b => exact convert_bool_padded b hbefore hafter
    | u8 m => exact (Denotes.u8 m).convert_padded rfl hbefore hafter
    | i16 m => exact (Denotes.i16 m).convert_padded rfl hbefore hafter
    | i32 m => exact (Denotes.i32 m).convert_padded rfl hbefore hafter
    | i64 m => exact (Denotes.i64 m).convert_padded rfl hbefore hafter

/-- The least integer of all, in two wrappers, is in the range of the widest type only. It is read back
from between a tab and an ideographic space. -/
theorem convert_integer_least :
    ∃ (u v : Value), u = .i64 Int64.minValue ∧ v = .present (.present u) ∧
      (∃ w, v.convert .i64 = .ok w ∧ w.Denotes .i64 (-9223372036854775808)) ∧
      v.convert .i32 = .error (.valueMismatch v.text .i32) ∧
      ∃ text, u.convert .str = .ok (.str text) ∧
        (Value.str ("\t" ++ text ++ "\u3000")).convert .i64 = .ok u := by
  have hdenotes : (Value.i64 Int64.minValue).Denotes .i64 (-9223372036854775808) := .i64 _
  obtain ⟨hconvert, text, htext, hread⟩ := convert_integer _ _ _ hdenotes
  have hblank : ∀ c, isWhiteSpace c = true → IsBlank (String.singleton c) := by
    intro c hc d hd
    simp only [String.toList_singleton, List.mem_singleton] at hd
    rwa [hd]
  refine ⟨_, _, rfl, rfl, (hconvert _ rfl .i64 _ _ rfl).1 (by decide),
    (hconvert _ rfl .i32 _ _ rfl).2 (by decide), text, htext, ?_⟩
  exact hread (String.singleton '\t') (String.singleton '\u3000') (hblank _ (by decide))
    (hblank _ (by decide))

end CallAdapter
