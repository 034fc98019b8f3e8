import Mathlib.Algebra.Group.Nat.Defs
import Mathlib.Data.List.Induction
import Mathlib.Tactic.Common
import PieceReplication.Encoding.Radix

/-!
# Numerals and the numbers they denote

Writing a number with a fixed count of digits keeps its remainder modulo the power of the base that
the count names, and reading loses nothing: a numeral of digits below the base is the one of its
length that denotes its number.  Both are inductions from the last digit on, the way in which
`Radix.digits` writes.
-/

namespace PieceReplication.Radix

variable {base count n : Nat} {numeral : List Nat} {bytes bytes' : Bytes}

/-- A numeral has the count of digits that was asked for. -/
@[simp]
lemma length_digits (base count n : Nat) : (digits base count n).length = count := by
  induction count generalizing n with
  | zero => rfl
  | succ count ih => rw [digits, List.length_append, ih, List.length_singleton]

/-- A further digit multiplies what stands before it by the base. -/
lemma value_append_singleton (base : Nat) (numeral : List Nat) (digit : Nat) :
    value base (numeral ++ [digit]) = value base numeral * base + digit := by
  rw [value, value, List.foldl_append, List.foldl_cons, List.foldl_nil]

/-- The digits that a numeral of a fixed count has no room for are lost. -/
lemma value_digits (base count n : Nat) : value base (digits base count n) = n % base ^ count := by
  induction count generalizing n with
  | zero => rw [Nat.pow_zero, Nat.mod_one]; rfl
  | succ count ih =>
    rw [digits, value_append_singleton, ih, Nat.pow_succ', Nat.mod_mul, Nat.mul_comm, Nat.add_comm]

/-- A numeral is the one of its length that denotes its number. -/
lemma digits_value (h : ∀ digit ∈ numeral, digit < base) :
    digits base numeral.length (value base numeral) = numeral := by
  induction numeral using List.reverseRecOn with
  | nil => rfl
  | append_singleton numeral digit ih =>
    have hlast : digit < base := h digit (List.mem_append_right _ (List.mem_singleton_self _))
    have hbase : 0 < base := Nat.zero_lt_of_lt hlast
    rw [List.length_append, List.length_singleton, digits, value_append_singleton,
      Nat.mul_comm, Nat.mul_add_div hbase, Nat.div_eq_of_lt hlast, Nat.add_zero,
      Nat.mul_add_mod, Nat.mod_eq_of_lt hlast, ih fun d hd => h d (List.mem_append_left _ hd)]

/-- The digits of a numeral are below the base. -/
lemma digits_lt (hbase : 0 < base) : ∀ digit ∈ digits base count n, digit < base := by
  induction count generalizing n with
  | zero => exact fun digit h => absurd h List.not_mem_nil
  | succ count ih =>
    intro digit h
    rcases List.mem_append.1 h with hfront | hlast
    · exact ih digit hfront
    · rw [List.mem_singleton.1 hlast]
      exact Nat.mod_lt n hbase

/-! ## Bytes -/

/-- A number is written with the count of bytes that was asked for. -/
@[simp]
lemma length_toBytes (count n : Nat) : (toBytes count n).length = count := by
  rw [toBytes, List.length_map, length_digits]

/-- Reading the bytes of a number gives the number as far as they had room for it. -/
lemma ofBytes_toBytes (count n : Nat) : ofBytes (toBytes count n) = n % 256 ^ count := by
  have hlt : ∀ digit ∈ digits 256 count n, digit < 256 := digits_lt (by omega)
  have hback : (digits 256 count n).map (UInt8.toNat ∘ UInt8.ofNat) = digits 256 count n :=
    (List.map_congr_left fun digit h => UInt8.toNat_ofNat_of_lt (hlt digit h)).trans (List.map_id _)
  rw [ofBytes, toBytes, List.map_map, hback, value_digits]

/-- Of the byte strings of one length, that which denotes a given number is unique. -/
lemma toBytes_ofBytes (bytes : Bytes) : toBytes bytes.length (ofBytes bytes) = bytes := by
  have hdigits : ∀ digit ∈ bytes.map UInt8.toNat, digit < 256 := by
    intro digit h
    obtain ⟨byte, -, rfl⟩ := List.mem_map.1 h
    exact byte.toNat_lt
  have hvalue := digits_value hdigits
  rw [List.length_map] at hvalue
  rw [toBytes, ofBytes, hvalue, List.map_map]
  exact (List.map_congr_left fun byte _ => UInt8.ofNat_toNat).trans (List.map_id _)

/-- A byte string denotes less than the power of 256 that its length names. -/
lemma ofBytes_lt (bytes : Bytes) : ofBytes bytes < 256 ^ bytes.length := by
  rw [← toBytes_ofBytes bytes, ofBytes_toBytes, length_toBytes]
  exact Nat.mod_lt _ (Nat.pow_pos (by omega))

end PieceReplication.Radix
