import Mathlib.Tactic.Common
import PieceReplication.Chain.Basic

/-!
# Ranges of epochs

The index phase steps from epoch to epoch by a sum that may overflow.  Below another epoch it never
does: each of the steps from `start` to `stop` leads to the epoch after, and the last one to `stop`.
-/

namespace PieceReplication.Epoch

variable {start stop : Epoch} {count i : Nat}

/-- A number of epochs in order, from `start` on. -/
def consecutive (start : Epoch) (count : Nat) : List Epoch :=
  (List.range count).map fun i => start + Int64.ofNat i

/-- No step leads nowhere else. -/
lemma add_ofNat_zero (start : Epoch) : start + Int64.ofNat 0 = start :=
  Int64.add_zero start

/-- One step and some more are one step more. -/
lemma add_one_add_ofNat (start : Epoch) (count : Nat) :
    start + 1 + Int64.ofNat count = start + Int64.ofNat (count + 1) := by
  rw [Nat.add_comm, Int64.ofNat_add, Int64.add_assoc]
  rfl

/-- The first epoch and those after it. -/
lemma consecutive_succ (start : Epoch) (count : Nat) :
    consecutive start (count + 1) = start :: consecutive (start + 1) count := by
  rw [consecutive, List.range_succ_eq_map, List.map_cons, List.map_map, consecutive]
  refine congrArg₂ List.cons (add_ofNat_zero start) (List.map_congr_left fun i _ => ?_)
  rw [Function.comp_apply, add_one_add_ofNat]

/-- Some epochs and those after them. -/
lemma consecutive_add (start : Epoch) (done count : Nat) :
    consecutive start (done + count) =
      consecutive start done ++ consecutive (start + Int64.ofNat done) count := by
  rw [consecutive, List.range_add, List.map_append, List.map_map, consecutive, consecutive]
  refine congrArg _ (List.map_congr_left fun i _ => ?_)
  rw [Function.comp_apply, Int64.ofNat_add, Int64.add_assoc]

/-- Below another epoch a step does not overflow. -/
lemma next_of_lt (hlt : start < stop) : start.next = .ok (start + 1) := by
  have hlt' : start.toInt + 1 ≤ stop.toInt := Int64.lt_iff_toInt_lt.1 hlt
  have hfits : Int64.minValue.toInt ≤ start.toInt + 1 ∧
      start.toInt + 1 ≤ Int64.maxValue.toInt :=
    ⟨Int.le_add_one start.minValue_le_toInt, Int.le_trans hlt' stop.toInt_le⟩
  rw [next, ofInt?, if_pos hfits, Int64.ofInt_add, Int64.ofInt_toInt]
  rfl

/-- As long as some epoch lies so far above, the number of an epoch further on is the sum. -/
lemma toInt_add_ofNat (hle : i ≤ start.stepsTo stop) :
    (start + Int64.ofNat i).toInt = start.toInt + i := by
  have hstop := stop.toInt_lt
  have hstart := start.le_toInt
  have hsteps : (i : Int) ≤ max (stop.toInt - start.toInt) 0 := by
    rw [stepsTo] at hle
    omega
  have hstart' := start.toInt_lt
  have hsum : start + Int64.ofNat i = Int64.ofInt (start.toInt + i) := by
    rw [Int64.ofInt_add, Int64.ofInt_toInt, Int64.ofInt_eq_ofNat]
  rw [hsum, Int64.toInt_ofInt_of_le (by omega) (by omega)]

/-- There are steps to take exactly while the start is below the stop. -/
lemma stepsTo_pos_iff : 0 < start.stepsTo stop ↔ start < stop := by
  rw [stepsTo, Int64.lt_iff_toInt_lt]
  omega

/-- The number of the epoch after one below another epoch. -/
lemma toInt_add_one (hlt : start < stop) : (start + 1).toInt = start.toInt + 1 :=
  toInt_add_ofNat (i := 1) (stepsTo_pos_iff.2 hlt)

/-- The epoch after one below another epoch does not exceed that one. -/
lemma add_one_le_of_lt (hlt : start < stop) : start + 1 ≤ stop := by
  rw [Int64.le_iff_toInt_le, toInt_add_one hlt]
  exact Int64.lt_iff_toInt_lt.1 hlt

/-- The epoch after one below another epoch is a different one. -/
lemma ne_add_one_of_lt (hlt : start < stop) : start ≠ start + 1 := by
  intro heq
  have hnext := toInt_add_one hlt
  rw [← heq] at hnext
  omega

/-- After some steps the others are left. -/
lemma stepsTo_add_ofNat (hle : i ≤ start.stepsTo stop) :
    (start + Int64.ofNat i).stepsTo stop = start.stepsTo stop - i := by
  rw [stepsTo, toInt_add_ofNat hle, stepsTo]
  omega

/-- After a step one step less is left. -/
lemma stepsTo_add_one (hlt : start < stop) :
    (start + 1).stepsTo stop = start.stepsTo stop - 1 :=
  stepsTo_add_ofNat (i := 1) (stepsTo_pos_iff.2 hlt)

end PieceReplication.Epoch
