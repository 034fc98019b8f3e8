import Mathlib.Algebra.BigOperators.Ring.Finset
import Mathlib.Data.Finset.Card
import Mathlib.Order.Interval.Finset.Nat
import Mathlib.Tactic.Common
import Mathlib.Tactic.Ring
import PieceReplication.Random.Generator

/-!
# The draws of a uniform choice

Of the `2 ^ width` draws of a word each of `n` choices has the same number, a power of two.  A draw
counts if its product with `n` lies within the zone above a multiple of `2 ^ width`
(`choice?_eq_some_iff`).  The zone is as long as that power of two times `n`, so for each choice the
draws that make it stand in a row, and there are as many as that power (`draws_eq_Ico`).  The zone
is at least half of `2 ^ width`, so at least half of the draws count.
-/

namespace PieceReplication.Uniform

variable {width n draw i : Nat}

/-! ## The zone -/

/-- How many draws each choice has. -/
def share (width n : Nat) : Nat :=
  2 ^ leadingZeros width n

/-- Doubled as often as it has leading zeros, a number fits and has no leading zero left. -/
lemma mul_share_bounds (hpos : 0 < n) (hlt : n < 2 ^ width) :
    n * share width n < 2 ^ width ∧ 2 ^ width ≤ 2 * (n * share width n) := by
  have hlow : 2 ^ n.log2 ≤ n := Nat.log2_self_le hpos.ne'
  have hhigh : n < 2 ^ (n.log2 + 1) := Nat.lt_log2_self
  have hlog : n.log2 < width := (Nat.log2_lt hpos.ne').2 hlt
  have hwhole : 2 ^ (n.log2 + 1) * share width n = 2 ^ width := by
    rw [share, leadingZeros, ← Nat.pow_add, Nat.add_sub_cancel' hlog]
  have hshare : 0 < share width n := Nat.two_pow_pos _
  constructor
  · calc n * share width n < 2 ^ (n.log2 + 1) * share width n :=
        Nat.mul_lt_mul_of_pos_right hhigh hshare
      _ = 2 ^ width := hwhole
  · calc 2 ^ width = 2 * (2 ^ n.log2 * share width n) := by rw [← hwhole]; ring
      _ ≤ 2 * (n * share width n) :=
        Nat.mul_le_mul_left 2 (Nat.mul_le_mul_right _ hlow)

/-- The zone is one less than the number, doubled as often as it has leading zeros. -/
lemma zone_eq (width n : Nat) : zone width n = n * share width n - 1 := by
  rw [zone, Nat.shiftLeft_eq, share]

/-! ## The draws of a choice -/

/-- A draw makes a choice if its product lies in the zone above that many whole words. -/
lemma choice?_eq_some_iff (hpos : 0 < n) (hlt : n < 2 ^ width) :
    choice? width n draw = some i ↔
      i * 2 ^ width ≤ draw * n ∧ draw * n < i * 2 ^ width + n * share width n := by
  obtain ⟨hfits, -⟩ := mul_share_bounds hpos hlt
  have hzone : 0 < n * share width n := Nat.mul_pos hpos (Nat.two_pow_pos _)
  have hsplit := Nat.div_add_mod' (draw * n) (2 ^ width)
  rw [choice?, zone_eq, Nat.one_shiftLeft, Nat.shiftRight_eq_div_pow, Option.ite_none_right_eq_some,
    Option.some_inj]
  constructor
  · rintro ⟨hle, rfl⟩
    omega
  · rintro ⟨hlow, hhigh⟩
    have hchoice : draw * n / 2 ^ width = i := by
      refine Nat.div_eq_of_lt_le hlow ?_
      rw [Nat.succ_mul]
      omega
    refine ⟨?_, hchoice⟩
    rw [hchoice] at hsplit
    omega

/-- The first draw whose product reaches a number of whole words. -/
def firstDraw (width n i : Nat) : Nat :=
  (i * 2 ^ width + n - 1) / n

/-- The draws from the first one on are those whose product reaches that many whole words. -/
lemma firstDraw_le_iff (hpos : 0 < n) : firstDraw width n i ≤ draw ↔ i * 2 ^ width ≤ draw * n := by
  rw [firstDraw, Nat.div_le_iff_le_mul_add_pred hpos, Nat.mul_comm draw n]
  omega

/-- The draws that make a choice. -/
def draws (width n i : Nat) : Finset Nat :=
  (Finset.range (2 ^ width)).filter fun draw => choice? width n draw = some i

/-- The draws that make a choice stand in a row. -/
lemma draws_eq_Ico (hlt : n < 2 ^ width) (hi : i < n) :
    draws width n i = Finset.Ico (firstDraw width n i) (firstDraw width n i + share width n) := by
  have hpos : 0 < n := Nat.zero_lt_of_lt hi
  obtain ⟨hfits, -⟩ := mul_share_bounds hpos hlt
  ext draw
  rw [draws, Finset.mem_filter, Finset.mem_range, choice?_eq_some_iff hpos hlt, Finset.mem_Ico,
    firstDraw_le_iff hpos]
  -- a draw beyond the row is one of the row and as many as the row is long
  have hbeyond : firstDraw width n i + share width n ≤ draw ↔
      i * 2 ^ width + n * share width n ≤ draw * n := by
    constructor
    · intro hle
      obtain ⟨before, rfl⟩ := Nat.exists_eq_add_of_le' (Nat.le_of_add_left_le hle)
      have hbefore := (firstDraw_le_iff hpos).1 (Nat.le_of_add_le_add_right hle)
      rw [Nat.add_mul, Nat.mul_comm (share width n) n]
      omega
    · intro hle
      have hlong : share width n ≤ draw := by
        refine Nat.le_of_mul_le_mul_left ?_ hpos
        rw [Nat.mul_comm n draw]
        omega
      obtain ⟨before, rfl⟩ := Nat.exists_eq_add_of_le' hlong
      rw [Nat.add_mul, Nat.mul_comm (share width n) n] at hle
      exact Nat.add_le_add_right ((firstDraw_le_iff hpos).2 (by omega)) _
  constructor
  · rintro ⟨-, hlow, hhigh⟩
    exact ⟨hlow, Nat.lt_of_not_le fun hle => absurd (hbeyond.1 hle) (by omega)⟩
  · rintro ⟨hlow, hhigh⟩
    have hproduct : draw * n < i * 2 ^ width + n * share width n :=
      Nat.lt_of_not_le fun hle => absurd (hbeyond.2 hle) (by omega)
    refine ⟨?_, hlow, hproduct⟩
    refine Nat.lt_of_mul_lt_mul_left (a := n) ?_
    calc n * draw = draw * n := Nat.mul_comm _ _
      _ < (i + 1) * 2 ^ width := by rw [Nat.succ_mul]; omega
      _ ≤ n * 2 ^ width := Nat.mul_le_mul_right _ hi

/-- **Uniformity.**  Each choice has the same number of draws. -/
theorem card_draws (hlt : n < 2 ^ width) (hi : i < n) : (draws width n i).card = share width n := by
  rw [draws_eq_Ico hlt hi, Nat.card_Ico, Nat.add_sub_cancel_left]

/-- The draws that count. -/
def counting (width n : Nat) : Finset Nat :=
  (Finset.range (2 ^ width)).filter fun draw => (choice? width n draw).isSome

/-- The draws that count are those of the choices. -/
lemma card_counting (hpos : 0 < n) (hlt : n < 2 ^ width) :
    (counting width n).card = n * share width n := by
  have hchoices : ∀ draw ∈ counting width n, (choice? width n draw).getD 0 ∈ Finset.range n := by
    intro draw hdraw
    obtain ⟨hrange, hsome⟩ := Finset.mem_filter.1 hdraw
    obtain ⟨i, hi⟩ := Option.isSome_iff_exists.1 hsome
    rw [hi, Option.getD_some, Finset.mem_range]
    exact lt_of_choice? (Nat.one_shiftLeft width ▸ Finset.mem_range.1 hrange) hpos hi
  have hfiber : ∀ i ∈ Finset.range n,
      ((counting width n).filter fun draw => (choice? width n draw).getD 0 = i).card =
        share width n := by
    intro i hi
    rw [← card_draws hlt (Finset.mem_range.1 hi), draws, counting, Finset.filter_filter]
    refine congrArg Finset.card (Finset.filter_congr fun draw _ => ?_)
    cases choice? width n draw <;> simp
  rw [Finset.card_eq_sum_card_fiberwise hchoices, Finset.sum_const_nat hfiber, Finset.card_range]

end PieceReplication.Uniform
