import Mathlib.Tactic.Common
import PieceReplication.Node.Sync

/-!
# The gaps of syncs

The gap of a sync is the difference of two signed 64-bit numbers, which need not be one itself.  As
an integer (`ActiveSync.distance`) it always exists.  The question whether the node is catching up
goes through the syncs in order.  The first one whose gap is positive or does not fit decides it,
since up to there nothing is found, and if there is none, the node is up to date.  So an overflow is
met exactly if no positive gap stands before it, and otherwise the answer is that of the integers.

Epochs of a chain are not negative, and then each gap fits: there is an answer in any case, and it
is the same for every order of the syncs.
-/

namespace PieceReplication

namespace ActiveSync

variable {sync : ActiveSync} {syncs syncs' earlier later : List ActiveSync} {answer : Bool}

/-- The epoch that a sync leads from: zero if its base is missing. -/
def start (sync : ActiveSync) : Epoch :=
  sync.base.elim 0 Tipset.epoch

/-- The gap of a sync as an integer: none if its target is missing. -/
def distance (sync : ActiveSync) : Int :=
  sync.target.elim 0 fun target => target.epoch.toInt - sync.start.toInt

/-- The gap of a sync is in the range of the epochs. -/
def Fits (sync : ActiveSync) : Prop :=
  Int64.minValue.toInt ≤ sync.distance ∧ sync.distance ≤ Int64.maxValue.toInt

/-- The target of a sync is above its base. -/
def IsAhead (sync : ActiveSync) : Prop :=
  ∃ target, sync.target = some target ∧ sync.start < target.epoch

/-- The epochs of a sync are not negative. -/
structure IsNonnegative (sync : ActiveSync) : Prop where
  base : ∀ tipset, sync.base = some tipset → 0 ≤ tipset.epoch
  target : ∀ tipset, sync.target = some tipset → 0 ≤ tipset.epoch

/-! ## A single sync -/

/-- Without a target there is no distance. -/
lemma distance_of_eq_none (htarget : sync.target = none) : sync.distance = 0 := by
  rw [distance, htarget, Option.elim_none]

/-- The distance to a target. -/
lemma distance_of_eq_some {target : Tipset} (htarget : sync.target = some target) :
    sync.distance = target.epoch.toInt - sync.start.toInt := by
  rw [distance, htarget, Option.elim_some]

/-- The distance is positive exactly if the sync leads upwards. -/
lemma distance_pos_iff : 0 < sync.distance ↔ sync.IsAhead := by
  unfold IsAhead
  cases htarget : sync.target with
  | none => simp [distance_of_eq_none htarget]
  | some target => simp [distance_of_eq_some htarget, Int64.lt_iff_toInt_lt]

/-- The gap that is computed is the distance, if that is the number of an epoch. -/
lemma heightGap_eq :
    sync.heightGap = (Epoch.ofInt? sync.distance).elim (.error .subtract) .ok := by
  have hgap : ∀ target base : Epoch, target.gap base =
      (Epoch.ofInt? (target.toInt - base.toInt)).elim (.error .subtract) .ok := by
    intro target base
    rw [Epoch.gap]
    cases Epoch.ofInt? (target.toInt - base.toInt) <;> rfl
  unfold heightGap
  cases htarget : sync.target with
  | none =>
    rw [distance_of_eq_none htarget]
    rfl
  | some target =>
    rw [distance_of_eq_some htarget]
    exact hgap target.epoch sync.start

/-- A gap that fits is computed. -/
lemma exists_heightGap (hfits : sync.Fits) :
    ∃ gap, sync.heightGap = .ok gap ∧ gap.toInt = sync.distance := by
  have hsome : Epoch.ofInt? sync.distance = some (Int64.ofInt sync.distance) := if_pos hfits
  refine ⟨Int64.ofInt sync.distance, ?_, ?_⟩
  · rw [heightGap_eq, hsome, Option.elim_some]
  · exact Int64.toInt_ofInt_of_le hfits.1 (Int.lt_add_one_of_le hfits.2)

/-- The computation of a gap that does not fit overflows. -/
lemma heightGap_of_not_fits (hfits : ¬ sync.Fits) : sync.heightGap = .error .subtract := by
  have hnone : Epoch.ofInt? sync.distance = none := if_neg hfits
  rw [heightGap_eq, hnone, Option.elim_none]

/-- The epoch that a sync leads from is not negative if its epochs are not. -/
lemma IsNonnegative.zero_le_start (hnonneg : sync.IsNonnegative) : 0 ≤ sync.start := by
  unfold start
  cases hbase : sync.base with
  | none => exact Int64.le_refl 0
  | some base => exact hnonneg.base base hbase

/-- Epochs that are not negative have a gap that fits. -/
lemma IsNonnegative.fits (hnonneg : sync.IsNonnegative) : sync.Fits := by
  have hstart : 0 ≤ sync.start.toInt := Int64.le_iff_toInt_le.1 hnonneg.zero_le_start
  have hbound := sync.start.toInt_le
  have hmin : Int64.minValue.toInt ≤ -Int64.maxValue.toInt := by decide
  unfold Fits
  cases htarget : sync.target with
  | none =>
    rw [distance_of_eq_none htarget]
    exact ⟨by decide, by decide⟩
  | some target =>
    have htargetNonneg : 0 ≤ target.epoch.toInt :=
      Int64.le_iff_toInt_le.1 (hnonneg.target target htarget)
    have htargetBound := target.epoch.toInt_le
    rw [distance_of_eq_some htarget]
    omega

/-! ## The search -/

/-- The search goes on after a sync whose gap fits and is not positive. -/
lemma isSomeAhead_cons_of_le (hfits : sync.Fits) (hle : sync.distance ≤ 0) :
    isSomeAhead (sync :: later) = isSomeAhead later := by
  obtain ⟨gap, hgap, hvalue⟩ := exists_heightGap hfits
  have hnotPos : ¬ 0 < gap := by
    rw [Int64.lt_iff_toInt_lt, hvalue]
    exact Int.not_lt.2 hle
  rw [isSomeAhead, hgap]
  exact if_neg hnotPos

/-- The search ends at a sync whose gap fits and is positive. -/
lemma isSomeAhead_cons_of_pos (hfits : sync.Fits) (hpos : 0 < sync.distance) :
    isSomeAhead (sync :: later) = .ok true := by
  obtain ⟨gap, hgap, hvalue⟩ := exists_heightGap hfits
  have hgapPos : 0 < gap := by
    rw [Int64.lt_iff_toInt_lt, hvalue]
    exact hpos
  rw [isSomeAhead, hgap]
  exact if_pos hgapPos

/-- The search breaks off at a sync whose gap does not fit. -/
lemma isSomeAhead_cons_of_not_fits (hfits : ¬ sync.Fits) :
    isSomeAhead (sync :: later) = .error .subtract := by
  rw [isSomeAhead, heightGap_of_not_fits hfits]
  rfl

/-- The search breaks off exactly if some gap does not fit and none before it is positive. -/
lemma isSomeAhead_eq_error_iff :
    (∃ cause, isSomeAhead syncs = .error cause) ↔
      ∃ earlier sync later, syncs = earlier ++ sync :: later ∧ ¬ sync.Fits ∧
        ∀ other ∈ earlier, ¬ 0 < other.distance := by
  induction syncs with
  | nil =>
    constructor
    · rintro ⟨cause, ⟨⟩⟩
    · rintro ⟨_ | ⟨_, _⟩, _, _, ⟨⟩, _⟩
  | cons first rest ih =>
    by_cases hfits : first.Fits
    · by_cases hpos : 0 < first.distance
      · rw [isSomeAhead_cons_of_pos hfits hpos]
        constructor
        · rintro ⟨cause, ⟨⟩⟩
        · rintro ⟨_ | ⟨_, _⟩, _, _, ⟨⟩, hnot, hnone⟩
          · exact absurd hfits hnot
          · exact absurd hpos (hnone _ List.mem_cons_self)
      · rw [isSomeAhead_cons_of_le hfits (Int.not_lt.1 hpos), ih]
        constructor
        · rintro ⟨earlier, sync, later, rfl, hnot, hnone⟩
          exact ⟨first :: earlier, sync, later, rfl, hnot, List.forall_mem_cons.2 ⟨hpos, hnone⟩⟩
        · rintro ⟨_ | ⟨_, earlier⟩, sync, later, ⟨⟩, hnot, hnone⟩
          · exact absurd hfits hnot
          · exact ⟨earlier, sync, later, rfl, hnot, (List.forall_mem_cons.1 hnone).2⟩
    · rw [isSomeAhead_cons_of_not_fits hfits]
      constructor
      · intro
        exact ⟨[], first, rest, rfl, hfits, fun _ hmem => absurd hmem List.not_mem_nil⟩
      · exact fun _ => ⟨_, rfl⟩

/-- A search that does not break off tells whether some gap is positive. -/
lemma isSomeAhead_eq_ok (hok : isSomeAhead syncs = .ok answer) :
    answer = true ↔ ∃ sync ∈ syncs, 0 < sync.distance := by
  induction syncs with
  | nil =>
    cases hok
    simp
  | cons first rest ih =>
    by_cases hfits : first.Fits
    · by_cases hpos : 0 < first.distance
      · rw [isSomeAhead_cons_of_pos hfits hpos] at hok
        cases hok
        simp [hpos]
      · rw [isSomeAhead_cons_of_le hfits (Int.not_lt.1 hpos)] at hok
        rw [ih hok]
        simp [hpos]
    · rw [isSomeAhead_cons_of_not_fits hfits] at hok
      cases hok

/-- If all gaps fit, the search finds an answer. -/
lemma exists_isSomeAhead (hfits : ∀ sync ∈ syncs, sync.Fits) :
    ∃ answer, isSomeAhead syncs = .ok answer := by
  cases hsearch : isSomeAhead syncs with
  | ok answer => exact ⟨answer, rfl⟩
  | error cause =>
    obtain ⟨earlier, sync, later, rfl, hnot, -⟩ := isSomeAhead_eq_error_iff.1 ⟨cause, hsearch⟩
    exact absurd (hfits sync (List.mem_append_right _ List.mem_cons_self)) hnot

/-- If all gaps fit, the answer does not depend on the order of the syncs. -/
lemma isSomeAhead_eq_of_perm (hfits : ∀ sync ∈ syncs, sync.Fits) (hperm : syncs'.Perm syncs) :
    isSomeAhead syncs' = isSomeAhead syncs := by
  obtain ⟨answer, hanswer⟩ := exists_isSomeAhead hfits
  obtain ⟨answer', hanswer'⟩ :=
    exists_isSomeAhead fun sync hmem => hfits sync (hperm.mem_iff.1 hmem)
  have hiff : answer' = true ↔ answer = true := by
    rw [isSomeAhead_eq_ok hanswer, isSomeAhead_eq_ok hanswer']
    exact exists_congr fun sync => and_congr_left fun _ => hperm.mem_iff
  rw [hanswer, hanswer', Bool.eq_iff_iff.2 hiff]

end ActiveSync

namespace SyncStatus

variable {status : SyncStatus}

/-- The epochs of all syncs are not negative. -/
def IsNonnegative (status : SyncStatus) : Prop :=
  ∀ sync ∈ status.syncs, sync.IsNonnegative

/-- The node is found to be up to date exactly if all gaps fit and no sync leads upwards. -/
lemma isCatchingUp_eq_false_iff :
    status.isCatchingUp = .ok false ↔ ∀ sync ∈ status.syncs, sync.Fits ∧ ¬ sync.IsAhead := by
  unfold isCatchingUp
  generalize status.syncs = syncs
  induction syncs with
  | nil =>
    simp only [List.not_mem_nil, false_implies, implies_true, iff_true]
    rfl
  | cons first rest ih =>
    rw [List.forall_mem_cons, ← ih, ← ActiveSync.distance_pos_iff]
    by_cases hfits : first.Fits
    · by_cases hpos : 0 < first.distance
      · simp [ActiveSync.isSomeAhead_cons_of_pos hfits hpos, hpos]
      · simp [ActiveSync.isSomeAhead_cons_of_le hfits (Int.not_lt.1 hpos), hpos, hfits]
    · simp [ActiveSync.isSomeAhead_cons_of_not_fits hfits, hfits]

end SyncStatus

end PieceReplication
