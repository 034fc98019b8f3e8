import Mathlib.Logic.Relation
import PieceReplication.Proofs.Indexing.Refinement

/-!
# Indexing after a fault

A run of the index phase that a fault ends leaves the deals in the inventory that it has folded, but
moves the cursor only past whole epochs.  So the next run folds a part of them again: all in all a
block of the sequence of deals is folded twice in a row (`Repeats`).  Folding a block twice leaves
the order of the keys as folding it once does, for every capacity, and if all pieces fit into the
inventory it leaves the same inventory.  Hence any number of faulted runs and a faultless one lead
where the faultless one alone leads.
-/

namespace PieceReplication.Indexing

open BoundedMap Relation

variable {pieces : BoundedMap Piece} {found again : List FoundDeal} {piece : Cid}

/-! ## Folding a block twice -/

/-- Whether a sequence repeats a block of another one at once. -/
def Repeats (found again : List FoundDeal) : Prop :=
  ∃ before block after, found = before ++ (block ++ after) ∧
    again = before ++ (block ++ (block ++ after))

/-- A repeated block makes no difference to the distinct pieces. -/
lemma Repeats.dedup_eq (hrepeats : Repeats found again) (keys : List Cid) :
    (keys ++ again.map FoundDeal.piece).dedup = (keys ++ found.map FoundDeal.piece).dedup := by
  obtain ⟨before, block, after, rfl, rfl⟩ := hrepeats
  simp only [List.map_append, ← List.append_assoc keys]
  exact dedup_append_of_subset (List.subset_append_left _ _)

/-- A repeated block makes no difference to the order of the keys. -/
lemma Repeats.keys_fold_eq (hrepeats : Repeats found again) :
    (fold pieces again).keys = (fold pieces found).keys := by
  rw [keys_fold, keys_fold, lastDistinct, hrepeats.dedup_eq, lastDistinct]

/-- A sequence fits with a repeated block if it does without. -/
lemma Repeats.fits (hrepeats : Repeats found again) (hfits : Fits pieces found) :
    Fits pieces again := by
  rw [Fits, hrepeats.dedup_eq]
  exact hfits

/-- A repetition stays one if only some of the deals are looked at. -/
lemma Repeats.filter (hrepeats : Repeats found again) (p : FoundDeal → Bool) :
    Repeats (found.filter p) (again.filter p) := by
  obtain ⟨before, block, after, rfl, rfl⟩ := hrepeats
  exact ⟨before.filter p, block.filter p, after.filter p, by simp only [List.filter_append],
    by simp only [List.filter_append]⟩

/-- A repeated block of deals adds no records of its own. -/
lemma Repeats.newRecords_eq (hrepeats : Repeats found again) (old : List DealRecord) :
    newRecords old again = newRecords old found := by
  obtain ⟨before, block, after, rfl, rfl⟩ := hrepeats
  have hblock : ∀ old, newRecords old (block ++ (block ++ after)) =
      newRecords old (block ++ after) := by
    intro old
    have hnone : newRecords (old ++ newRecords old block) block = [] :=
      newRecords_eq_nil fun new hnew => any_append_newRecords old hnew
    rw [newRecords_append, newRecords_append _ block after, hnone, List.nil_append,
      List.append_nil, newRecords_append old]
  rw [newRecords_append old before, hblock, newRecords_append old before]

/-- If all pieces fit, a repeated block makes no difference to the inventory. -/
lemma Repeats.fold_eq (hrepeats : Repeats found again) (hfits : Fits pieces found) :
    fold pieces again = fold pieces found := by
  refine ext_of_find? (capacity_fold.trans capacity_fold.symm) hrepeats.keys_fold_eq fun piece => ?_
  refine find?_eq_of_records hrepeats.keys_fold_eq ?_
  rw [records_fold (hrepeats.fits hfits), records_fold hfits,
    (hrepeats.filter _).newRecords_eq]

/-- Any number of repetitions makes no difference to the order of the keys. -/
lemma keys_fold_eq_of_repeats (hrepeats : ReflTransGen Repeats found again) :
    (fold pieces again).keys = (fold pieces found).keys := by
  induction hrepeats with
  | refl => rfl
  | tail _ hlast ih => exact hlast.keys_fold_eq.trans ih

/-- If all pieces fit, any number of repetitions makes no difference to the inventory. -/
lemma fold_eq_of_repeats (hrepeats : ReflTransGen Repeats found again)
    (hfits : Fits pieces found) : Fits pieces again ∧ fold pieces again = fold pieces found := by
  induction hrepeats with
  | refl => exact ⟨hfits, rfl⟩
  | tail _ hlast ih => exact ⟨hlast.fits ih.1, (hlast.fold_eq ih.1).trans ih.2⟩

/-! ## Runs that a fault ends -/

variable {setup : Setup} {node : (call : Call) → call.Answer} {w w' w₁ w₂ : Worker}

/-- The deals that are to be replicated of the epochs from a cursor up to the head. -/
def pendingDeals (setup : Setup) (node : (call : Call) → call.Answer) (cursor : Epoch) :
    List FoundDeal :=
  foundDeals (fun call => some (node call)) setup.miner (node .clientDeals) cursor
    (node .chainHead).epoch

/-- Whether some run of the index phase that a failed call ends leads from one worker to another. -/
def FaultedRun (setup : Setup) (node : (call : Call) → call.Answer) (w w' : Worker) : Prop :=
  ∃ (σ : Type) (surroundings : Surroundings σ) (state : σ) (h : History) (error : PhaseError),
    surroundings.AnswersOrFailsBy node ∧
      (runFrom setup surroundings false state w h).halt = .done (.error error, w')

/-- A run that a fault ends changes nothing, or it indexes a part of the range. -/
lemma FaultedRun.cases (hfaulted : FaultedRun setup node w w') :
    w' = w ∨ PartlyIndexed (fun call => some (node call)) setup.miner (node .clientDeals)
      (w.cursor.stepsTo (node .chainHead).epoch) w w' := by
  obtain ⟨σ, surroundings, state, h, error, hnode, hdone⟩ := hfaulted
  have hsupplies : surroundings.Supplies false (reading (fun call => some (node call)) true) := by
    refine supplies_reading fun state call reply state' hreply => ?_
    rcases hnode state call reply state' hreply with heq | hfailure
    · exact .inl ⟨node call, heq, rfl⟩
    · exact .inr ⟨hfailure, rfl⟩
  have hmeets := meets_run_reading (fun call => some (node call)) true setup w h
  obtain ⟨-, hsame | ⟨head, clientDeals, hhead, hclientDeals, hpartly⟩⟩ :=
    Program.Meets.post_of_execute hmeets hsupplies hdone
  · exact .inl hsame
  · cases hhead
    cases hclientDeals
    exact .inr hpartly

/-- How a worker stands that has to resume: some deals are folded in, and these followed by those of
the range that is left are the deals of the whole range up to repetitions. -/
structure Resumes (setup : Setup) (node : (call : Call) → call.Answer) (w w₁ : Worker)
    (folded : List FoundDeal) : Prop where
  eq_moved : w₁ = moved w folded w₁.cursor
  repeats : ReflTransGen Repeats (pendingDeals setup node w.cursor)
    (folded ++ pendingDeals setup node w₁.cursor)
  cursor_eq : w₁.cursor + Int64.ofNat (w₁.cursor.stepsTo (node .chainHead).epoch) =
    w.cursor + Int64.ofNat (w.cursor.stepsTo (node .chainHead).epoch)

/-- A worker that has to resume, and indexes a part of the range that is left, has to resume. -/
lemma Resumes.of_partlyIndexed {folded : List FoundDeal} (hresumes : Resumes setup node w w₁ folded)
    (hpartly : PartlyIndexed (fun call => some (node call)) setup.miner (node .clientDeals)
      (w₁.cursor.stepsTo (node .chainHead).epoch) w₁ w₂) :
    ∃ folded, Resumes setup node w w₂ folded := by
  obtain ⟨done, part, hdone, ⟨rest, hrest⟩, rfl⟩ := hpartly
  set through := dealsFrom (fun call => some (node call)) setup.miner (node .clientDeals)
    w₁.cursor done
  rw [← Epoch.stepsTo_add_ofNat hdone] at hrest
  have hleft : pendingDeals setup node (w₁.cursor + Int64.ofNat done) = part ++ rest := hrest.symm
  have hpending : pendingDeals setup node w₁.cursor = through ++ (part ++ rest) :=
    (foundDeals_eq_append hdone).trans (congrArg _ hleft)
  refine ⟨folded ++ (through ++ part), ?_, ?_, ?_⟩
  · rw [hresumes.eq_moved, moved_moved]
    rfl
  · -- the deals of the part are folded again, right after they were
    refine hresumes.repeats.tail ⟨folded ++ through, part, rest, ?_, ?_⟩
    · rw [hpending, List.append_assoc]
    · change _ ++ pendingDeals setup node (w₁.cursor + Int64.ofNat done) = _
      rw [hleft]
      simp only [List.append_assoc]
  · change w₁.cursor + Int64.ofNat done +
      Int64.ofNat ((w₁.cursor + Int64.ofNat done).stepsTo (node .chainHead).epoch) = _
    rw [← hresumes.cursor_eq, Epoch.stepsTo_add_ofNat hdone, Int64.add_assoc, ← Int64.ofNat_add,
      Nat.add_sub_cancel' hdone]

/-- After any number of runs that faults end, the worker has to resume. -/
lemma exists_resumes (hfaulted : ReflTransGen (FaultedRun setup node) w w₁) :
    ∃ folded, Resumes setup node w w₁ folded := by
  induction hfaulted with
  | refl => exact ⟨[], rfl, .refl, rfl⟩
  | tail _ hlast ih =>
    obtain ⟨folded, hresumes⟩ := ih
    rcases hlast.cases with rfl | hpartly
    · exact ⟨folded, hresumes⟩
    · exact hresumes.of_partlyIndexed hpartly

/-- **Indexing resumes after faults.**  Let the answers of the node be a function of the call, and
let any number of runs of the index phase, each ended by a call that failed, lead from a worker to
another one.  Without further failures a run from either worker ends well.  The two runs lead to the
same cursor and to the same keys of the inventory in the same order.  If all pieces of the range fit
into the first inventory, they lead to the same worker. -/
theorem resumes_after_faults (hfaulted : ReflTransGen (FaultedRun setup node) w w₁) {σ : Type}
    {surroundings : Surroundings σ} (hnode : surroundings.AnswersBy fun call => .ok (node call))
    (hreplies : surroundings.Replies) (state state' : σ) (h h' : History) :
    ∃ direct resumed,
      (runFrom setup surroundings false state w h).halt = .done (.ok (), direct) ∧
      (runFrom setup surroundings false state' w₁ h').halt = .done (.ok (), resumed) ∧
      resumed.cursor = direct.cursor ∧ resumed.pieces.keys = direct.pieces.keys ∧
      (Fits w.pieces (pendingDeals setup node w.cursor) → resumed = direct) := by
  obtain ⟨direct, hdirect, hindexed⟩ := exists_runFrom_ok hnode hreplies setup state w h
  obtain ⟨resumed, hresumed, hindexed₁⟩ := exists_runFrom_ok hnode hreplies setup state' w₁ h'
  obtain ⟨folded, hresumes⟩ := exists_resumes hfaulted
  have hmoved :
      resumed = moved w (folded ++ pendingDeals setup node w₁.cursor) direct.cursor := by
    rw [Indexed, hresumes.cursor_eq] at hindexed₁
    rw [hindexed₁, hresumes.eq_moved, moved_moved, hindexed]
    rfl
  refine ⟨direct, resumed, hdirect, hresumed, ?_, ?_, fun hfits => ?_⟩
  · rw [hmoved]
    rfl
  · rw [hmoved, hindexed]
    exact keys_fold_eq_of_repeats hresumes.repeats
  · have hfold := (fold_eq_of_repeats hresumes.repeats hfits).2
    rw [hmoved, hindexed, moved, moved, foldInto, foldInto, hfold]
    rfl

/-- The worker that a run leaves if it was given up. -/
def givenUp? {σ : Type} (progress : Progress σ (Except PhaseError Unit × Worker)) : Option Worker :=
  match progress.halt with
  | .done (.error _, w) => some w
  | _ => none

/-- In a run over the sample chain that fails at its seventh call, one of two deals is recorded. -/
lemma exists_faultedRun_sample :
    ∃ w₁, FaultedRun Sample.setup (Sample.answer []) (.fresh Sample.setup.config) w₁ ∧
      (records w₁.pieces ⟨"piece"⟩).map DealRecord.dealId = [7] := by
  have hpart : (givenUp? (runFrom Sample.setup (.failing (Sample.answer [])) false 6
      (.fresh Sample.setup.config) [])).map
        (fun w₁ => (records w₁.pieces ⟨"piece"⟩).map DealRecord.dealId) = some [7] := by
    decide +kernel
  obtain ⟨w₁, hgiven, hpart⟩ := Option.map_eq_some_iff.1 hpart
  unfold givenUp? at hgiven
  split at hgiven
  · next error left hhalt =>
    obtain rfl := Option.some.inj hgiven
    exact ⟨left, ⟨Nat, _, _, _, error, Surroundings.answersOrFailsBy_failing _, hhalt⟩, hpart⟩
  · cases hgiven

/-- A run over the sample chain and one that resumes after the failure lead to the same worker. -/
theorem resumes_after_faults_sample :
    ∃ w₁ final, FaultedRun Sample.setup (Sample.answer []) (.fresh Sample.setup.config) w₁ ∧
      (records w₁.pieces ⟨"piece"⟩).map DealRecord.dealId = [7] ∧
      (runFrom Sample.setup (.answering (Sample.answer [])) false () (.fresh Sample.setup.config)
        []).halt = .done (.ok (), final) ∧
      (runFrom Sample.setup (.answering (Sample.answer [])) false () w₁ []).halt =
        .done (.ok (), final) := by
  obtain ⟨w₁, hfaulted, hpart⟩ := exists_faultedRun_sample
  obtain ⟨direct, resumed, hdirect, hresumed, -, -, hsame⟩ :=
    resumes_after_faults (.single hfaulted)
      (Surroundings.answersBy_answering (Sample.answer [])) (Surroundings.replies_answering _)
      () () [] []
  obtain rfl := hsame (by decide +kernel)
  exact ⟨w₁, resumed, hfaulted, hpart, hdirect, hresumed⟩

end PieceReplication.Indexing
