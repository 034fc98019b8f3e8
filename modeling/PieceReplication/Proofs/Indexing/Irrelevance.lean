import PieceReplication.Proofs.Indexing.Refinement
import PieceReplication.Proofs.Run.Outcome

/-!
# Irrelevant content of the chain

Anyone can put messages on the chain, and a node may show any tipset for a height without one.
Neither makes a difference to the index.  Two nodes are compared (`Alike`): for a null round they
may show different tipsets, and the second node may have more messages in the tipsets of an epoch,
each of them irrelevant (`Irrelevant`), at any positions (`Padded`).  Everything else they answer or
fail alike.

An irrelevant message is reported, at most, after calls that find nothing, so its indexing leaves
the worker as it is and goes on.  Hence the walks over two lists of messages of which one is the
other one padded agree, and so do the walks over the epochs.  That the index phase neither leaves a
choice to its surroundings nor breaks off makes it end against both nodes
(`run_ignores_irrelevant`).
-/

namespace PieceReplication.Indexing

open Activity

/-- Whether a message has nothing to be indexed, in a state of the chain as the node shows it. -/
inductive Irrelevant (node : (call : Call) → Reply call) (state : TipsetKey)
    (message : Message) : Prop where
  /-- It does not prove a sector. -/
  | otherMethod (hmethod : message.method ≠ ProveCommit.methodNumber)
  | undecodable (hparams : ProveCommit.decode? message.params = none)
  /-- The sector that it proves is unknown, before its proof and after it. -/
  | unknownSector {params : ProveCommit}
    (hparams : ProveCommit.decode? message.params = some params)
    (hpreCommit : node (.preCommit message.receiver params.sector state) = .ok none)
    (hproven : node (.provenSector message.receiver params.sector state) = .ok none)

/-- Whether the second list is the first one with more elements, all of them extra, inserted at any
positions. -/
inductive Padded {α : Type} (extra : α → Prop) : List α → List α → Prop where
  | nil : Padded extra [] []
  | keep (a : α) {l l' : List α} (h : Padded extra l l') : Padded extra (a :: l) (a :: l')
  | insert {a : α} (ha : extra a) {l l' : List α} (h : Padded extra l l') :
    Padded extra l (a :: l')

/-- Whether a call reads content of the chain of which some is irrelevant. -/
def readsContent : Call → Bool
  | .tipsetAt _ => true
  | .parentMessages _ => true
  | _ => false

/-- Whether two nodes answer and fail alike, but for the irrelevant content of the chain. -/
structure Alike (node node' : (call : Call) → Reply call) : Prop where
  /-- For a height they show the same tipset, or any two tipsets of other epochs. -/
  tipsets : ∀ height, Reply.Related
    (fun tipset tipset' : Tipset =>
      tipset' = tipset ∨ tipset.epoch ≠ height ∧ tipset'.epoch ≠ height)
    (node (.tipsetAt height)) (node' (.tipsetAt height))
  /-- In the tipset of an epoch the second node may have more messages, all irrelevant. -/
  messages : ∀ height tipset, node (.tipsetAt height) = .ok tipset → tipset.epoch = height →
    Reply.Related (Padded (Irrelevant node tipset.parents))
      (node (.parentMessages tipset.firstBlock)) (node' (.parentMessages tipset.firstBlock))
  others : ∀ call, readsContent call = false → node' call = node call

variable {node node' : (call : Call) → Reply call} {isStopping : Bool} {setup : Setup}
  {clientDeals : List ClientDeal} {site : Site}

/-! ## The walk over the messages -/

namespace Alike

/-- The fold of a deal into the inventory agrees. -/
lemma agree_addRecord (provider : Address) (height : Epoch) (record : DealRecord) :
    Agree node node' isStopping (addRecord provider height record)
      (addRecord provider height record) := by
  refine Agree.get.bind fun worker => ?_
  split
  · refine (Agree.update _).bind fun _ => ?_
    split
    · exact .log _
    · exact .pure _
  · exact .update _

/-- The indexing of a deal agrees. -/
lemma agree_indexDeal (halike : Alike node node') (provider : Address) (dealId : DealId) :
    Agree node node' isStopping (indexDeal setup clientDeals site provider dealId)
      (indexDeal setup clientDeals site provider dealId) := by
  refine (Agree.chainRead (halike.others _ rfl)).bind fun deal => ?_
  split
  · exact .log _
  · exact agree_addRecord _ _ _

/-- The look-up of the deals of a sector agrees. -/
lemma agree_sectorDeals (halike : Alike node node') (miner : Address) (sector : SectorNumber)
    (state : TipsetKey) :
    Agree node node' isStopping (sectorDeals miner sector state)
      (sectorDeals miner sector state) := by
  refine (Agree.chainRead (halike.others _ rfl)).bind fun preCommit => ?_
  cases preCommit with
  | some preCommit => exact .pure _
  | none => exact (Agree.chainRead (halike.others _ rfl)).bind fun _ => .pure _

/-- The indexing of a message agrees. -/
lemma agree_indexMessage (halike : Alike node node') (message : Message) :
    Agree node node' isStopping (indexMessage setup clientDeals site message)
      (indexMessage setup clientDeals site message) := by
  rw [indexMessage]
  split
  · exact .log _
  · refine (halike.agree_sectorDeals _ _ _).bind fun dealIds => ?_
    cases dealIds with
    | none => exact .log _
    | some dealIds => exact .forM (halike.agree_indexDeal message.receiver) dealIds

/-- The look-up of the deals of an unknown sector finds none. -/
lemma outcome_sectorDeals_of_unknown {miner : Address} {sector : SectorNumber} {state : TipsetKey}
    (hpreCommit : node (.preCommit miner sector state) = .ok none)
    (hproven : node (.provenSector miner sector state) = .ok none) (w : Worker) :
    (sectorDeals miner sector state).outcome node isStopping w = some (.ok none, w) := by
  rw [sectorDeals, outcome_bind, outcome_chainRead, hpreCommit]
  change (chainRead .indexing (.provenSector miner sector state) >>= _).outcome node isStopping w =
    _
  rw [outcome_bind, outcome_chainRead, hproven]
  rfl

/-- The indexing of an irrelevant message, if it is not left out anyway, changes nothing. -/
lemma outcome_indexMessage_of_irrelevant {message : Message} (hprove : message.isProveCommit = true)
    (hirrelevant : Irrelevant node site.parents message) (w : Worker) :
    (indexMessage setup clientDeals site message).outcome node isStopping w = some (.ok (), w) := by
  cases hirrelevant with
  | otherMethod hmethod => exact absurd (beq_iff_eq.1 hprove) hmethod
  | undecodable hparams =>
    rw [indexMessage, hparams]
    rfl
  | unknownSector hparams hpreCommit hproven =>
    rw [indexMessage, hparams, outcome_bind, outcome_sectorDeals_of_unknown hpreCommit hproven]
    rfl

/-- The walks over some messages and over more of them agree, if the additional ones are
irrelevant. -/
lemma agree_forM_indexMessage (halike : Alike node node') {messages messages' : List Message}
    (hpadded : Padded (Irrelevant node site.parents) messages messages') :
    Agree node node' isStopping
      ((messages.filter Message.isProveCommit).forM (indexMessage setup clientDeals site))
      ((messages'.filter Message.isProveCommit).forM (indexMessage setup clientDeals site)) := by
  induction hpadded with
  | nil => exact .pure ()
  | keep message _ ih =>
    rw [List.filter_cons, List.filter_cons]
    split
    · exact (halike.agree_indexMessage message).bind fun _ => ih
    · exact ih
  | @insert message hirrelevant _ _ _ ih =>
    rw [List.filter_cons]
    split
    · next hprove =>
      have houtcome : ∀ w,
          (indexMessage setup clientDeals site message).outcome node' isStopping w =
          some (.ok (), w) := fun w =>
        (halike.agree_indexMessage message w).trans
          (outcome_indexMessage_of_irrelevant hprove hirrelevant w)
      exact Agree.of_outcome_eq houtcome ih
    · exact ih

/-! ## The walk over the epochs -/

/-- The indexing of the tipset of an epoch agrees. -/
lemma agree_indexTipset (halike : Alike node node') {height : Epoch} {tipset : Tipset}
    (htipset : node (.tipsetAt height) = .ok tipset) (hepoch : tipset.epoch = height) :
    Agree node node' isStopping (indexTipset setup clientDeals height tipset)
      (indexTipset setup clientDeals height tipset) := by
  refine Agree.chainRead_bind (halike.messages height tipset htipset hepoch) ?_
  exact fun messages messages' _ hpadded => halike.agree_forM_indexMessage hpadded

/-- The walk over the epochs agrees. -/
lemma agree_indexEpochs (halike : Alike node node') (count : Nat) :
    Agree node node' isStopping (indexEpochs setup clientDeals count)
      (indexEpochs setup clientDeals count) := by
  have hadvance : Agree node node' isStopping advance advance :=
    Agree.get.bind fun _ => (Agree.checked _).bind fun _ => Agree.update _
  induction count with
  | zero => exact .pure ()
  | succ count ih =>
    refine Agree.stopRequested.bind fun isStopping => ?_
    cases isStopping with
    | true => exact .pure ()
    | false =>
      refine Agree.get.bind fun worker => ?_
      refine Agree.chainRead_bind (halike.tipsets worker.cursor) fun tipset tipset' htipset h => ?_
      rcases h with rfl | ⟨hnull, hnull'⟩
      · split
        · next hepoch =>
          exact (halike.agree_indexTipset htipset hepoch).bind fun _ => hadvance.bind fun _ => ih
        · exact hadvance.bind fun _ => ih
      · rw [if_neg hnull, if_neg hnull']
        exact hadvance.bind fun _ => ih

/-- The index phase agrees. -/
lemma agree_run (halike : Alike node node') :
    Agree node node' isStopping (run setup) (run setup) := by
  refine (Agree.enter _).bind fun _ => (Agree.chainRead (halike.others _ rfl)).bind fun head => ?_
  refine (Agree.chainRead (halike.others _ rfl)).bind fun clientDeals => ?_
  exact Agree.get.bind fun worker => halike.agree_indexEpochs _

end Alike

/-! ## The end of the phase -/

/-- The steps of the indexing of an epoch leave nothing to choose, and the cursor where it is. -/
lemma epochInvariant_determined (cursor : Epoch) :
    EpochInvariant determined setup clientDeals (fun w _ => w.cursor = cursor)
      fun _ _ _ => True where
  read _ _ _ hw _ := ⟨trivial, fun _ => hw, fun _ => trivial⟩
  logged _ _ _ hw := ⟨trivial, hw⟩
  folded _ _ _ _ hw _ _ _ _ := ⟨trivial, hw⟩

/-- The walk over the epochs below another one leaves nothing to choose. -/
lemma meets_indexEpochs_determined {head : Epoch} (count : Nat) {w : Worker} {h : History}
    (hcount : count ≤ w.cursor.stepsTo head) :
    Meets determined (indexEpochs setup clientDeals count) w h (fun _ _ _ => True)
      fun _ _ _ => True := by
  induction count generalizing w h with
  | zero => trivial
  | succ count ih =>
    have hlt : w.cursor < head :=
      Epoch.stepsTo_pos_iff.1 (Nat.lt_of_lt_of_le (Nat.succ_pos count) hcount)
    -- the rest of the walk, once the tipset of the epoch is indexed
    have hnext : ∀ w' h', w'.cursor = w.cursor →
        Meets determined advance w' h' (fun _ w' h' => Meets determined
          (indexEpochs setup clientDeals count) w' h' (fun _ _ _ => True) fun _ _ _ => True)
          fun _ _ _ => True := by
      intro w' h' hcursor
      refine (meets_advance_of_lt (hcursor ▸ hlt)).2 ⟨trivial, ih ?_⟩
      rw [hcursor, Epoch.stepsTo_add_one hlt]
      exact Nat.le_sub_one_of_lt hcount
    simp only [indexEpochs, meets_bind, meets_stopRequested]
    refine fun isStopping _ => ⟨trivial, ?_⟩
    cases isStopping with
    | true => exact meets_pure.2 trivial
    | false =>
      simp only [Bool.false_eq_true, ↓reduceIte, meets_bind, meets_get]
      refine meets_chainRead.2 ⟨trivial, fun tipset _ => ?_, fun _ _ => trivial⟩
      split
      · simp only [meets_bind]
        exact ((epochInvariant_determined w.cursor).meets_indexTipset rfl _ tipset).mono
          (fun _ => hnext) fun _ _ _ => id
      · rw [meets_bind]
        exact hnext _ _ rfl

/-- The index phase leaves nothing to choose and does not break off. -/
lemma meets_run_determined (setup : Setup) (w : Worker) (h : History) :
    Meets determined (run setup) w h (fun _ _ _ => True) fun _ _ _ => True := by
  simp only [run, meets_bind, meets_enter]
  refine ⟨trivial, meets_chainRead.2 ⟨trivial, fun head _ => ?_, fun _ _ => trivial⟩⟩
  refine meets_chainRead.2 ⟨trivial, fun clientDeals _ => ?_, fun _ _ => trivial⟩
  exact meets_indexEpochs_determined _ (Nat.le_refl _)

/-- **Irrelevant content never changes the index.**  Against two nodes that answer and fail alike
but for the irrelevant content of the chain, the index phase ends with the same result and leaves
the worker in the same state, from whatever state it starts. -/
theorem run_ignores_irrelevant (halike : Alike node node') {σ σ' : Type}
    {surroundings : Surroundings σ} {surroundings' : Surroundings σ'}
    (hreplies : surroundings.Replies) (hnode : surroundings.AnswersBy node)
    (hreplies' : surroundings'.Replies) (hnode' : surroundings'.AnswersBy node')
    (setup : Setup) (isStopping : Bool) (state : σ) (state' : σ') (w : Worker) (h h' : History) :
    ∃ result w',
      (runFrom setup surroundings isStopping state w h).halt = .done (result, w') ∧
      (runFrom setup surroundings' isStopping state' w h').halt = .done (result, w') := by
  obtain ⟨⟨result, w'⟩, houtcome⟩ :=
    (meets_run_determined setup w h).exists_outcome node isStopping
  have houtcome' : (run setup).outcome node' isStopping w = some (result, w') :=
    (halike.agree_run w).trans houtcome
  exact ⟨result, w', Program.halt_of_outcome hreplies hnode houtcome state h,
    Program.halt_of_outcome hreplies' hnode' houtcome' state' h'⟩

/-! ### A node with irrelevant content -/

/-- The answers of a node whose chain has a null round at height 11.  A node of which more is asked
shows a later tipset for that height, where the other one shows an earlier one, and has three more
messages in each tipset: one of another method, one without parameters, and one that proves a sector
that is unknown. -/
def paddedAnswer (isPadded : Bool) : (call : Call) → call.Answer
  | .chainHead => ⟨⟨"block"⟩, [], 13, ⟨[]⟩⟩
  | .tipsetAt height =>
    ⟨⟨"block"⟩, [], if height = 11 then (if isPadded then 12 else 10) else height, ⟨[]⟩⟩
  | .parentMessages _ =>
    let message (method : UInt64) (params : Bytes) : Message :=
      ⟨⟨"message"⟩, ⟨"sender"⟩, ⟨"provider"⟩, 0, method, params⟩
    let proof := message ProveCommit.methodNumber [0x82, 0x01, 0x40]
    if isPadded then
      [message 0 [], message ProveCommit.methodNumber [], proof,
        message ProveCommit.methodNumber [0x82, 0x02, 0x40]]
    else
      [proof]
  | .preCommit _ sector _ =>
    if sector = 1 then some ⟨sector, ⟨"sealed"⟩, 0, [7, 8], 0, 0⟩ else none
  | call => Sample.answer [] call

/-- The two nodes are alike but for irrelevant content. -/
lemma alike_paddedAnswer :
    Alike (fun call => .ok (paddedAnswer false call)) fun call => .ok (paddedAnswer true call) where
  tipsets height := by
    refine .answered ?_
    by_cases hnull : height = 11
    · subst hnull
      exact .inr (by decide)
    · exact .inl (by simp only [paddedAnswer, if_neg hnull])
  messages _ _ _ _ := by
    have hunknown : ProveCommit.decode? [0x82, 0x02, 0x40] = some ⟨2, []⟩ := by decide
    refine .answered <| .insert (.otherMethod ?_) <| .insert (.undecodable ?_) <| .keep _ <|
      .insert (.unknownSector hunknown rfl rfl) .nil
    · decide
    · decide
  others call hcall := by
    cases call with
    | tipsetAt | parentMessages => cases hcall
    | _ => rfl

/-- From a fresh worker the two nodes lead to the same index, by runs of different lengths. -/
theorem run_ignores_irrelevant_padded :
    let run := fun isPadded =>
      runFrom Sample.crowdedSetup (.answering (paddedAnswer isPadded)) false
      () (Worker.fresh Sample.crowdedSetup.config) []
    (∃ result w', (run false).halt = .done (result, w') ∧ (run true).halt = .done (result, w')) ∧
      (run false).trace.length < (run true).trace.length := by
  refine ⟨?_, by decide +kernel⟩
  exact run_ignores_irrelevant alike_paddedAnswer (Surroundings.replies_answering _)
    (Surroundings.answersBy_answering _) (Surroundings.replies_answering _)
    (Surroundings.answersBy_answering _) Sample.crowdedSetup false () () _ [] []

end PieceReplication.Indexing
