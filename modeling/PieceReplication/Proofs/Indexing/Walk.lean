import PieceReplication.Proofs.Chain.Epochs
import PieceReplication.Proofs.Inventory.Lookup
import PieceReplication.Proofs.Run.Contract
import PieceReplication.Schedule.Indexing

/-!
# Invariants of the indexing of an epoch

The indexing of the tipset of an epoch is a walk over its messages, the sectors they prove and the
deals of these, made of three kinds of steps: reads of the chain, reports, and folds of a deal that
was just read into the inventory.  A statement that each of these steps keeps (`EpochInvariant`)
holds all through the walk.  After it the cursor moves on, which it can do since it is below the
head.
-/

namespace PieceReplication.Indexing

open History Activity BoundedMap

/-- Whether a call reads what the indexing of an epoch needs besides its tipset. -/
def readsEpoch : Call → Bool
  | .parentMessages _ => true
  | .preCommit _ _ _ => true
  | .provenSector _ _ _ => true
  | .marketDeal _ _ => true
  | _ => false

/-- A statement about the worker and the history is kept by each step of the indexing of an epoch,
and another one holds if a read fails. -/
structure EpochInvariant (c : Contract) (setup : Setup) (clientDeals : List ClientDeal)
    (inv : Worker → History → Prop) (given : PhaseError → Worker → History → Prop) : Prop where
  read : ∀ w h call, inv w h → readsEpoch call →
    c.guarantee h (.called .indexing call) ∧
      (∀ answer, inv w (.answered .indexing call (.ok answer) :: .called .indexing call :: h)) ∧
      ∀ failure, given (.chainQuery failure) w
        (.answered .indexing call (.error failure) :: .called .indexing call :: h)
  logged : ∀ w h event, inv w h → c.guarantee h (.logged event) ∧ inv w (.logged event :: h)
  /-- A deal that was just read and is not one of the local node is folded into the inventory: it is
  added to its piece if that is known, and else its piece is put in. -/
  folded : ∀ w h dealId deal, inv w h →
    (∃ state, lastReply? h = some ⟨.indexing, .marketDeal dealId state, .ok deal⟩) →
    isDealtLocally setup.miner clientDeals deal.proposal = false →
    ∀ pieces,
      deal.proposal.piece ∈ w.pieces.keys ∧
          pieces = w.pieces.modify deal.proposal.piece (·.add (.ofDeal dealId deal)) ∨
        deal.proposal.piece ∉ w.pieces.keys ∧
          pieces = w.pieces.insert deal.proposal.piece (.ofRecord (.ofDeal dealId deal)) →
      c.guarantee h (.became { w with pieces }) ∧
        inv { w with pieces } (.became { w with pieces } :: h)

namespace EpochInvariant

variable {c : Contract} {setup : Setup} {clientDeals : List ClientDeal}
  {inv : Worker → History → Prop} {given : PhaseError → Worker → History → Prop} {w : Worker}
  {h : History}

/-- A report keeps the invariant. -/
lemma meets_log (hinv : EpochInvariant c setup clientDeals inv given) (hw : inv w h)
    (event : LogEvent) : Meets c (log event) w h (fun _ => inv) given :=
  Activity.meets_log.2 (hinv.logged w h event hw)

/-- A read keeps the invariant. -/
lemma meets_chainRead (hinv : EpochInvariant c setup clientDeals inv given) (hw : inv w h)
    {call : Call} (hcall : readsEpoch call) {post : call.Answer → Worker → History → Prop}
    (hpost : ∀ answer,
      inv w (.answered .indexing call (.ok answer) :: .called .indexing call :: h) →
        post answer w (.answered .indexing call (.ok answer) :: .called .indexing call :: h)) :
    Meets c (chainRead .indexing call) w h post given := by
  obtain ⟨hcalled, hanswered, hfailed⟩ := hinv.read w h call hw hcall
  exact Activity.meets_chainRead.2
    ⟨hcalled, fun answer _ => hpost answer (hanswered answer), fun failure _ => hfailed failure⟩

/-- The fold of a found deal into the inventory keeps the invariant. -/
lemma meets_addRecord (hinv : EpochInvariant c setup clientDeals inv given) (hw : inv w h)
    {dealId : DealId} {deal : MarketDeal}
    (hread : ∃ state, lastReply? h = some ⟨.indexing, .marketDeal dealId state, .ok deal⟩)
    (hforeign : isDealtLocally setup.miner clientDeals deal.proposal = false) (provider : Address)
    (site : Epoch) :
    Meets c (addRecord provider site (.ofDeal dealId deal)) w h (fun _ => inv) given := by
  have hfolded := hinv.folded w h dealId deal hw hread hforeign
  simp only [addRecord, meets_bind, meets_get]
  split
  · next piece hpiece =>
    obtain ⟨hbecame, hadded⟩ := hfolded _ (.inl ⟨mem_keys_of_find? hpiece, rfl⟩)
    simp only [meets_bind, meets_update]
    refine ⟨hbecame, ?_⟩
    split
    · exact hinv.meets_log hadded _
    · exact meets_pure.2 hadded
  · next hpiece => exact meets_update.2 (hfolded _ (.inr ⟨find?_eq_none_iff.1 hpiece, rfl⟩))

/-- The indexing of a deal keeps the invariant. -/
lemma meets_indexDeal (hinv : EpochInvariant c setup clientDeals inv given) (hw : inv w h)
    (site : Site) (provider : Address) (dealId : DealId) :
    Meets c (indexDeal setup clientDeals site provider dealId) w h (fun _ => inv) given := by
  rw [indexDeal, meets_bind]
  refine hinv.meets_chainRead hw rfl fun deal hread => ?_
  split
  · exact hinv.meets_log hread _
  · next hforeign =>
    exact hinv.meets_addRecord hread ⟨_, rfl⟩ (Bool.eq_false_iff.2 hforeign) provider site.height

/-- The look-up of the deals of a sector keeps the invariant. -/
lemma meets_sectorDeals (hinv : EpochInvariant c setup clientDeals inv given) (hw : inv w h)
    (miner : Address) (sector : SectorNumber) (state : TipsetKey) :
    Meets c (sectorDeals miner sector state) w h (fun _ => inv) given := by
  rw [sectorDeals, meets_bind]
  refine hinv.meets_chainRead hw rfl fun preCommit hread => ?_
  cases preCommit with
  | some preCommit => exact meets_pure.2 hread
  | none =>
    simp only [meets_bind]
    exact hinv.meets_chainRead hread rfl fun proven hproven => meets_pure.2 hproven

/-- The indexing of a message keeps the invariant. -/
lemma meets_indexMessage (hinv : EpochInvariant c setup clientDeals inv given) (hw : inv w h)
    (site : Site) (message : Message) :
    Meets c (indexMessage setup clientDeals site message) w h (fun _ => inv) given := by
  rw [indexMessage]
  split
  · exact hinv.meets_log hw _
  · next params hparams =>
    rw [meets_bind]
    refine (hinv.meets_sectorDeals hw message.receiver params.sector site.parents).mono ?_
      fun _ _ _ => id
    intro dealIds w' h' hw'
    cases dealIds with
    | none => exact hinv.meets_log hw' _
    | some dealIds =>
      refine meets_forM (fun _ => inv) ?_ hw'
      exact fun dealId _ _ _ hw => hinv.meets_indexDeal hw site message.receiver dealId

/-- **The rule of the indexing of an epoch.**  The indexing of a tipset keeps the invariant. -/
lemma meets_indexTipset (hinv : EpochInvariant c setup clientDeals inv given) (hw : inv w h)
    (site : Epoch) (tipset : Tipset) :
    Meets c (indexTipset setup clientDeals site tipset) w h (fun _ => inv) given := by
  rw [indexTipset, meets_bind]
  refine hinv.meets_chainRead hw rfl fun messages hread => ?_
  exact meets_forM (fun _ => inv) (fun message _ _ _ hw => hinv.meets_indexMessage hw _ message)
    hread

end EpochInvariant

/-- The rule of the move of the cursor: below another epoch it moves on to the next one. -/
lemma meets_advance_of_lt {c : Contract} {w : Worker} {h : History} {stop : Epoch}
    (hlt : w.cursor < stop) {post : Unit → Worker → History → Prop}
    {given : PhaseError → Worker → History → Prop} :
    Meets c advance w h post given ↔
      c.guarantee h (.became { w with cursor := w.cursor + 1 }) ∧
        post () { w with cursor := w.cursor + 1 }
          (.became { w with cursor := w.cursor + 1 } :: h) := by
  simp only [advance, meets_bind, meets_get, meets_checked, meets_update, Epoch.next_of_lt hlt]
  constructor
  · exact fun hmeets => hmeets.1 _ rfl
  · intro hmoved
    refine ⟨?_, ?_⟩
    · rintro next ⟨rfl⟩
      exact hmoved
    · rintro cause ⟨⟩

end PieceReplication.Indexing
