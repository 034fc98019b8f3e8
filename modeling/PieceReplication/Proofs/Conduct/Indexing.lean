import PieceReplication.Proofs.Chain.Epochs
import PieceReplication.Proofs.Conduct.Basic
import PieceReplication.Proofs.Indexing.Walk

/-!
# The conduct of the index phase

All through the walk over the epochs the deals that the node has listed at its beginning stay the
ones that the found deals are compared with, and the head that it has read stays the end of the
walk.  A deal that is folded into the inventory was just read from the chain and is not one of the
local node.  An epoch is underway from the call for its tipset until the cursor moves past it; since
it lies below the head, that move does not overflow.
-/

namespace PieceReplication.Indexing

open History Activity BoundedMap

variable {setup : Setup} {clientDeals : List ClientDeal} {head height : Epoch}
  {epoch? : Option Epoch} {w : Worker} {h : History}

/-- In the walk over the epochs: the deals of the node are listed and the head is read.  If an epoch
is underway, the cursor stands at it. -/
structure Walking (setup : Setup) (clientDeals : List ClientDeal) (head : Epoch)
    (epoch? : Option Epoch) (w : Worker) (h : History) : Prop where
  steady : Steady setup w h
  part : part? h = some .indexing
  listed : listed? h = some clientDeals
  headed : headEpoch? h = some head
  underway : underway? h = epoch?
  cursor_eq : ∀ epoch ∈ epoch?, w.cursor = epoch

/-- Between two epochs the driver is between two steps. -/
lemma Walking.settled (hw : Walking setup clientDeals head none w h) : Settled setup w h :=
  ⟨hw.steady, hw.underway⟩

/-- The epoch that is underway is the one at the cursor. -/
lemma Walking.underway_cursor (hw : Walking setup clientDeals head (some height) w h) :
    underway? h = some w.cursor := by
  rw [hw.underway, hw.cursor_eq height rfl]

/-- A report leaves the walk going. -/
lemma Walking.logged (hw : Walking setup clientDeals head epoch? w h) (event : LogEvent) :
    Walking setup clientDeals head epoch? w (.logged event :: h) :=
  ⟨hw.steady.logged event, hw.part, hw.listed, hw.headed, hw.underway, hw.cursor_eq⟩

/-- A change of the inventory leaves the epoch underway. -/
lemma Walking.folded (hw : Walking setup clientDeals head (some height) w h)
    (pieces : BoundedMap Piece) (hcapacity : pieces.capacity = w.pieces.capacity) :
    Walking setup clientDeals head (some height) { w with pieces }
      (.became { w with pieces } :: h) := by
  refine ⟨hw.steady.became_after hcapacity rfl rfl, hw.part, hw.listed, hw.headed, ?_,
    hw.cursor_eq⟩
  change (underway? h).filter (· == w.cursor) = some height
  rw [hw.underway, hw.cursor_eq height rfl, Option.filter_some, beq_self_eq_true, if_pos rfl]

/-- Each step of the indexing of an epoch conducts itself properly. -/
lemma epochInvariant_walking :
    EpochInvariant (conduct setup) setup clientDeals
      (Walking setup clientDeals head (some height)) fun _ => Settled setup where
  read w h call hw hcall := by
    obtain rfl := hw.steady.worker_eq
    refine ⟨hw.steady.conduct_called ?_, fun answer => ?_, fun failure => hw.steady.failed _ _ _⟩
    · cases call with
      | parentMessages block => exact .parentMessages hw.part hw.underway_cursor
      | preCommit miner sector state => exact .preCommit hw.part hw.underway_cursor
      | provenSector miner sector state => exact .provenSector hw.part hw.underway_cursor
      | marketDeal deal state => exact .marketDeal hw.part hw.underway_cursor
      | _ => cases hcall
    · cases call with
      | parentMessages | preCommit | provenSector | marketDeal =>
        exact ⟨hw.steady.answered _ _ _ rfl, hw.part, hw.listed, hw.headed, hw.underway,
          hw.cursor_eq⟩
      | _ => cases hcall
  logged w h event hw := ⟨trivial, hw.logged event⟩
  folded w h dealId deal hw hread hforeign pieces hpieces := by
    obtain rfl := hw.steady.worker_eq
    have hfinds : Finds setup h dealId deal := ⟨hw.part, hread, clientDeals, hw.listed, hforeign⟩
    obtain ⟨hmem, rfl⟩ | ⟨hnew, rfl⟩ := hpieces
    · exact ⟨hw.steady.conduct_became (.addToPiece hfinds hmem), hw.folded _ capacity_modify⟩
    · exact ⟨hw.steady.conduct_became (.addPiece hfinds hnew), hw.folded _ capacity_insert⟩

/-- The move of the cursor past an epoch below the head conducts itself properly. -/
lemma meets_advance (hw : Walking setup clientDeals head (some height) w h) (hlt : height < head) :
    Meets (conduct setup) advance w h
      (fun _ w' h' => Walking setup clientDeals head none w' h' ∧ w'.cursor = height + 1)
      fun _ => Settled setup := by
  obtain rfl := hw.steady.worker_eq
  obtain rfl := hw.cursor_eq height rfl
  have hnext := Epoch.next_of_lt hlt
  rw [meets_advance_of_lt hlt]
  refine ⟨hw.steady.conduct_became (.advance hw.part hw.underway hw.headed hlt hnext), ?_, rfl⟩
  refine ⟨hw.steady.became_after rfl rfl rfl, hw.part, hw.listed, hw.headed, ?_, ?_⟩
  · change (underway? h).filter (· == (worker setup.config h).cursor + 1) = none
    rw [hw.underway, Option.filter_some, if_neg]
    exact fun heq => Epoch.ne_add_one_of_lt hlt (beq_iff_eq.1 heq)
  · rintro epoch ⟨⟩

/-- The walk over the epochs below the head conducts itself properly. -/
lemma meets_indexEpochs (count : Nat) (hw : Walking setup clientDeals head none w h)
    (hcount : count ≤ w.cursor.stepsTo head) :
    Meets (conduct setup) (indexEpochs setup clientDeals count) w h (fun _ => Settled setup)
      fun _ => Settled setup := by
  induction count generalizing w h with
  | zero => exact hw.settled
  | succ count ih =>
    have hlt : w.cursor < head :=
      Epoch.stepsTo_pos_iff.1 (Nat.lt_of_lt_of_le (Nat.succ_pos count) hcount)
    -- the rest of the walk, once the tipset of the epoch is indexed
    have hnext : ∀ w' h', Walking setup clientDeals head (some w.cursor) w' h' →
        Meets (conduct setup) advance w' h'
          (fun _ w' h' => Meets (conduct setup) (indexEpochs setup clientDeals count) w' h'
            (fun _ => Settled setup) fun _ => Settled setup) fun _ => Settled setup := by
      intro w' h' hw'
      refine (meets_advance hw' hlt).mono ?_ fun _ _ _ => id
      rintro ⟨⟩ w'' h'' ⟨hw'', hcursor⟩
      refine ih hw'' ?_
      rw [hcursor, Epoch.stepsTo_add_one hlt]
      exact Nat.le_sub_one_of_lt hcount
    obtain rfl := hw.steady.worker_eq
    simp only [indexEpochs, meets_bind, meets_stopRequested]
    refine fun isStopping _ => ⟨hw.steady.justStarted?_eq, ?_⟩
    have hlooked := hw.settled.looked isStopping
    cases isStopping with
    | true => exact meets_pure.2 hlooked
    | false =>
      simp only [Bool.false_eq_true, ↓reduceIte, meets_bind, meets_get]
      refine meets_chainRead.2 ⟨hlooked.conduct_called (.tipset hw.part hlooked.idle),
        fun tipset _ => ?_, fun failure _ => hlooked.failed _ _ _⟩
      have hread : Walking setup clientDeals head (some (worker setup.config h).cursor)
          (worker setup.config h)
          (.answered .indexing (.tipsetAt (worker setup.config h).cursor) (.ok tipset) ::
            .called .indexing (.tipsetAt (worker setup.config h).cursor) :: .looked false :: h) :=
        ⟨hlooked.toSteady.answered _ _ _ rfl, hw.part, hw.listed, hw.headed, rfl,
          fun epoch hepoch => Option.some.inj hepoch⟩
      split
      · simp only [meets_bind]
        exact (epochInvariant_walking.meets_indexTipset hread _ tipset).mono (fun _ => hnext)
          fun _ _ _ => id
      · rw [meets_bind]
        exact hnext _ _ hread

/-- **The conduct of the index phase.** -/
theorem meets_run (hs : Settled setup w h) :
    Meets (conduct setup) (run setup) w h (fun _ => Settled setup) fun _ => Settled setup := by
  simp only [run, meets_bind, meets_enter]
  refine ⟨⟨hs.justStarted?_eq, .indexing⟩, ?_⟩
  have hentered := hs.entered .indexing
  refine meets_chainRead.2 ⟨hentered.conduct_called (.chainHead rfl), fun head _ => ?_,
    fun failure _ => hentered.failed _ _ _⟩
  have hhead := hentered.answered .indexing .chainHead (.ok head) rfl rfl
  refine meets_chainRead.2 ⟨hhead.conduct_called (.clientDeals rfl), fun clientDeals _ => ?_,
    fun failure _ => hhead.failed _ _ _⟩
  have hlisted := hhead.answered .indexing .clientDeals (.ok clientDeals) rfl rfl
  refine meets_indexEpochs _ ⟨hlisted.toSteady, rfl, rfl, rfl, hlisted.idle, ?_⟩ (Nat.le_refl _)
  rintro epoch ⟨⟩

end PieceReplication.Indexing
