import PieceReplication.Proofs.Conduct.Invariant
import PieceReplication.Proofs.Conduct.Tick
import PieceReplication.Proofs.Run.Session

/-!
# The inventory is well formed

The scan of the retrieval phase chooses a deal of a piece by its index and asks the deal's provider
for the piece, whatever happened to the inventory since the deal was recorded.  That it asks another
provider, and for the right piece, rests on what the records of an inventory piece have in common:
they are deals for that very piece, each recorded once, and none of them is with the local miner.
The index phase sees to that when it records a deal, and no later change spoils it.
-/

namespace PieceReplication

open History BoundedMap

variable {setup : Setup} {h : History} {occurrence : Occurrence} {miner : Address} {key : Cid}

/-! ## Well-formed pieces -/

/-- How the records of a piece are sound under a key: they are deals for the piece of that key, each
recorded once, and none is with the local miner. -/
structure Piece.Sound (miner : Address) (key : Cid) (piece : Piece) : Prop where
  nodup_dealIds : (piece.records.map DealRecord.dealId).Nodup
  piece_eq : ∀ record ∈ piece.records, record.proposal.piece = key
  provider_ne : ∀ record ∈ piece.records, record.provider ≠ miner

/-- A piece that is known by one deal of another provider is sound. -/
lemma Piece.sound_ofRecord {record : DealRecord} (hprovider : record.provider ≠ miner) :
    (Piece.ofRecord record).Sound miner record.proposal.piece where
  nodup_dealIds := List.nodup_singleton _
  piece_eq := by
    intro other hother
    obtain rfl := List.mem_singleton.1 hother
    rfl
  provider_ne := by
    intro other hother
    obtain rfl := List.mem_singleton.1 hother
    exact hprovider

/-- A sound piece stays so with a further deal for it of another provider. -/
lemma Piece.Sound.add {piece : Piece} (hsound : piece.Sound miner key) {record : DealRecord}
    (hpiece : record.proposal.piece = key) (hprovider : record.provider ≠ miner) :
    (piece.add record).Sound miner key := by
  unfold Piece.add
  split
  · exact hsound
  · next hunknown =>
    have hnew : record.dealId ∉ piece.records.map DealRecord.dealId := by
      intro hmem
      obtain ⟨known, hknown, heq⟩ := List.mem_map.1 hmem
      exact hunknown (List.any_eq_true.2 ⟨known, hknown, beq_iff_eq.2 heq⟩)
    constructor
    · have hids := List.Nodup.concat hnew hsound.nodup_dealIds
      simpa using hids
    · intro other hother
      rcases List.mem_append.1 hother with hknown | hlast
      · exact hsound.piece_eq other hknown
      · rw [List.mem_singleton.1 hlast, hpiece]
    · intro other hother
      rcases List.mem_append.1 hother with hknown | hlast
      · exact hsound.provider_ne other hknown
      · rw [List.mem_singleton.1 hlast]
        exact hprovider

/-- A sound piece stays so with another count of failed queries. -/
lemma Piece.Sound.setTries {piece : Piece} (hsound : piece.Sound miner key) (index : Nat)
    (tries : UInt64) : (piece.setTries index tries).Sound miner key := by
  -- each record is an earlier one but for the count
  have hold : ∀ {β : Type} {f : DealRecord → β},
      (∀ (record : DealRecord) tries, f { record with tries } = f record) →
        ∀ record ∈ (piece.setTries index tries).records,
          ∃ old ∈ piece.records, f old = f record := by
    intro β f hf record hrecord
    have hmem := List.mem_map_of_mem (f := f) hrecord
    rw [Piece.map_records_setTries hf] at hmem
    exact List.mem_map.1 hmem
  constructor
  · rw [Piece.map_records_setTries fun _ _ => rfl]
    exact hsound.nodup_dealIds
  · intro record hrecord
    obtain ⟨old, hmem, heq⟩ := hold (f := fun record => record.proposal.piece)
      (fun _ _ => rfl) record hrecord
    exact heq.symm.trans (hsound.piece_eq old hmem)
  · intro record hrecord
    obtain ⟨old, hmem, heq⟩ := hold (f := DealRecord.provider) (fun _ _ => rfl) record hrecord
    rw [← heq]
    exact hsound.provider_ne old hmem

/-- A found deal is not one with the local miner. -/
lemma Finds.provider_ne {dealId : DealId} {deal : MarketDeal}
    (hfinds : Finds setup h dealId deal) :
    (DealRecord.ofDeal dealId deal).provider ≠ setup.miner := by
  obtain ⟨clientDeals, -, hforeign⟩ := hfinds.foreign
  have hprovider := (Bool.or_eq_false_iff.1 hforeign).1
  exact beq_eq_false_iff_ne.1 hprovider

/-- Each piece of the inventory is sound under its key. -/
lemma sound_of_along (hconduct : Along (Conduct setup) h) :
    ∀ key piece, (worker setup.config h).pieces.find? key = some piece →
      piece.Sound setup.miner key := by
  refine piece_of_along ?_ ?_ ?_ hconduct
  · intro h dealId deal hfinds
    exact Piece.sound_ofRecord hfinds.provider_ne
  · intro h dealId deal piece hfinds hsound
    exact hsound.add rfl hfinds.provider_ne
  · intro key piece index tries hsound
    exact hsound.setTries index tries

/-! ## Well-formed inventories -/

/-- Whether the inventory of a worker is well formed: it holds no more keys than configured, each of
them once, and each of its pieces is known by a deal at least and sound under its key. -/
structure Worker.WellFormed (setup : Setup) (w : Worker) : Prop where
  length_keys_le : w.pieces.keys.length ≤ setup.capacity
  nodup_keys : w.pieces.keys.Nodup
  records_ne_nil : ∀ key piece, w.pieces.find? key = some piece → piece.records ≠ []
  sound : ∀ key piece, w.pieces.find? key = some piece → piece.Sound setup.miner key

/-- After proper conduct the inventory is well formed. -/
lemma wellFormed_of_along (hconduct : Along (Conduct setup) h) :
    (worker setup.config h).WellFormed setup where
  length_keys_le := by
    have hbounded := bounded_of_along hconduct
    rw [← size_eq_length_keys, ← hbounded.pieces]
    exact (worker setup.config h).pieces.size_le
  nodup_keys := (worker setup.config h).pieces.nodup_keys
  records_ne_nil := documented_of_along hconduct
  sound := sound_of_along hconduct

/-- Whether a query goes to another provider: it is made for a piece, with the root and the provider
of a recorded deal for that piece that has an identifier and whose sector was proved. -/
def QueriesForeign (setup : Setup) (h : History) (occurrence : Occurrence) : Prop :=
  ∀ purpose root provider, occurrence = .called purpose (.query root provider) →
    ∃ key index record, purpose = .retrievalScan key index ∧
      (worker setup.config h).record? key index = some record ∧
      record.root = root ∧ record.provider = provider ∧
      record.proposal.piece = key ∧ provider ≠ setup.miner ∧
      0 < record.dealId ∧ 0 < record.state.sectorStartEpoch

/-- Proper conduct is to ask other providers only. -/
lemma QueriesForeign.of_conduct (hearlier : Along (Conduct setup) h)
    (hconduct : Conduct setup h occurrence) : QueriesForeign setup h occurrence := by
  rintro purpose root provider rfl
  obtain ⟨-, hasks⟩ := hconduct
  cases hasks with
  | @query key index record hpart hrecord hretrievable hprobed hpending hsize =>
    obtain ⟨piece, hpiece, hindex⟩ := Option.bind_eq_some_iff.1 hrecord
    have hsound := sound_of_along hearlier key piece hpiece
    have hmem : record ∈ piece.records := List.mem_of_getElem? hindex
    have hactive : 0 < record.dealId ∧ 0 < record.state.sectorStartEpoch := by
      simpa [DealRecord.isRetrievable, DealState.isActive] using hretrievable
    exact ⟨key, index, record, rfl, hrecord, rfl, rfl, hsound.piece_eq record hmem,
      hsound.provider_ne record hmem, hactive.1, hactive.2⟩

/-- **The inventory is well formed.**  In each life of a replicator, whatever its surroundings
supply, the inventory is well formed at every moment, and so is the one of a worker that is kept for
the next driver or held by a driver that sleeps or has ended; and a query goes to another provider
than the local miner, for a piece of which a deal with that provider is recorded that has an
identifier and whose sector was proved. -/
theorem Life.inventory_wellFormed {events : List Event} {replicator : Replicator}
    (life : Life setup events replicator) :
    (∀ h, h <:+ trace events → (worker setup.config h).WellFormed setup) ∧
      (∀ w, replicator.restingWorker? = some w → w.WellFormed setup) ∧
      Along (QueriesForeign setup) (trace events) := by
  have hconduct := life.conduct
  refine ⟨?_, ?_, ?_⟩
  · rintro h ⟨later, htrace⟩
    rw [← htrace] at hconduct
    exact wellFormed_of_along hconduct.of_append
  · intro w hresting
    rw [← life.worker_eq_of_resting hresting]
    exact wellFormed_of_along hconduct
  · exact hconduct.imp_of_along fun _ _ => QueriesForeign.of_conduct

/-- The inventory is well formed in a life in which four pieces are recorded under seven deals, a
provider is asked for each of them, and two are dropped. -/
theorem Life.inventory_wellFormed_crowded :
    ∃ events w, Life Sample.crowdedSetup events Sample.crowdedSession.replicator ∧
      Sample.crowdedSession.replicator.restingWorker? = some w ∧
      w.pieces.keys = [⟨"fourth"⟩, ⟨"first"⟩] ∧ w.WellFormed Sample.crowdedSetup ∧
      .query ⟨"second, proved"⟩ ⟨"provider"⟩ ∈ Trace.calls (trace events) ∧
      Along (QueriesForeign Sample.crowdedSetup) (trace events) := by
  obtain ⟨events, life, htrace⟩ := Sample.showsLife_crowdedSession
  obtain ⟨-, hresting, hqueries⟩ := life.inventory_wellFormed
  have hkeys : Sample.crowdedSession.replicator.restingWorker?.map (·.pieces.keys) =
      some [⟨"fourth"⟩, ⟨"first"⟩] := by
    decide +kernel
  obtain ⟨w, hw, hkeys⟩ := Option.map_eq_some_iff.1 hkeys
  refine ⟨events, w, life, hw, hkeys, hresting w hw, ?_, hqueries⟩
  rw [htrace]
  decide +kernel

end PieceReplication
