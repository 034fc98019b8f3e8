import PieceReplication.Proofs.Conduct.Invariant
import PieceReplication.Proofs.Conduct.Tick
import PieceReplication.Proofs.Run.Session

/-!
# The pending retrievals are tracked exactly

A refused query makes the retrieval of a piece pending, and a pending retrieval keeps the piece from
being asked for again.  The set of the pending retrievals is bounded like the inventory, so an
insertion into a full one would silently lose one.  Here it is shown that this never happens: a
retrieval becomes pending for a piece of the inventory that had none, with room left, right after a
provider refused it; and it stays pending until its payload is here or its piece is gone.  Nothing
is assumed about the node.
-/

namespace PieceReplication

open History BoundedMap

variable {setup : Setup} {h : History} {w : Worker} {occurrence : Occurrence}

/-- The retrievals that are pending after a history. -/
def History.retrievals (setup : Setup) (h : History) : BoundedMap QueryResponse :=
  (worker setup.config h).retrievals

/-! ## What the changes of the worker keep -/

/-- A pending retrieval stays or is forgotten. -/
lemma Changes.find?_retrievals_or_forgets (hbounded : (worker setup.config h).Bounded setup)
    (hchanges : Changes setup h w) {piece : Cid} {response : QueryResponse}
    (hpending : (retrievals setup h).find? piece = some response) :
    w.retrievals.find? piece = some response ∨ Forgets setup h piece := by
  cases hchanges with
  | @forget key hforgets =>
    by_cases hne : piece = key
    · exact .inr (hne ▸ hforgets)
    · exact .inl (by rw [find?_erase, if_neg hne]; exact hpending)
  | @pend key new hpends =>
    have hne : piece ≠ key := fun heq => hpends.notMem (heq ▸ mem_keys_of_find? hpending)
    have hroom := hbounded.retrievals ▸ hpends.size_lt
    exact .inl (by rw [find?_insert_of_lt hpends.notMem hroom, if_neg hne]; exact hpending)
  | _ => exact .inl hpending

/-- A retrieval that is pending after a change was so before, or has become so, beside all the
others. -/
lemma Changes.find?_retrievals_of_find? (hbounded : (worker setup.config h).Bounded setup)
    (hchanges : Changes setup h w) {piece : Cid} {response : QueryResponse}
    (hpending : w.retrievals.find? piece = some response) :
    (retrievals setup h).find? piece = some response ∨
      Pends setup h piece response ∧
        w.retrievals.entries = (retrievals setup h).entries ++ [(piece, response)] := by
  cases hchanges with
  | forget hforgets =>
    rw [find?_erase] at hpending
    split at hpending
    · cases hpending
    · exact .inl hpending
  | pend hpends =>
    have hroom := hbounded.retrievals ▸ hpends.size_lt
    rw [find?_insert_of_lt hpends.notMem hroom] at hpending
    split at hpending
    · next heq =>
      cases hpending
      subst heq
      exact .inr ⟨hpends, entries_insert_of_lt hpends.notMem hroom⟩
    · exact .inl hpending
  | _ => exact .inl hpending

/-! ## The tracking of the retrievals -/

/-- Why a pending retrieval ends. -/
inductive RetrievalEnds (setup : Setup) (h : History) (piece : Cid) : Prop where
  /-- The sweep finds that the piece is not in the inventory. -/
  | gone (hpart : part? h = some .retrievalSweep)
    (hmem : piece ∉ (worker setup.config h).pieces.keys)
  /-- The sweep has just learnt that the payload of the piece's first deal is here. -/
  | swept {payload} (hpart : part? h = some .retrievalSweep)
    (hpayload : (worker setup.config h).payload? piece = some payload)
    (hreply : lastReply? h = some ⟨.retrievalSweep piece, .hasLocal payload.root, .ok true⟩)
  /-- The scan has just learnt that the payload of the chosen deal is here. -/
  | arrived {index record} (hpart : part? h = some .retrievalScan)
    (hrecord : (worker setup.config h).record? piece index = some record)
    (hreply : lastReply? h = some ⟨.retrievalScan piece index, .hasLocal record.root, .ok true⟩)

/-- A pending retrieval is forgotten because it ends. -/
lemma Forgets.ends (hdocumented : (worker setup.config h).Documented) {piece : Cid}
    (hforgets : Forgets setup h piece) (hpending : piece ∈ (retrievals setup h).keys) :
    RetrievalEnds setup h piece := by
  cases hforgets with
  | gone hpart hpayload => exact .gone hpart (hdocumented.notMem_of_payload? hpayload)
  | swept hpart hpayload hreply => exact .swept hpart hpayload hreply
  | arrived hpart hrecord hreply => exact .arrived hpart hrecord hreply
  | served hpart hreply hstatus hnone => exact absurd hpending hnone

/-- How the retrievals are tracked, at an occurrence and the history before it. -/
structure RetrievalsTracked (setup : Setup) (h : History) (occurrence : Occurrence) : Prop where
  /-- The scan looks for the payload of a deal that it has just chosen. -/
  probes : ∀ piece index root,
    occurrence = .called (.retrievalScan piece index) (.hasLocal root) →
      Chosen h (worker setup.config h) piece index ∧
        ∃ record, (worker setup.config h).record? piece index = some record ∧ record.root = root
  /-- A provider is asked for a piece without a pending retrieval: the provider of the chosen deal,
  right after its payload turned out not to be here. -/
  queries : ∀ purpose root provider, occurrence = .called purpose (.query root provider) →
    ∃ piece index record, purpose = .retrievalScan piece index ∧
      piece ∉ (retrievals setup h).keys ∧
      (worker setup.config h).record? piece index = some record ∧
      record.root = root ∧ record.provider = provider ∧
      lastReply? h = some ⟨.retrievalScan piece index, .hasLocal root, .ok false⟩
  /-- A retrieval becomes pending for a reason, and is put beside all the others. -/
  comes : ∀ piece response, (retrievals setup (occurrence :: h)).find? piece = some response →
    (retrievals setup h).find? piece = some response ∨
      Pends setup h piece response ∧ (retrievals setup (occurrence :: h)).entries =
        (retrievals setup h).entries ++ [(piece, response)]
  /-- Unless the driver breaks off, a pending retrieval stays until it ends. -/
  leaves : ∀ piece response, occurrence ≠ .brokeOff →
    (retrievals setup h).find? piece = some response →
    (retrievals setup (occurrence :: h)).find? piece ≠ some response →
      RetrievalEnds setup h piece

/-- Proper conduct tracks the retrievals. -/
lemma RetrievalsTracked.of_conduct (hearlier : Along (Conduct setup) h)
    (hconduct : Conduct setup h occurrence) : RetrievalsTracked setup h occurrence where
  probes := by
    rintro piece index root rfl
    obtain ⟨-, hasks⟩ := hconduct
    cases hasks with
    | probe hpart hrecord hretrievable hchosen => exact ⟨hchosen, _, hrecord, rfl⟩
  queries := by
    rintro purpose root provider rfl
    obtain ⟨-, hasks⟩ := hconduct
    cases hasks with
    | query hpart hrecord hretrievable hprobed hpending hsize =>
      exact ⟨_, _, _, rfl, hpending, hrecord, rfl, rfl, hprobed⟩
  comes := by
    intro piece response hpending
    cases occurrence with
    | became w =>
      obtain hchanges | ⟨other, proposal, -, -, rfl⟩ := hconduct.changes_or_starts
      · exact hchanges.find?_retrievals_of_find? (bounded_of_along hearlier) hpending
      · exact .inl hpending
    | brokeOff => cases hpending
    | _ => exact .inl hpending
  leaves := by
    intro piece response hne hpending hgone
    cases occurrence with
    | became w =>
      obtain hchanges | ⟨other, proposal, -, -, rfl⟩ := hconduct.changes_or_starts
      · have hkept := hchanges.find?_retrievals_or_forgets (bounded_of_along hearlier) hpending
        exact (hkept.resolve_left hgone).ends (documented_of_along hearlier)
          (mem_keys_of_find? hpending)
      · exact absurd hpending hgone
    | brokeOff => exact absurd rfl hne
    | _ => exact absurd hpending hgone

/-- **Exact tracking of the retrievals.**  In each life of a replicator, whatever its surroundings
supply, a retrieval becomes pending only for a piece of the inventory without one, with room left,
and right after the chosen deal's payload turned out not to be here and its provider did not serve
it; it stays pending until a sweep finds its piece gone or the payload is found here; and no
provider is asked for a piece whose retrieval is pending. -/
theorem Life.retrievals_tracked {events : List Event} {replicator : Replicator}
    (life : Life setup events replicator) : Along (RetrievalsTracked setup) (trace events) :=
  life.conduct.imp_of_along fun _ _ => RetrievalsTracked.of_conduct

/-- The retrievals are tracked in a life in which three become pending, two of them end in a sweep
and one in a scan, and three become pending again. -/
theorem Life.retrievals_tracked_crowded :
    ∃ events, Life Sample.crowdedSetup events Sample.crowdedSession.replicator ∧
      (retrievals Sample.crowdedSetup (trace events)).keys =
        [⟨"fourth"⟩, ⟨"second"⟩, ⟨"third"⟩] ∧
      Along (RetrievalsTracked Sample.crowdedSetup) (trace events) := by
  obtain ⟨events, life, htrace⟩ := Sample.showsLife_crowdedSession
  refine ⟨events, life, ?_, life.retrievals_tracked⟩
  rw [htrace]
  decide +kernel

end PieceReplication
