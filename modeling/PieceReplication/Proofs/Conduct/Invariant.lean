import PieceReplication.Proofs.Conduct.Basic

/-!
# Invariants of the worker

An invariant of the worker that a fresh one satisfies, and that each change and each start of a deal
keeps, holds after every history of proper conduct.  Two of them serve everywhere: the containers
are bounded as configured, and each piece of the inventory is known by a deal at least.
-/

namespace PieceReplication

open History BoundedMap

variable {setup : Setup} {h : History} {w : Worker}

/-- The worker changes in one of the ways that are listed, or a deal is entered that was just
started. -/
lemma Conduct.changes_or_starts (hconduct : Conduct setup h (.became w)) :
    Changes setup h w ∨ ∃ piece proposal, justStarted? h = some (piece, proposal) ∧
      MayStart setup (worker setup.config h) piece ∧
        w = (worker setup.config h).withDeal piece proposal := by
  simp only [Conduct] at hconduct
  split at hconduct
  · exact .inl hconduct
  · next hjust => exact .inr ⟨_, _, hjust, hconduct⟩

/-- **The rule of invariants.**  What holds of a fresh worker, and is kept by each change and by
each start of a deal, holds of the worker after a history of proper conduct. -/
theorem worker_of_along {inv : Worker → Prop} (hfresh : inv (.fresh setup.config))
    (hchanges : ∀ h w, inv (worker setup.config h) → Changes setup h w → inv w)
    (hstarts : ∀ h piece proposal, inv (worker setup.config h) →
      MayStart setup (worker setup.config h) piece →
      inv ((worker setup.config h).withDeal piece proposal))
    (hconduct : Along (Conduct setup) h) : inv (worker setup.config h) := by
  induction h with
  | nil => exact hfresh
  | cons occurrence earlier ih =>
    obtain ⟨hoccurrence, hearlier⟩ := hconduct
    cases occurrence with
    | became w =>
      obtain hchange | ⟨piece, proposal, -, hstart, rfl⟩ := hoccurrence.changes_or_starts
      · exact hchanges earlier w (ih hearlier) hchange
      · exact hstarts earlier piece proposal (ih hearlier) hstart
    | brokeOff => exact hfresh
    | _ => exact ih hearlier

/-- The reply that the driver acts on was to a call of the present part of the tick. -/
lemma part?_of_lastReply? (hconduct : Along (Conduct setup) h) {answered : Answered}
    (hreply : lastReply? h = some answered) : part? h = answered.purpose.part? := by
  induction h with
  | nil => cases hreply
  | cons occurrence earlier ih =>
    obtain ⟨hoccurrence, hearlier⟩ := hconduct
    cases occurrence with
    | answered purpose call reply =>
      obtain ⟨before, rfl⟩ : ∃ before, earlier = .called purpose call :: before :=
        ⟨earlier.tail, List.eq_cons_of_mem_head? hoccurrence⟩
      obtain ⟨⟨-, hasks⟩, -⟩ := hearlier
      obtain rfl := Option.some.inj hreply
      exact hasks.part?_eq
    | logged event => exact ih hearlier hreply
    | counted counter => exact ih hearlier hreply
    | became w => exact ih hearlier hreply
    | _ => cases hreply

/-! ## Bounds of the containers -/

/-- Whether the containers of a worker are bounded as configured. -/
structure Worker.Bounded (setup : Setup) (w : Worker) : Prop where
  pieces : w.pieces.capacity = setup.capacity
  retrievals : w.retrievals.capacity = setup.capacity
  deals : w.deals.capacity = setup.capacity

/-- The changes of the worker keep the bounds of its containers. -/
lemma Changes.bounded (hbounded : (worker setup.config h).Bounded setup)
    (hchanges : Changes setup h w) : w.Bounded setup := by
  obtain ⟨hpieces, hretrievals, hdeals⟩ := hbounded
  cases hchanges with
  | addToPiece hfinds hmem => exact ⟨capacity_modify.trans hpieces, hretrievals, hdeals⟩
  | touchPiece key hpart hwalk => exact ⟨capacity_touch.trans hpieces, hretrievals, hdeals⟩
  | countTry hpart hrecord hreply htries =>
    exact ⟨capacity_modify.trans hpieces, hretrievals, hdeals⟩
  | touchDeal key hpart => exact ⟨hpieces, hretrievals, capacity_touch.trans hdeals⟩
  | _ => exact ⟨hpieces, hretrievals, hdeals⟩

/-- The containers are bounded as configured. -/
lemma bounded_of_along (hconduct : Along (Conduct setup) h) :
    (worker setup.config h).Bounded setup :=
  worker_of_along ⟨rfl, rfl, rfl⟩ (fun _ _ => Changes.bounded)
    (fun _ _ _ hbounded _ => ⟨hbounded.pieces, hbounded.retrievals, hbounded.deals⟩) hconduct

/-! ## Pieces of the inventory -/

/-- **The rule of pieces.**  What holds of each piece that is made for a found deal, and is kept by
a further deal of the piece and by another count of failed queries, holds of each piece of the
inventory after a history of proper conduct. -/
theorem piece_of_along {inv : Cid → Piece → Prop}
    (hnew : ∀ h dealId deal, Finds setup h dealId deal →
      inv deal.proposal.piece (.ofRecord (.ofDeal dealId deal)))
    (hadd : ∀ h dealId deal piece, Finds setup h dealId deal → inv deal.proposal.piece piece →
      inv deal.proposal.piece (piece.add (.ofDeal dealId deal)))
    (htries : ∀ key piece index tries, inv key piece → inv key (piece.setTries index tries))
    (hconduct : Along (Conduct setup) h) :
    ∀ key piece, (worker setup.config h).pieces.find? key = some piece → inv key piece := by
  refine @worker_of_along _ _ (fun w => ∀ key piece, w.pieces.find? key = some piece →
    inv key piece) ?_ ?_ (fun _ _ _ hpieces _ => hpieces) hconduct
  · rintro key piece ⟨⟩
  · intro h w hpieces hchanges key piece hfound
    -- a piece that was changed is an earlier one with the change
    have hmodified : ∀ {other : Cid} {f : Piece → Piece},
        ((worker setup.config h).pieces.modify other f).find? key = some piece →
          (∃ old, key = other ∧ piece = f old ∧ inv other old) ∨ inv key piece := by
      intro other f hmodify
      rw [find?_modify] at hmodify
      split at hmodify
      · next heq =>
        obtain ⟨old, hold, rfl⟩ := Option.map_eq_some_iff.1 hmodify
        exact .inl ⟨old, heq, rfl, hpieces other old hold⟩
      · exact .inr (hpieces key piece hmodify)
    cases hchanges with
    | @addToPiece dealId deal hfinds hmem =>
      rcases hmodified hfound with ⟨old, rfl, rfl, hold⟩ | hkept
      · exact hadd h dealId deal old hfinds hold
      · exact hkept
    | touchPiece other hpart hwalk => exact hpieces key piece (find?_touch.symm.trans hfound)
    | @countTry other index record failure tries hpart hrecord hreply hnext =>
      rcases hmodified hfound with ⟨old, rfl, rfl, hold⟩ | hkept
      · exact htries key old index tries hold
      · exact hkept
    | @addPiece dealId deal hfinds hmem =>
      by_cases heq : key = deal.proposal.piece
      · subst heq
        obtain rfl := eq_of_find?_insert_self hfound
        exact hnew h dealId deal hfinds
      · have hold := find?_insert_of_ne heq (mem_keys_of_find? hfound)
        exact hpieces key piece (hold.symm.trans hfound)
    | drop hdrops =>
      rw [find?_erase] at hfound
      split at hfound
      · cases hfound
      · exact hpieces key piece hfound
    | _ => exact hpieces key piece hfound

/-- What does not depend on the count of failed queries is the same for all records after another
count. -/
lemma Piece.map_records_setTries {β : Type} {f : DealRecord → β}
    (hf : ∀ (record : DealRecord) tries, f { record with tries } = f record) (piece : Piece)
    (index : Nat) (tries : UInt64) :
    (piece.setTries index tries).records.map f = piece.records.map f := by
  refine List.ext_getElem? fun i => ?_
  rw [setTries, List.getElem?_map, List.getElem?_map, List.getElem?_modify]
  cases piece.records[i]? with
  | none => rfl
  | some record =>
    by_cases heq : index = i
    · simp [heq, hf]
    · simp [heq]

/-! ## Pieces and their deals -/

/-- Whether each piece of the inventory is known by a deal at least. -/
def Worker.Documented (w : Worker) : Prop :=
  ∀ key piece, w.pieces.find? key = some piece → piece.records ≠ []

/-- A further deal leaves a piece known by a deal. -/
lemma Piece.records_add_ne_nil {piece : Piece} {record : DealRecord} (hne : piece.records ≠ []) :
    (piece.add record).records ≠ [] := by
  unfold Piece.add
  split
  · exact hne
  · exact List.concat_ne_nil _ _

/-- Another count of failed queries leaves a piece known by a deal. -/
lemma Piece.records_setTries_ne_nil {piece : Piece} {index : Nat} {tries : UInt64}
    (hne : piece.records ≠ []) : (piece.setTries index tries).records ≠ [] := by
  intro hnil
  have hlength := congrArg List.length hnil
  rw [Piece.setTries, List.length_modify] at hlength
  exact hne (List.length_eq_zero_iff.1 hlength)

/-- Each piece of the inventory is known by a deal at least. -/
lemma documented_of_along (hconduct : Along (Conduct setup) h) :
    (worker setup.config h).Documented := by
  refine piece_of_along (fun _ dealId deal _ => List.cons_ne_nil _ _) ?_ ?_ hconduct
  · exact fun _ _ _ _ _ => Piece.records_add_ne_nil
  · exact fun _ _ _ _ => Piece.records_setTries_ne_nil

/-- Where each piece is known by a deal, only a piece that is not in the inventory has no
payload. -/
lemma Worker.Documented.notMem_of_payload? (hdocumented : w.Documented) {key : Cid}
    (hpayload : w.payload? key = none) : key ∉ w.pieces.keys := by
  intro hmem
  obtain ⟨piece, hpiece⟩ := exists_find? hmem
  rw [payload?, hpiece, Option.bind_some, Piece.payload?, Option.map_eq_none_iff,
    List.head?_eq_none_iff] at hpayload
  exact hdocumented key piece hpiece hpayload

end PieceReplication
