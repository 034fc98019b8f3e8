import PieceReplication.Proofs.Conduct.Basic
import PieceReplication.Proofs.Inventory.Keeping
import PieceReplication.Proofs.Inventory.Uncounted

/-!
# What a phase leaves alone

The three phases of a tick work on one state.  `Phase.Leaves` says of each phase how the state after
it may differ from the state before.  The index phase changes the cursor and the inventory, but no
record of a piece that stays; the retrieval phase changes the set of pending retrievals, and in the
inventory only the counts of failed queries and the order of the pieces; the deal phase changes the
set of deals, and in the inventory only which pieces are there and their order.

Which pieces stay is a parameter of the relation.  For a single change these are all pieces that are
there before and after it; for a stretch of a phase, those that are there all the time.  So the
relation is transitive in a way that takes the pieces of the state in between into account
(`Phase.Leaves.trans`).
-/

namespace PieceReplication

open BoundedMap

/-- The phase that a part of a tick belongs to. -/
def Part.phase : Part → Phase
  | indexing => .index
  | retrievalSweep => .retrieve
  | retrievalScan => .retrieve
  | dealSweep => .deal
  | dealScan => .deal

/-- What the index phase leaves alone: the two sets, and the records of each piece that stays, which
others may only follow. -/
structure Worker.Indexed (stays : Cid → Prop) (w w' : Worker) : Prop where
  retrievals_eq : w'.retrievals = w.retrievals
  deals_eq : w'.deals = w.deals
  records : ∀ key, stays key → ∀ piece later, w.pieces.find? key = some piece →
    w'.pieces.find? key = some later → piece.records <+: later.records

/-- What the retrieval phase leaves alone: the cursor, the set of deals, and the pieces with all
their records up to the counts of failed queries. -/
structure Worker.Retrieved (w w' : Worker) : Prop where
  cursor_eq : w'.cursor = w.cursor
  deals_eq : w'.deals = w.deals
  capacity_eq : w'.pieces.capacity = w.pieces.capacity
  keys_perm : w'.pieces.keys.Perm w.pieces.keys
  pieces_eq : ∀ key,
    (w'.pieces.find? key).map Piece.uncounted = (w.pieces.find? key).map Piece.uncounted

/-- What the deal phase leaves alone: the cursor, the set of pending retrievals, and each piece that
remains. -/
structure Worker.Dealt (w w' : Worker) : Prop where
  cursor_eq : w'.cursor = w.cursor
  retrievals_eq : w'.retrievals = w.retrievals
  capacity_eq : w'.pieces.capacity = w.pieces.capacity
  pieces_eq : ∀ key piece, w'.pieces.find? key = some piece → w.pieces.find? key = some piece

/-- How the state after some changes in a phase may differ from the state before. -/
def Phase.Leaves (stays : Cid → Prop) (w w' : Worker) : Phase → Prop
  | .index => w.Indexed stays w'
  | .retrieve => w.Retrieved w'
  | .deal => w.Dealt w'

variable {w w' w'' : Worker} {key : Cid} {stays stays' : Cid → Prop}

/-! ## Composition -/

/-- A phase leaves alone what does not change. -/
lemma Phase.leaves_rfl (phase : Phase) (w : Worker) : phase.Leaves stays w w := by
  cases phase with
  | index =>
    refine ⟨rfl, rfl, ?_⟩
    intro key _ piece later hpiece hlater
    obtain rfl := Option.some.inj (hpiece.symm.trans hlater)
    exact List.prefix_refl _
  | retrieve => exact ⟨rfl, rfl, rfl, .refl _, fun _ => rfl⟩
  | deal => exact ⟨rfl, rfl, rfl, fun _ _ => id⟩

/-- Changes of the index phase one after another: a piece that stays is there in between. -/
lemma Worker.Indexed.trans (hfirst : w.Indexed stays w') (hsecond : w'.Indexed stays' w'') :
    w.Indexed (fun key => stays key ∧ stays' key ∧ key ∈ w'.pieces.keys) w'' where
  retrievals_eq := hsecond.retrievals_eq.trans hfirst.retrievals_eq
  deals_eq := hsecond.deals_eq.trans hfirst.deals_eq
  records := by
    rintro key ⟨hstays, hstays', hmem⟩ piece later hpiece hlater
    obtain ⟨middle, hmiddle⟩ := exists_find? hmem
    have hbefore := hfirst.records key hstays piece middle hpiece hmiddle
    exact hbefore.trans (hsecond.records key hstays' middle later hmiddle hlater)

/-- Changes of the retrieval phase one after another. -/
lemma Worker.Retrieved.trans (hfirst : w.Retrieved w') (hsecond : w'.Retrieved w'') :
    w.Retrieved w'' where
  cursor_eq := hsecond.cursor_eq.trans hfirst.cursor_eq
  deals_eq := hsecond.deals_eq.trans hfirst.deals_eq
  capacity_eq := hsecond.capacity_eq.trans hfirst.capacity_eq
  keys_perm := hsecond.keys_perm.trans hfirst.keys_perm
  pieces_eq key := (hsecond.pieces_eq key).trans (hfirst.pieces_eq key)

/-- Changes of the deal phase one after another. -/
lemma Worker.Dealt.trans (hfirst : w.Dealt w') (hsecond : w'.Dealt w'') : w.Dealt w'' where
  cursor_eq := hsecond.cursor_eq.trans hfirst.cursor_eq
  retrievals_eq := hsecond.retrievals_eq.trans hfirst.retrievals_eq
  capacity_eq := hsecond.capacity_eq.trans hfirst.capacity_eq
  pieces_eq key piece hpiece := hfirst.pieces_eq key piece (hsecond.pieces_eq key piece hpiece)

/-- Changes in a phase one after another leave alone what each of them does. -/
lemma Phase.Leaves.trans {phase : Phase} (hfirst : phase.Leaves stays w w')
    (hsecond : phase.Leaves stays' w' w'') :
    phase.Leaves (fun key => stays key ∧ stays' key ∧ key ∈ w'.pieces.keys) w w'' := by
  cases phase with
  | index => exact Worker.Indexed.trans hfirst hsecond
  | retrieve => exact Worker.Retrieved.trans hfirst hsecond
  | deal => exact Worker.Dealt.trans hfirst hsecond

/-- Of fewer pieces it can be said that they stay. -/
lemma Phase.Leaves.mono {phase : Phase} (hleaves : phase.Leaves stays w w')
    (himp : ∀ key, stays' key → stays key) : phase.Leaves stays' w w' := by
  cases phase with
  | index =>
    obtain ⟨hretrievals, hdeals, hrecords⟩ := hleaves
    exact ⟨hretrievals, hdeals, fun key hstays => hrecords key (himp key hstays)⟩
  | retrieve => exact hleaves
  | deal => exact hleaves

/-! ## The changes of each phase -/

/-- The index phase may move the cursor. -/
lemma Worker.indexed_cursor (w : Worker) (cursor : Epoch) :
    w.Indexed stays { w with cursor } :=
  ⟨rfl, rfl, (Phase.leaves_rfl .index w).records⟩

/-- The index phase may add a deal to a piece. -/
lemma Worker.indexed_modify (w : Worker) (key : Cid) (record : DealRecord) :
    w.Indexed stays { w with pieces := w.pieces.modify key (·.add record) } where
  retrievals_eq := rfl
  deals_eq := rfl
  records := by
    intro other _ piece later hpiece hlater
    rw [find?_modify] at hlater
    split at hlater
    · next heq =>
      rw [← heq, hpiece] at hlater
      obtain rfl := Option.some.inj hlater
      exact piece.records_prefix_add record
    · obtain rfl := Option.some.inj (hpiece.symm.trans hlater)
      exact List.prefix_refl _

/-- The index phase may put in a piece that was not there. -/
lemma Worker.indexed_insert {w : Worker} (hnew : key ∉ w.pieces.keys) (piece : Piece) :
    w.Indexed stays { w with pieces := w.pieces.insert key piece } where
  retrievals_eq := rfl
  deals_eq := rfl
  records := by
    intro other _ known later hknown hlater
    have hne : other ≠ key := by
      rintro rfl
      exact hnew (mem_keys_of_find? hknown)
    rw [find?_insert_of_ne hne (mem_keys_of_find? hlater)] at hlater
    obtain rfl := Option.some.inj (hknown.symm.trans hlater)
    exact List.prefix_refl _

/-- The retrieval phase may do with the pending retrievals what it likes. -/
lemma Worker.retrieved_retrievals (w : Worker) (retrievals : BoundedMap QueryResponse) :
    w.Retrieved { w with retrievals } :=
  ⟨rfl, rfl, rfl, .refl _, fun _ => rfl⟩

/-- The retrieval phase may change a piece in what is not counted among its deals. -/
lemma Worker.retrieved_modify (w : Worker) (key : Cid) {f : Piece → Piece}
    (hf : ∀ piece, (f piece).uncounted = piece.uncounted) :
    w.Retrieved { w with pieces := w.pieces.modify key f } where
  cursor_eq := rfl
  deals_eq := rfl
  capacity_eq := capacity_modify
  keys_perm := (List.perm_ext_iff_of_nodup keys_nodup keys_nodup).2 fun _ => mem_keys_modify
  pieces_eq other := by
    rw [find?_modify]
    split
    · next heq =>
      rw [heq, Option.map_map]
      exact Option.map_congr fun piece _ => hf piece
    · rfl

/-- The deal phase may do with the deals what it likes. -/
lemma Worker.dealt_deals (w : Worker) (deals : BoundedMap Cid) : w.Dealt { w with deals } :=
  ⟨rfl, rfl, rfl, fun _ _ => id⟩

/-- The deal phase may drop a piece. -/
lemma Worker.dealt_erase (w : Worker) (key : Cid) :
    w.Dealt { w with pieces := w.pieces.erase key } where
  cursor_eq := rfl
  retrievals_eq := rfl
  capacity_eq := capacity_erase
  pieces_eq other piece hpiece := by
    rw [find?_erase] at hpiece
    split at hpiece
    · cases hpiece
    · exact hpiece

/-- The deal phase may look a piece up. -/
lemma Worker.dealt_touch (w : Worker) (key : Cid) :
    w.Dealt { w with pieces := w.pieces.touch key } where
  cursor_eq := rfl
  retrievals_eq := rfl
  capacity_eq := capacity_touch
  pieces_eq _ _ hpiece := find?_touch.symm.trans hpiece

/-- The retrieval phase may look a piece up. -/
lemma Worker.retrieved_touch (w : Worker) (key : Cid) :
    w.Retrieved { w with pieces := w.pieces.touch key } :=
  w.retrieved_modify key fun _ => rfl

end PieceReplication
