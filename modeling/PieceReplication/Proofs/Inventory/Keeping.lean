import PieceReplication.Proofs.Conduct.Invariant
import PieceReplication.Proofs.Conduct.Tick
import PieceReplication.Proofs.Inventory.Recency
import PieceReplication.Proofs.Run.Session

/-!
# No piece is lost without cause

A piece of the inventory stands for deals that were found on the chain, and the index phase does not
come back to the epochs where they stand.  So a piece that is lost is lost for good.  Here it is
shown that a piece leaves the inventory for three causes only: a new piece was put into the full
inventory while this one was used the longest ago, the deal that was started for it is active, or
the local miner serves its payload.  Whatever else happens, the piece stays with all its records, in
which only failed queries are counted.
-/

namespace PieceReplication

open History BoundedMap

variable {setup : Setup} {h : History} {w : Worker} {occurrence : Occurrence} {key : Cid}

/-- The inventory after a history. -/
def History.pieces (setup : Setup) (h : History) : BoundedMap Piece :=
  (worker setup.config h).pieces

/-- Whether a piece was in the inventory all the time from an earlier moment to a later one. -/
def History.Stays (setup : Setup) (key : Cid) (earlier later : History) : Prop :=
  earlier <:+ later ∧
    ∀ between, earlier <:+ between → between <:+ later → key ∈ (pieces setup between).keys

/-! ## The records of a piece -/

/-- How the records of a piece are kept, after a history, in a later state of the piece. -/
inductive RecordsKept (h : History) (key : Cid) (piece later : Piece) : Prop where
  /-- All records stay as they are, and others may follow. -/
  | all (hextends : piece.records <+: later.records)
  /-- A query to the provider of a deal has just failed, which is counted in the record. -/
  | counted {index record failure tries}
    (hreply : lastReply? h = some ⟨.retrievalScan key index,
      .query record.root record.provider, .error failure⟩)
    (hrecord : piece.records[index]? = some record)
    (htries : tries.toNat = record.tries.toNat + 1)
    (hlater : later = piece.setTries index tries)

/-- An unchanged piece keeps its records. -/
lemma recordsKept_rfl (h : History) (key : Cid) (piece : Piece) :
    RecordsKept h key piece piece :=
  .all (List.prefix_refl _)

/-- A piece to which a deal is added keeps its records. -/
lemma Piece.records_prefix_add (piece : Piece) (record : DealRecord) :
    piece.records <+: (piece.add record).records := by
  unfold Piece.add
  split
  · exact List.prefix_refl _
  · exact List.prefix_append _ _

/-- The next count of failed queries is one more. -/
lemma Retrieval.toNat_nextTry {tries next : UInt64} (hnext : nextTry tries = .ok next) :
    next.toNat = tries.toNat + 1 := by
  unfold nextTry at hnext
  split at hnext
  · next hfits =>
    obtain rfl := Except.ok.inj hnext
    rw [UInt64.toNat_add]
    exact Nat.mod_eq_of_lt hfits
  · cases hnext

/-! ## Causes -/

/-- Why a piece leaves the inventory at an occurrence. -/
inductive Loss (setup : Setup) (h : History) (occurrence : Occurrence) (key : Cid) : Prop where
  /-- A piece that was just found, and was not in the inventory, is put into it while it is full,
  and the lost piece is the one that was used the longest ago. -/
  | evicted {dealId deal} (hfinds : Finds setup h dealId deal)
    (hnew : deal.proposal.piece ∉ (pieces setup h).keys)
    (hoccurrence : occurrence = .became { worker setup.config h with
      pieces := (pieces setup h).insert deal.proposal.piece (.ofRecord (.ofDeal dealId deal)) })
    (hfull : (pieces setup h).size = setup.capacity)
    (holdest : (pieces setup h).keys.head? = some key)
  /-- The deal that is followed for it is active, or the local miner serves its payload. -/
  | dropped (hdrops : Drops setup h key)

/-- A piece that a change takes out of the inventory is lost with cause. -/
lemma Changes.loss (hbounded : (worker setup.config h).Bounded setup)
    (hchanges : Changes setup h w) (hmem : key ∈ (pieces setup h).keys)
    (hgone : key ∉ w.pieces.keys) : Loss setup h (.became w) key := by
  cases hchanges with
  | addToPiece hfinds hknown => exact absurd (mem_keys_modify.2 hmem) hgone
  | touchPiece other hpart hwalk => exact absurd (mem_keys_touch.2 hmem) hgone
  | countTry hpart hrecord hreply htries => exact absurd (mem_keys_modify.2 hmem) hgone
  | addPiece hfinds hnew =>
    obtain ⟨hfull, holdest⟩ := oldest_of_notMem_insert hnew hmem hgone
    exact .evicted hfinds hnew rfl (hfull.trans hbounded.pieces) holdest
  | @drop other hdrops =>
    by_cases hne : key = other
    · exact .dropped (hne ▸ hdrops)
    · exact absurd (mem_keys_erase.2 ⟨hne, hmem⟩) hgone
  | _ => exact absurd hmem hgone

/-- A change keeps the records of each piece that stays. -/
lemma Changes.recordsKept (hchanges : Changes setup h w) {piece later : Piece}
    (hpiece : (pieces setup h).find? key = some piece)
    (hlater : w.pieces.find? key = some later) : RecordsKept h key piece later := by
  have hsame : (pieces setup h).find? key = some later → RecordsKept h key piece later := by
    intro hfound
    obtain rfl := Option.some.inj (hpiece.symm.trans hfound)
    exact recordsKept_rfl h key piece
  -- a change of a piece is one of this piece, or this piece stays as it is
  have hmodified : ∀ {other : Cid} {f : Piece → Piece},
      ((pieces setup h).modify other f).find? key = some later →
        key = other ∧ later = f piece ∨ RecordsKept h key piece later := by
    intro other f hfound
    rw [find?_modify] at hfound
    split at hfound
    · next heq =>
      rw [← heq, hpiece] at hfound
      exact .inl ⟨heq, (Option.some.inj hfound).symm⟩
    · exact .inr (hsame hfound)
  cases hchanges with
  | addToPiece hfinds hknown =>
    rcases hmodified hlater with ⟨-, rfl⟩ | hkept
    · exact .all (piece.records_prefix_add _)
    · exact hkept
  | touchPiece other hpart hwalk => exact hsame (find?_touch.symm.trans hlater)
  | countTry hpart hrecord hreply htries =>
    rcases hmodified hlater with ⟨rfl, hcounted⟩ | hkept
    · rw [Worker.record?, show (worker setup.config h).pieces.find? key = some piece from hpiece]
        at hrecord
      exact .counted hreply hrecord (Retrieval.toNat_nextTry htries) hcounted
    · exact hkept
  | addPiece hfinds hnew =>
    refine hsame ?_
    rwa [find?_insert_of_ne ?_ (mem_keys_of_find? hlater)] at hlater
    rintro rfl
    exact hnew (mem_keys_of_find? hpiece)
  | drop hdrops =>
    rw [find?_erase] at hlater
    split at hlater
    · cases hlater
    · exact hsame hlater
  | _ => exact hsame hlater

/-! ## The keeping of the pieces -/

/-- How the pieces are kept, at an occurrence and the history before it. -/
structure PiecesKept (setup : Setup) (h : History) (occurrence : Occurrence) : Prop where
  /-- Unless the driver breaks off, a piece leaves the inventory with cause only. -/
  leaves : occurrence ≠ .brokeOff → ∀ key ∈ (pieces setup h).keys,
    key ∉ (pieces setup (occurrence :: h)).keys → Loss setup h occurrence key
  /-- A piece that stays keeps its records. -/
  keeps : ∀ key piece later, (pieces setup h).find? key = some piece →
    (pieces setup (occurrence :: h)).find? key = some later → RecordsKept h key piece later

/-- What does not change the inventory keeps the pieces. -/
lemma PiecesKept.of_eq (heq : pieces setup (occurrence :: h) = pieces setup h) :
    PiecesKept setup h occurrence where
  leaves _ key hmem hgone := by
    rw [heq] at hgone
    exact absurd hmem hgone
  keeps key piece later hpiece hlater := by
    rw [heq] at hlater
    obtain rfl := Option.some.inj (hpiece.symm.trans hlater)
    exact recordsKept_rfl h key piece

/-- Proper conduct keeps the pieces. -/
lemma PiecesKept.of_conduct (hearlier : Along (Conduct setup) h)
    (hconduct : Conduct setup h occurrence) : PiecesKept setup h occurrence := by
  cases occurrence with
  | became w =>
    obtain hchanges | ⟨other, proposal, -, -, rfl⟩ := hconduct.changes_or_starts
    · exact ⟨fun _ _ => hchanges.loss (bounded_of_along hearlier),
        fun _ _ _ => hchanges.recordsKept⟩
    · exact .of_eq rfl
  | brokeOff =>
    refine ⟨fun hne => absurd rfl hne, ?_⟩
    rintro key piece later hpiece ⟨⟩
  | _ => exact .of_eq rfl

/-- **No piece is lost without cause.**  In each life of a replicator, whatever its surroundings
supply, a piece leaves the inventory only to make room for a new one while it was used the longest
ago, or because its deal is active, or because the local miner serves it; otherwise it stays with
all its records. -/
theorem Life.pieces_kept {events : List Event} {replicator : Replicator}
    (life : Life setup events replicator) : Along (PiecesKept setup) (trace events) :=
  life.conduct.imp_of_along fun _ _ => PiecesKept.of_conduct

/-- The pieces are kept in a life in which four come into the inventory and two of them leave it,
because the local miner serves them. -/
theorem Life.pieces_kept_crowded :
    ∃ events, Life Sample.crowdedSetup events Sample.crowdedSession.replicator ∧
      (pieces Sample.crowdedSetup (trace events)).keys = [⟨"fourth"⟩, ⟨"first"⟩] ∧
      Along (PiecesKept Sample.crowdedSetup) (trace events) := by
  obtain ⟨events, life, htrace⟩ := Sample.showsLife_crowdedSession
  refine ⟨events, life, ?_, life.pieces_kept⟩
  rw [htrace]
  decide +kernel

end PieceReplication
