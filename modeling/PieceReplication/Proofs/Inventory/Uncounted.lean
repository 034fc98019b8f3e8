import PieceReplication.Proofs.Conduct.Invariant

/-!
# States without the counts of failed queries

What the counts of failed queries have to do with the rest of the state: nothing.  `uncounted`
forgets them, of a record, of a piece and of the state of the worker, and every operation on the
state can be done after forgetting as well as before.  For the inventory this rests on
`BoundedMap.map`, which changes the values of a map and neither its keys nor their order.

Two states are level (`Worker.Level`) if they differ in counts of failed queries at most.
-/

namespace PieceReplication

/-! ## Maps with other values -/

namespace BoundedMap

variable {α β : Type} {m : BoundedMap α} {key : Cid} {value : α} {f : α → β}

/-- The map with each value changed, under the same keys and in the same order. -/
def map (f : α → β) (m : BoundedMap α) : BoundedMap β where
  capacity := m.capacity
  entries := m.entries.map (Prod.map id f)
  nodup_keys := by
    rw [List.map_map]
    exact m.nodup_keys
  size_le := by
    rw [List.length_map]
    exact m.size_le

@[simp] lemma keys_map : (m.map f).keys = m.keys := by
  simp [keys, map, Function.comp_def]

@[simp] lemma size_map : (m.map f).size = m.size :=
  List.length_map _

@[simp] lemma find?_map : (m.map f).find? key = (m.find? key).map f := by
  unfold find? map
  rw [List.find?_map, Option.map_map, Option.map_map]
  rfl

@[simp] lemma contains_map : (m.map f).contains key = m.contains key := by
  simp [contains]

lemma others_map : (m.map f).others key = (m.others key).map (Prod.map id f) := by
  unfold others map
  rw [List.filter_map]
  rfl

lemma map_erase : (m.erase key).map f = (m.map f).erase key :=
  ext rfl others_map.symm

lemma map_insert : (m.insert key value).map f = (m.map f).insert key (f value) := by
  refine ext rfl ?_
  change List.map _ (List.drop _ (m.others key ++ [(key, value)])) =
    List.drop _ ((m.map f).others key ++ [(key, f value)])
  rw [others_map, List.map_drop, List.map_append, List.length_append, List.length_append,
    List.length_map]
  rfl

/-- Changing a value and forgetting something of it is changing what is left of it. -/
lemma map_modify {g : α → α} {g' : β → β} (hg : ∀ value, f (g value) = g' (f value)) :
    (m.modify key g).map f = (m.map f).modify key g' := by
  cases hfind : m.find? key with
  | none =>
    have habsent := find?_eq_none_iff.1 hfind
    rw [modify_of_notMem habsent, modify_of_notMem (by simpa using habsent)]
  | some value =>
    have hfind' : (m.map f).find? key = some (f value) := by rw [find?_map, hfind, Option.map_some]
    refine ext (by simp [map]) ?_
    rw [entries_modify_of_find? hfind', others_map, ← hg]
    change (m.modify key g).entries.map _ = _
    rw [entries_modify_of_find? hfind, List.map_append]
    rfl

lemma map_touch : (m.touch key).map f = (m.map f).touch key :=
  map_modify fun _ => rfl

/-- A key that was just looked up is looked up again without effect. -/
lemma touch_touch : (m.touch key).touch key = m.touch key := by
  cases hfind : m.find? key with
  | none =>
    rw [touch, touch, modify_of_notMem (find?_eq_none_iff.1 hfind),
      modify_of_notMem (find?_eq_none_iff.1 hfind)]
  | some value =>
    have hagain : (m.touch key).find? key = some value := find?_touch.trans hfind
    refine ext (by simp) ?_
    have hentries : (m.touch key).entries = m.others key ++ [(key, value)] :=
      entries_modify_of_find? hfind
    rw [touch, entries_modify_of_find? hagain, hentries]
    refine congrArg (· ++ [(key, value)]) ?_
    rw [others, hentries, List.filter_append]
    simp [others]

/-- A change of a value that is forgotten is a look-up. -/
lemma map_modify_eq_touch {g : α → α} (hg : ∀ value, f (g value) = f value) :
    (m.modify key g).map f = (m.touch key).map f := by
  rw [map_touch]
  exact map_modify hg

end BoundedMap

/-! ## Records, pieces and states without their tries -/

/-- What a record says of its deal: all but the count of failed queries. -/
def DealRecord.uncounted (record : DealRecord) : DealRecord :=
  { record with tries := 0 }

/-- The deals of a piece, in the order in which they were recorded. -/
def Piece.deals (piece : Piece) : List DealRecord :=
  piece.records.map DealRecord.uncounted

namespace Piece

variable {piece : Piece}

/-- The piece without the counts of failed queries. -/
def uncounted (piece : Piece) : Piece :=
  ⟨piece.deals⟩

lemma containsDeal_uncounted (dealId : DealId) :
    piece.uncounted.containsDeal dealId = piece.containsDeal dealId := by
  simp [uncounted, deals, containsDeal, List.any_map, Function.comp_def, DealRecord.uncounted]

lemma payload?_uncounted : piece.uncounted.payload? = piece.payload? := by
  simp [uncounted, deals, payload?, List.head?_map, Function.comp_def, DealRecord.uncounted]

lemma uncounted_add (record : DealRecord) :
    (piece.add record).uncounted = piece.uncounted.add record.uncounted := by
  have hcontains : piece.uncounted.containsDeal record.uncounted.dealId =
      piece.containsDeal record.dealId := containsDeal_uncounted _
  rw [add, add, hcontains]
  split
  · rfl
  · simp [uncounted, deals]

lemma uncounted_setTries (index : Nat) (tries : UInt64) :
    (piece.setTries index tries).uncounted = piece.uncounted :=
  congrArg Piece.mk (map_records_setTries (fun _ _ => rfl) piece index tries)

/-- Under which deals a piece can be retrieved, by their numbers. -/
lemma map_val_retrievable :
    piece.retrievable.map Fin.val = (List.range piece.records.length).filter fun i =>
      (piece.records[i]?.map DealRecord.isRetrievable).getD false := by
  rw [retrievable, ← List.map_coe_finRange_eq_range, List.filter_map]
  refine congrArg (List.map Fin.val) (List.filter_congr fun i _ => ?_)
  simp

variable {piece' : Piece}

/-- The records under a number differ in the count of failed queries at most. -/
lemma map_getElem?_eq (hlevel : piece.uncounted = piece'.uncounted) (i : Nat) :
    piece.records[i]?.map DealRecord.uncounted = piece'.records[i]?.map DealRecord.uncounted := by
  have hdeals : piece.deals = piece'.deals := congrArg Piece.records hlevel
  simpa [deals] using congrArg (·[i]?) hdeals

/-- Under which deals a piece can be retrieved does not depend on the counts of failed queries. -/
lemma map_val_retrievable_eq (hlevel : piece.uncounted = piece'.uncounted) :
    piece.retrievable.map Fin.val = piece'.retrievable.map Fin.val := by
  have hdeals : piece.deals = piece'.deals := congrArg Piece.records hlevel
  have hlength : piece.records.length = piece'.records.length := by
    simpa [deals] using congrArg List.length hdeals
  have hretrievable (record? : Option DealRecord) : record?.map DealRecord.isRetrievable =
      (record?.map DealRecord.uncounted).map DealRecord.isRetrievable := by
    cases record? <;> rfl
  rw [map_val_retrievable, map_val_retrievable, hlength]
  refine List.filter_congr fun i _ => ?_
  rw [hretrievable piece.records[i]?, map_getElem?_eq hlevel, ← hretrievable]

/-- Records with the same number differ in the count of failed queries at most. -/
lemma uncounted_get_eq (hlevel : piece.uncounted = piece'.uncounted) {i : Fin piece.records.length}
    {i' : Fin piece'.records.length} (heq : i.val = i'.val) :
    (piece.records.get i).uncounted = (piece'.records.get i').uncounted := by
  have hrecord : piece.records[i.val]?.map DealRecord.uncounted =
      piece'.records[i'.val]?.map DealRecord.uncounted := by
    rw [map_getElem?_eq hlevel, heq]
  simpa using hrecord

end Piece

namespace Worker

/-- The state without the counts of failed queries. -/
def uncounted (w : Worker) : Worker :=
  { w with pieces := w.pieces.map Piece.uncounted }

/-- Whether two states differ in counts of failed queries at most. -/
def Level (w w' : Worker) : Prop :=
  w.uncounted = w'.uncounted

lemma level_rfl (w : Worker) : w.Level w :=
  rfl

namespace Level

variable {w w' : Worker} {key : Cid}

lemma cursor_eq (hlevel : w.Level w') : w.cursor = w'.cursor := by
  have h := congrArg Worker.cursor hlevel
  exact h

lemma retrievals_eq (hlevel : w.Level w') : w.retrievals = w'.retrievals := by
  have h := congrArg Worker.retrievals hlevel
  exact h

lemma deals_eq (hlevel : w.Level w') : w.deals = w'.deals := by
  have h := congrArg Worker.deals hlevel
  exact h

lemma pieces_eq (hlevel : w.Level w') :
    w.pieces.map Piece.uncounted = w'.pieces.map Piece.uncounted := by
  have h := congrArg Worker.pieces hlevel
  exact h

/-- Level states have the same pieces, in the same order. -/
lemma keys_eq (hlevel : w.Level w') : w.pieces.keys = w'.pieces.keys := by
  simpa using congrArg BoundedMap.keys hlevel.pieces_eq

/-- Level states show the same figures. -/
lemma stats_eq (hlevel : w.Level w') : w.stats = w'.stats := by
  have hsize : w.pieces.size = w'.pieces.size := by
    simpa using congrArg BoundedMap.size hlevel.pieces_eq
  rw [stats, stats, hlevel.cursor_eq, hlevel.retrievals_eq, hlevel.deals_eq, hsize]

lemma find?_eq (hlevel : w.Level w') (key : Cid) :
    (w.pieces.find? key).map Piece.uncounted = (w'.pieces.find? key).map Piece.uncounted := by
  simpa using congrArg (BoundedMap.find? · key) hlevel.pieces_eq

lemma contains_eq (hlevel : w.Level w') (key : Cid) :
    w.pieces.contains key = w'.pieces.contains key := by
  simpa using congrArg (BoundedMap.contains · key) hlevel.pieces_eq

/-- States with level inventories that are alike otherwise are level. -/
lemma with_pieces (hlevel : w.Level w') {pieces pieces' : BoundedMap Piece}
    (hpieces : pieces.map Piece.uncounted = pieces'.map Piece.uncounted) :
    Level { w with pieces } { w' with pieces := pieces' } := by
  unfold Level uncounted
  rw [hpieces, hlevel.cursor_eq, hlevel.retrievals_eq, hlevel.deals_eq]

lemma touch (hlevel : w.Level w') (key : Cid) :
    Level { w with pieces := w.pieces.touch key } { w' with pieces := w'.pieces.touch key } :=
  hlevel.with_pieces (by rw [BoundedMap.map_touch, BoundedMap.map_touch, hlevel.pieces_eq])

lemma erase (hlevel : w.Level w') (key : Cid) :
    Level { w with pieces := w.pieces.erase key } { w' with pieces := w'.pieces.erase key } :=
  hlevel.with_pieces (by rw [BoundedMap.map_erase, BoundedMap.map_erase, hlevel.pieces_eq])

lemma eraseRetrieval (hlevel : w.Level w') :
    Level { w with retrievals := w.retrievals.erase key }
      { w' with retrievals := w'.retrievals.erase key } := by
  unfold Level uncounted
  rw [hlevel.cursor_eq, hlevel.retrievals_eq, hlevel.deals_eq, hlevel.pieces_eq]

lemma insert (hlevel : w.Level w') (key : Cid) (piece : Piece) :
    Level { w with pieces := w.pieces.insert key piece }
      { w' with pieces := w'.pieces.insert key piece } :=
  hlevel.with_pieces (by rw [BoundedMap.map_insert, BoundedMap.map_insert, hlevel.pieces_eq])

lemma modify (hlevel : w.Level w') (key : Cid) (record : DealRecord) :
    Level { w with pieces := w.pieces.modify key (·.add record) }
      { w' with pieces := w'.pieces.modify key (·.add record) } := by
  have hadd : ∀ m : BoundedMap Piece, (m.modify key (·.add record)).map Piece.uncounted =
      (m.map Piece.uncounted).modify key (·.add record.uncounted) :=
    fun m => BoundedMap.map_modify fun _ => Piece.uncounted_add record
  exact hlevel.with_pieces (by rw [hadd, hadd, hlevel.pieces_eq])

/-- A count of failed queries of a piece that was just looked up leaves states level. -/
lemma setTries_left (hlevel : w.Level w') (hlast : w.pieces.touch key = w.pieces) (index : Nat)
    (tries : UInt64) :
    Level { w with pieces := w.pieces.modify key (·.setTries index tries) } w' := by
  have hpieces : (w.pieces.modify key (·.setTries index tries)).map Piece.uncounted =
      w'.pieces.map Piece.uncounted := by
    rw [BoundedMap.map_modify_eq_touch fun _ => Piece.uncounted_setTries index tries, hlast,
      hlevel.pieces_eq]
  exact hlevel.with_pieces hpieces

end Level

end Worker

end PieceReplication
