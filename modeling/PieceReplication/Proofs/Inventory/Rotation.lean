import PieceReplication.Proofs.Inventory.Recency

/-!
# Walks over the keys of a map

A walk over the keys of a bounded map looks each key up when it comes to it, so that the key moves
to the end, and then it may change the value under that key or erase it.  So in the middle of the
walk the keys that are left come first, and those that were visited and are still there follow in
the order in which they were visited (`Rotated`).  A walk that stops in the middle leaves them so.
-/

namespace PieceReplication

/-- The keys of a map in the middle of a walk over its keys. -/
def Rotated (visited left keys : List Cid) : Prop :=
  keys = left ++ visited.filter (· ∈ keys)

namespace BoundedMap

variable {α : Type} {m : BoundedMap α} {key : Cid} {f : α → α} {visited left : List Cid}

/-- A key that a walk has left is there. -/
lemma mem_keys_of_rotated (h : Rotated visited (key :: left) m.keys) : key ∈ m.keys := by
  rw [h]
  exact List.mem_cons_self

/-- A key that was just visited is none of those that are left. -/
lemma notMem_of_rotated (h : Rotated (visited ++ [key]) left m.keys) : key ∉ left := by
  intro hleft
  have hnodup : m.keys.Nodup := keys_nodup
  have hmem : key ∈ m.keys := by
    rw [h]
    exact List.mem_append_left _ hleft
  have hvisited : key ∈ (visited ++ [key]).filter (· ∈ m.keys) :=
    List.mem_filter.2 ⟨List.mem_concat_self, decide_eq_true hmem⟩
  rw [h] at hnodup
  exact (List.nodup_append.1 hnodup).2.2 key hleft key hvisited rfl

/-- A key that was just visited and is still there is the last one of those. -/
lemma filter_concat_of_mem {keys : List Cid} (hmem : key ∈ keys) :
    (visited ++ [key]).filter (· ∈ keys) = visited.filter (· ∈ keys) ++ [key] := by
  have hself : [key].filter (· ∈ keys) = [key] :=
    List.filter_eq_self.2 (List.forall_mem_singleton.2 (decide_eq_true hmem))
  rw [List.filter_append, hself]

/-- The key that was just visited comes last, if it is still there. -/
lemma eq_concat_of_rotated {keys : List Cid} (h : Rotated (visited ++ [key]) left keys)
    (hmem : key ∈ keys) : keys = left ++ visited.filter (· ∈ keys) ++ [key] := by
  rwa [Rotated, filter_concat_of_mem hmem, ← List.append_assoc] at h

/-- The look-up of the next key moves it behind those that were visited. -/
lemma rotated_touch (h : Rotated visited (key :: left) m.keys) :
    Rotated (visited ++ [key]) left (m.touch key).keys := by
  have hmem := mem_keys_of_rotated h
  have hothers : m.keys.filter (· != key) = left ++ visited.filter (· ∈ m.keys) := by
    have heq : m.keys = key :: (left ++ visited.filter (· ∈ m.keys)) := h
    generalize visited.filter (· ∈ m.keys) = kept at heq ⊢
    have hnodup : (key :: (left ++ kept)).Nodup := heq ▸ keys_nodup
    rw [heq, List.filter_cons_of_neg (by simp)]
    refine List.filter_eq_self.2 fun other hother => bne_iff_ne.2 ?_
    rintro rfl
    exact (List.nodup_cons.1 hnodup).1 hother
  have hvisited : (visited ++ [key]).filter (· ∈ (m.touch key).keys) =
      visited.filter (· ∈ m.keys) ++ [key] := by
    simp only [mem_keys_touch, filter_concat_of_mem hmem]
  rw [Rotated, hvisited, keys_touch hmem, hothers, List.append_assoc]

/-- The key that was just visited can be erased. -/
lemma rotated_erase (h : Rotated (visited ++ [key]) left m.keys) :
    Rotated (visited ++ [key]) left (m.erase key).keys := by
  have hleft : left.filter (· != key) = left := by
    refine List.filter_eq_self.2 fun other hother => bne_iff_ne.2 ?_
    rintro rfl
    exact notMem_of_rotated h hother
  have hvisited : ((visited ++ [key]).filter (· ∈ m.keys)).filter (· != key) =
      (visited ++ [key]).filter (· ∈ (m.erase key).keys) := by
    rw [List.filter_filter]
    refine List.filter_congr fun other _ => ?_
    rw [Bool.eq_iff_iff]
    simp only [Bool.and_eq_true, bne_iff_ne, decide_eq_true_eq, mem_keys_erase]
  calc (m.erase key).keys = m.keys.filter (· != key) := keys_erase
    _ = left.filter (· != key) ++ ((visited ++ [key]).filter (· ∈ m.keys)).filter (· != key) := by
      rw [← List.filter_append, ← h]
    _ = left ++ (visited ++ [key]).filter (· ∈ (m.erase key).keys) := by rw [hleft, hvisited]

/-- The next key can be erased without a look-up. -/
lemma rotated_erase_next (h : Rotated visited (key :: left) m.keys) :
    Rotated (visited ++ [key]) left (m.erase key).keys := by
  have hkeys : ((m.touch key).erase key).keys = (m.erase key).keys := by
    rw [keys_erase, keys_erase, keys_touch (mem_keys_of_rotated h), List.filter_append,
      List.filter_filter, List.filter_singleton]
    simp
  exact hkeys ▸ rotated_erase (rotated_touch h)

/-- The value under the key that was just visited can be changed. -/
lemma rotated_modify (h : Rotated (visited ++ [key]) left m.keys) :
    Rotated (visited ++ [key]) left (m.modify key f).keys := by
  by_cases hmem : key ∈ m.keys
  · -- the key is the last one already
    have heq := eq_concat_of_rotated h hmem
    have hkeys : (m.modify key f).keys = m.keys := by
      generalize left ++ visited.filter (· ∈ m.keys) = front at heq
      have hnodup : (front ++ [key]).Nodup := heq ▸ keys_nodup
      rw [keys_modify_eq_concat hmem, heq, List.filter_append, List.filter_cons_of_neg (by simp),
        List.filter_nil, List.append_nil, List.filter_eq_self.2]
      refine fun other hother => bne_iff_ne.2 ?_
      rintro rfl
      exact (List.nodup_append.1 hnodup).2.2 other hother other (List.mem_singleton_self _) rfl
    rwa [hkeys]
  · rwa [modify_of_notMem hmem]

end BoundedMap

end PieceReplication
