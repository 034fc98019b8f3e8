import PieceReplication.Proofs.Inventory.Lookup

/-!
# Selected entries of bounded maps

A walk over a bounded map that erases some entries, and uses or keeps the others, leaves a selection
of the entries (`filter`), in the order of the walk.  This file says what a selection holds, and
what the operations do to a single entry whose place is known.
-/

namespace PieceReplication.BoundedMap

variable {α : Type} {m : BoundedMap α} {key : Cid} {value : α}
  {before after : List (Cid × α)} {p : Cid × α → Bool}

/-- The map with the entries that satisfy a condition only, in their order. -/
def filter (m : BoundedMap α) (p : Cid × α → Bool) : BoundedMap α where
  capacity := m.capacity
  entries := m.entries.filter p
  nodup_keys := m.nodup_keys.sublist ((List.filter_sublist).map _)
  size_le := Nat.le_trans (List.length_filter_le _ _) m.size_le

/-- What a selection finds under a key is what the map finds, if it was selected. -/
lemma find?_filter_eq_some_iff :
    (m.filter p).find? key = some value ↔ m.find? key = some value ∧ p (key, value) = true := by
  rw [find?_eq_some_iff, find?_eq_some_iff, filter, List.mem_filter]

/-- If the condition is one on the keys, a selection finds the selected keys as before. -/
lemma find?_filter_fst {p : Cid → Bool} :
    (m.filter fun entry => p entry.1).find? key = if p key then m.find? key else none := by
  refine Option.ext fun value => ?_
  rw [find?_filter_eq_some_iff]
  split <;> simp_all

/-- A selection of all entries is the map. -/
lemma filter_eq_self (h : ∀ entry ∈ m.entries, p entry = true) : m.filter p = m :=
  ext rfl (List.filter_eq_self.2 h)

/-- Erasing a key is a selection. -/
lemma erase_filter : (m.filter p).erase key = m.filter fun entry => entry.1 != key && p entry :=
  ext rfl List.filter_filter

/-! ## Single entries -/

/-- A key is none of those before it. -/
lemma notMem_of_keys_eq {before after : List Cid} (h : m.keys = before ++ key :: after) :
    key ∉ before := by
  have hnodup := m.nodup_keys
  rw [← keys, h] at hnodup
  exact fun hmem => (List.nodup_append.1 hnodup).2.2 key hmem key List.mem_cons_self rfl

/-- The entries beside one are those before it and those after it. -/
lemma others_of_entries_eq (h : m.entries = before ++ (key, value) :: after) :
    m.others key = before ++ after := by
  have hnodup := m.nodup_keys
  rw [h, List.map_append, List.map_cons, List.nodup_append, List.nodup_cons] at hnodup
  obtain ⟨-, ⟨hafter, -⟩, hdisjoint⟩ := hnodup
  have hne : ∀ entry ∈ before ++ after, (entry.1 != key) = true := by
    intro entry hentry
    rw [bne_iff_ne]
    rintro rfl
    rcases List.mem_append.1 hentry with hbefore | hlater
    · exact hdisjoint _ (List.mem_map_of_mem hbefore) _ List.mem_cons_self rfl
    · have hmem : entry.1 ∈ after.map Prod.fst := List.mem_map_of_mem hlater
      exact hafter hmem
  rw [others, h, List.filter_append, List.filter_cons_of_neg (by simp), ← List.filter_append,
    List.filter_eq_self.2 hne]

/-- The first entry is found under its key. -/
lemma find?_of_entries_eq_cons (h : m.entries = (key, value) :: after) :
    m.find? key = some value :=
  find?_eq_some_iff.2 (h ▸ List.mem_cons_self)

/-- A use of the first entry puts it last. -/
lemma entries_touch_of_entries_eq_cons (h : m.entries = (key, value) :: after) :
    (m.touch key).entries = after ++ [(key, value)] := by
  have hothers : m.others key = [] ++ after := others_of_entries_eq h
  rw [touch, entries_modify_of_find? (find?_of_entries_eq_cons h), hothers, List.nil_append, id]

end PieceReplication.BoundedMap
