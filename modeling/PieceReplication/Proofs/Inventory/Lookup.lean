import Mathlib.Data.List.Dedup
import Mathlib.Data.List.Perm.Subperm
import Mathlib.Tactic.Common
import PieceReplication.Inventory.BoundedMap

/-!
# Looking up bounded maps

The view of a bounded map is its look-up `find?` together with the list `keys` of its keys.  This
file says what each operation does to the capacity, to the look-up and to the presence of keys, so
that no later proof opens an operation.  The order of the keys is the subject of
`Proofs/Inventory/Recency.lean`.
-/

namespace PieceReplication.BoundedMap

variable {α : Type} {m : BoundedMap α} {key other : Cid} {value : α} {f : α → α}

/-! ## Capacity -/

/-- Erasing keeps the capacity. -/
@[simp] lemma capacity_erase : (m.erase key).capacity = m.capacity := rfl

/-- Inserting keeps the capacity. -/
@[simp] lemma capacity_insert : (m.insert key value).capacity = m.capacity := rfl

/-- Changing a value keeps the capacity. -/
@[simp] lemma capacity_modify : (m.modify key f).capacity = m.capacity := by
  unfold modify
  split <;> rfl

/-- A look-up keeps the capacity. -/
@[simp] lemma capacity_touch : (m.touch key).capacity = m.capacity :=
  capacity_modify

/-- The size is the number of keys. -/
lemma size_eq_length_keys : m.size = m.keys.length := by
  rw [size, keys, List.length_map]

/-- Erasing brings in no entry. -/
lemma size_erase_le : (m.erase key).size ≤ m.size :=
  length_others_le m key

/-- Inserting brings in one key at most. -/
lemma length_keys_insert_le : (m.insert key value).keys.length ≤ m.keys.length + 1 := by
  rw [← size_eq_length_keys, ← size_eq_length_keys, size, insert]
  simp only [List.length_drop, List.length_append, List.length_singleton]
  have hothers : (m.others key).length ≤ m.size := length_others_le m key
  omega

/-- Maps with the same capacity and the same entries are equal. -/
lemma ext {m m' : BoundedMap α} (hcapacity : m.capacity = m'.capacity)
    (hentries : m.entries = m'.entries) : m = m' := by
  cases m
  cases m'
  cases hcapacity
  cases hentries
  rfl

/-! ## Presence -/

/-- A look-up finds a value exactly when the key is present. -/
lemma find?_isSome_iff : (m.find? key).isSome ↔ key ∈ m.keys := by
  simp [find?, keys]

/-- A key is present exactly when it is among the keys. -/
@[simp] lemma contains_iff : m.contains key = true ↔ key ∈ m.keys :=
  find?_isSome_iff

/-- A look-up that finds a value found the key present. -/
lemma mem_keys_of_find? (h : m.find? key = some value) : key ∈ m.keys :=
  find?_isSome_iff.1 (by rw [h]; rfl)

/-- A look-up of a present key finds a value. -/
lemma exists_find? (h : key ∈ m.keys) : ∃ value, m.find? key = some value :=
  Option.isSome_iff_exists.1 (find?_isSome_iff.2 h)

/-- A look-up fails exactly when the key is absent. -/
lemma find?_eq_none_iff : m.find? key = none ↔ key ∉ m.keys := by
  rw [← find?_isSome_iff, Option.not_isSome_iff_eq_none]

/-- A look-up finds the value of the one entry with its key. -/
lemma find?_eq_some_iff : m.find? key = some value ↔ (key, value) ∈ m.entries := by
  constructor
  · intro h
    obtain ⟨entry, hentry, rfl⟩ := Option.map_eq_some_iff.1 h
    have hkey : entry.1 = key := by simpa using List.find?_some hentry
    rw [← hkey]
    exact List.mem_of_find?_eq_some hentry
  · intro hmem
    obtain ⟨found, hfound⟩ := exists_find? (m := m) (List.mem_map_of_mem (f := Prod.fst) hmem)
    obtain ⟨entry, hentry, rfl⟩ := Option.map_eq_some_iff.1 hfound
    have hkey : entry.1 = key := by simpa using List.find?_some hentry
    have heq : entry = (key, value) :=
      List.inj_on_of_nodup_map m.nodup_keys (List.mem_of_find?_eq_some hentry) hmem hkey
    rw [hfound, heq]

/-- A map whose keys are among those of another one, which has one more, has room left in the bounds
of the other one. -/
lemma size_lt_capacity {β : Type} {bound : BoundedMap β}
    (hsubset : ∀ key ∈ m.keys, key ∈ bound.keys)
    (hmem : key ∈ bound.keys) (hnotMem : key ∉ m.keys) : m.size < bound.capacity := by
  have hsub : (key :: m.keys).Subperm bound.keys :=
    List.subperm_of_subset (List.nodup_cons.2 ⟨hnotMem, m.nodup_keys⟩)
      (List.cons_subset.2 ⟨hmem, hsubset⟩)
  calc m.size < (key :: m.keys).length := by
        rw [List.length_cons, size_eq_length_keys]
        exact Nat.lt_succ_self _
    _ ≤ bound.keys.length := hsub.length_le
    _ = bound.size := size_eq_length_keys.symm
    _ ≤ bound.capacity := bound.size_le

/-- The entries are the keys with what is found under them. -/
lemma entries_eq_filterMap :
    m.entries = m.keys.filterMap fun key => (m.find? key).map (Prod.mk key) := by
  rw [keys, List.filterMap_map]
  have hself : ∀ entry ∈ m.entries,
      ((fun key => (m.find? key).map (Prod.mk key)) ∘ Prod.fst) entry = some entry := by
    intro entry hentry
    rw [Function.comp_apply, find?_eq_some_iff.2 hentry]
    rfl
  rw [List.filterMap_congr hself, List.filterMap_some]

/-- Maps with the same capacity, the same keys in the same order and the same values under them are
equal. -/
lemma ext_of_find? {m m' : BoundedMap α} (hcapacity : m.capacity = m'.capacity)
    (hkeys : m.keys = m'.keys) (hfind : ∀ key, m.find? key = m'.find? key) : m = m' := by
  refine ext hcapacity ?_
  rw [entries_eq_filterMap, entries_eq_filterMap, hkeys]
  exact List.filterMap_congr fun key _ => by rw [hfind]

/-! ## Look-ups after an operation -/

/-- The entries under other keys are found as before. -/
lemma find?_others_append (hne : other ≠ key) :
    ((m.others key ++ [(key, value)]).find? fun entry => entry.1 == other) =
      m.entries.find? fun entry => entry.1 == other := by
  rw [List.find?_append, List.find?_singleton, others, List.find?_filter]
  have hkey : ((key, value).1 == other) = false := beq_false_of_ne (Ne.symm hne)
  rw [hkey, if_neg (by decide), Option.or_none]
  congr 1
  funext entry
  by_cases h : entry.1 = other
  · simp [h, hne]
  · simp [h]

/-- The look-up of a key after an entry was put last finds the entry's value. -/
lemma find?_others_append_self :
    ((m.others key ++ [(key, value)]).find? fun entry => entry.1 == key) = some (key, value) := by
  rw [List.find?_append, others, List.find?_filter]
  have hnone : (m.entries.find? fun entry =>
      decide ((entry.1 != key) = true ∧ (entry.1 == key) = true)) = none := by
    rw [List.find?_eq_none]
    intro entry _
    simp
  rw [hnone]
  simp

/-- The entries under other keys than an absent one are all entries. -/
lemma others_of_notMem (h : key ∉ m.keys) : m.others key = m.entries := by
  refine List.filter_eq_self.2 fun entry hentry => bne_iff_ne.2 ?_
  rintro rfl
  exact h (List.mem_map_of_mem hentry)

/-- Erasing an absent key changes nothing. -/
lemma erase_of_notMem (h : key ∉ m.keys) : m.erase key = m :=
  ext rfl (others_of_notMem h)

/-- After erasing a key the other keys are found as before. -/
lemma find?_erase : (m.erase key).find? other = if other = key then none else m.find? other := by
  unfold find? erase others
  rw [List.find?_filter]
  split
  · next h =>
    subst h
    rw [List.find?_eq_none.2, Option.map_none]
    intro entry _
    simp
  · next h =>
    congr 2
    funext entry
    by_cases hentry : entry.1 = other
    · simp [hentry, h]
    · simp [hentry]

/-- Changing the value of a present key puts its entry last. -/
lemma entries_modify_of_find? (h : m.find? key = some value) :
    (m.modify key f).entries = m.others key ++ [(key, f value)] := by
  unfold modify
  split
  · next found hfound =>
    rw [hfound] at h
    cases h
    rfl
  · next hnone =>
    rw [hnone] at h
    cases h

/-- Changing the value of an absent key changes nothing. -/
lemma modify_of_notMem (h : key ∉ m.keys) : m.modify key f = m := by
  unfold modify
  split
  · next found hfound => exact absurd (mem_keys_of_find? hfound) h
  · rfl

/-- After a value was changed the other keys are found as before. -/
lemma find?_modify :
    (m.modify key f).find? other = if other = key then (m.find? key).map f else m.find? other := by
  cases h : m.find? key with
  | none =>
    rw [modify_of_notMem (find?_eq_none_iff.1 h)]
    split
    · next heq => rw [heq, h, Option.map_none]
    · rfl
  | some value =>
    rw [find?, entries_modify_of_find? h]
    split
    · next heq =>
      rw [heq, find?_others_append_self]
      rfl
    · next hne => rw [find?_others_append hne, find?]

/-- A look-up changes no value. -/
@[simp] lemma find?_touch : (m.touch key).find? other = m.find? other := by
  rw [touch, find?_modify]
  split
  · next h => rw [h, Option.map_id, id]
  · rfl

/-- Inserting into a map with room for the key appends the entry. -/
lemma entries_insert_of_lt (habsent : key ∉ m.keys) (hroom : m.size < m.capacity) :
    (m.insert key value).entries = m.entries ++ [(key, value)] := by
  have hlength : m.entries.length + 1 ≤ m.capacity := hroom
  unfold insert
  simp only [others_of_notMem habsent, List.length_append, List.length_singleton]
  rw [Nat.sub_eq_zero_of_le hlength, List.drop_zero]

/-- After an insertion with room for the key, the key is found and the others as before. -/
lemma find?_insert_of_lt (habsent : key ∉ m.keys) (hroom : m.size < m.capacity) :
    (m.insert key value).find? other = if other = key then some value else m.find? other := by
  have hentries : (m.insert key value).entries = m.entries ++ [(key, value)] :=
    entries_insert_of_lt habsent hroom
  split
  · next heq =>
    subst heq
    exact find?_eq_some_iff.2 (hentries ▸ List.mem_concat_self)
  · next hne =>
    rw [find?, hentries, List.find?_append, List.find?_singleton,
      if_neg (by simpa using Ne.symm hne), Option.or_none, find?]

/-- After an insertion another key is found as before, unless it was dropped. -/
lemma find?_insert_of_ne (hne : other ≠ key) (h : other ∈ (m.insert key value).keys) :
    (m.insert key value).find? other = m.find? other := by
  obtain ⟨found, hfound⟩ := exists_find? h
  have hmem : (other, found) ∈ m.entries := by
    have hlast := List.mem_of_mem_drop (find?_eq_some_iff.1 hfound)
    rcases List.mem_append.1 hlast with hother | hself
    · exact (List.mem_filter.1 hother).1
    · exact absurd (congrArg Prod.fst (List.mem_singleton.1 hself)) hne
  rw [hfound, find?_eq_some_iff.2 hmem]

/-- What is found under a key after it was put in is what was put in. -/
lemma eq_of_find?_insert_self {found : α} (h : (m.insert key value).find? key = some found) :
    found = value := by
  have hmem := List.mem_of_mem_drop (find?_eq_some_iff.1 h)
  rcases List.mem_append.1 hmem with hother | hself
  · have hne : key ≠ key := bne_iff_ne.1 (List.mem_filter.1 hother).2
    exact absurd rfl hne
  · exact congrArg Prod.snd (List.mem_singleton.1 hself)

/-! ## Keys after an operation -/

/-- Erasing leaves the other keys. -/
lemma mem_keys_erase : other ∈ (m.erase key).keys ↔ other ≠ key ∧ other ∈ m.keys := by
  rw [← find?_isSome_iff, find?_erase, ← find?_isSome_iff]
  split <;> simp [*]

/-- Changing a value leaves the keys. -/
@[simp] lemma mem_keys_modify : other ∈ (m.modify key f).keys ↔ other ∈ m.keys := by
  rw [← find?_isSome_iff, find?_modify, ← find?_isSome_iff]
  split <;> simp [*]

/-- A look-up leaves the keys. -/
@[simp] lemma mem_keys_touch : other ∈ (m.touch key).keys ↔ other ∈ m.keys :=
  mem_keys_modify

/-- An insertion with room for the key leaves the other keys. -/
lemma mem_keys_insert_of_lt (habsent : key ∉ m.keys) (hroom : m.size < m.capacity)
    (hmem : other ∈ m.keys) : other ∈ (m.insert key value).keys := by
  rw [keys, entries_insert_of_lt habsent hroom, List.map_append]
  exact List.mem_append_left _ hmem

/-- An insertion brings in no key but its own. -/
lemma mem_keys_of_mem_keys_insert (h : other ∈ (m.insert key value).keys) (hne : other ≠ key) :
    other ∈ m.keys := by
  rw [← find?_isSome_iff] at h ⊢
  rwa [find?_insert_of_ne hne (find?_isSome_iff.1 h)] at h

end PieceReplication.BoundedMap
