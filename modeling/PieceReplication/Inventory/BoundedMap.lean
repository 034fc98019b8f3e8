import PieceReplication.Chain.Basic
import PieceReplication.Settings.Config

/-!
# Bounded maps

A bounded map holds at most `capacity` entries under content identifiers. Its entries are kept in
the order of their last use, the least recent first, and `keys` shows that order. Inserting a key
and looking its value up count as a use; asking whether a key is present does not. An insertion
that would exceed the capacity drops the entry that was used the longest ago. A map carries the
proofs that its keys are distinct and that it keeps within its capacity.

A look-up is the pair of `find?`, which gives the value, and `touch` or `modify`, which give the
map after it.
-/

namespace PieceReplication

/-- A map with a bounded number of entries, in the order of their last use. -/
structure BoundedMap (α : Type) where
  capacity : Nat
  /-- The entries, the one used the longest ago first. -/
  entries : List (Cid × α)
  /-- Each key stands in one entry. -/
  nodup_keys : (entries.map Prod.fst).Nodup
  size_le : entries.length ≤ capacity

namespace BoundedMap

variable {α : Type}

/-- The map without entries. -/
def empty (capacity : Capacity) : BoundedMap α :=
  ⟨capacity.val.toNat, [], .nil, Nat.zero_le _⟩

/-- The number of entries. -/
def size (m : BoundedMap α) : Nat :=
  m.entries.length

/-- The keys, the one used the longest ago first. -/
def keys (m : BoundedMap α) : List Cid :=
  m.entries.map Prod.fst

/-- The value under a key. -/
def find? (m : BoundedMap α) (key : Cid) : Option α :=
  (m.entries.find? fun entry => entry.1 == key).map Prod.snd

/-- The entries under other keys. -/
def others (m : BoundedMap α) (key : Cid) : List (Cid × α) :=
  m.entries.filter fun entry => entry.1 != key

theorem nodup_others (m : BoundedMap α) (key : Cid) : ((m.others key).map Prod.fst).Nodup :=
  m.nodup_keys.sublist ((List.filter_sublist).map _)

theorem nodup_others_append (m : BoundedMap α) (key : Cid) (value : α) :
    ((m.others key ++ [(key, value)]).map Prod.fst).Nodup := by
  rw [List.map_append, List.nodup_append]
  refine ⟨m.nodup_others key, List.nodup_cons.2 ⟨List.not_mem_nil, .nil⟩, ?_⟩
  intro other hother last hlast
  obtain ⟨entry, hentry, rfl⟩ := List.mem_map.1 hother
  rw [List.map_singleton, List.mem_singleton] at hlast
  rw [hlast]
  exact bne_iff_ne.1 (List.mem_filter.1 hentry).2

theorem length_others_le (m : BoundedMap α) (key : Cid) :
    (m.others key).length ≤ m.entries.length :=
  List.length_filter_le _ _

theorem length_others_lt (m : BoundedMap α) {key : Cid} {value : α}
    (h : m.find? key = some value) : (m.others key).length < m.entries.length := by
  obtain ⟨entry, hentry, -⟩ := Option.map_eq_some_iff.1 h
  refine List.length_filter_lt_length_iff_exists.2 ⟨entry, List.mem_of_find?_eq_some hentry, ?_⟩
  have hkey := List.find?_some hentry
  simpa using hkey

/-- The map without a key. -/
def erase (m : BoundedMap α) (key : Cid) : BoundedMap α where
  capacity := m.capacity
  entries := m.others key
  nodup_keys := m.nodup_others key
  size_le := Nat.le_trans (m.length_others_le key) m.size_le

/-- The map after a key was put in, as the one used last. -/
def insert (m : BoundedMap α) (key : Cid) (value : α) : BoundedMap α :=
  let entries := m.others key ++ [(key, value)]
  { capacity := m.capacity
    entries := entries.drop (entries.length - m.capacity)
    nodup_keys := (m.nodup_others_append key value).sublist ((List.drop_sublist _ _).map _)
    size_le := by rw [List.length_drop]; omega }

/-- The map after the value under a key was looked up and changed; unchanged if the key is
absent. -/
def modify (m : BoundedMap α) (key : Cid) (f : α → α) : BoundedMap α :=
  match h : m.find? key with
  | some value =>
    { capacity := m.capacity
      entries := m.others key ++ [(key, f value)]
      nodup_keys := m.nodup_others_append key (f value)
      size_le := by
        rw [List.length_append, List.length_singleton]
        exact Nat.le_trans (m.length_others_lt h) m.size_le }
  | none => m

/-- The map after a key was looked up. -/
def touch (m : BoundedMap α) (key : Cid) : BoundedMap α :=
  m.modify key id

/-- Whether a key is present. -/
def contains (m : BoundedMap α) (key : Cid) : Bool :=
  (m.find? key).isSome

end BoundedMap

end PieceReplication
