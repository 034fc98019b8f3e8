import Mathlib.Data.List.DropRight
import Mathlib.Data.List.Induction
import PieceReplication.Proofs.Inventory.Recency

/-!
# Bounded maps drop what was used the longest ago

A bounded map is what remains of a sequence of operations on the empty one (`after`).  Putting a key
in uses it, and so does looking it up if it is found; asking whether it is present does not
(`used`).

What the map holds can be said of the operations alone.  The keys stand in the order of their last
use, that is, they are some of the distinct used keys, in the order of their last occurrence
(`keys_after_sublist`), and the value under each is the one that was written last
(`lastWritten_of_find?_after`).  Each of these is preserved by one operation, and by induction on
the operations it holds after all of them.

An insertion drops a key only if it puts in a new one and the map is full, and then it drops the key
that was used the longest ago.  The main result (`leastRecent_after`) puts these together.
-/

namespace PieceReplication

variable {β : Type} [DecidableEq β]

/-! ## Lists without repetition -/

/-- An element that is put last moves to the end of the distinct ones. -/
lemma dedup_concat (l : List β) (a : β) : (l ++ [a]).dedup = l.dedup.filter (· != a) ++ [a] := by
  rw [← dedup_dedup_append, dedup_append_singleton l.nodup_dedup]

/-- A part of a list without repetition is what is left of the list if only its elements are
kept. -/
lemma filter_mem_eq_of_sublist {s l : List β} (hsublist : s.Sublist l) (hnodup : l.Nodup) :
    (l.filter fun a => a ∈ s) = s := by
  have hself : (s.filter fun a => a ∈ s) = s := List.filter_eq_self.2 fun a ha => decide_eq_true ha
  have hpart : s.Sublist (l.filter fun a => a ∈ s) := by
    have hkept := hsublist.filter fun a => decide (a ∈ s)
    rwa [hself] at hkept
  have hsubset : (l.filter fun a => a ∈ s) ⊆ s := fun a ha =>
    of_decide_eq_true (List.mem_filter.1 ha).2
  exact (hpart.eq_of_length_le
    (List.subperm_of_subset (hnodup.filter _) hsubset).length_le).symm

namespace BoundedMap

variable {α : Type} {m : BoundedMap α} {key other : Cid} {value : α} {f : α → α}

/-! ## Insertions -/

/-- The keys after an insertion are the other keys and the one that was put in, or the last of
them. -/
lemma keys_insert_eq_rtake :
    (m.insert key value).keys = (m.keys.filter (· != key) ++ [key]).rtake m.capacity := by
  rw [keys_insert, lastDistinct, dedup_append_singleton keys_nodup]

/-- What was put in is found, if the map may hold any key at all. -/
lemma find?_insert_self (hpos : 0 < m.capacity) : (m.insert key value).find? key = some value := by
  have hmem : key ∈ (m.insert key value).keys := by
    obtain ⟨n, hn⟩ := Nat.exists_eq_succ_of_ne_zero hpos.ne'
    rw [keys_insert_eq_rtake, hn, List.rtake_concat_succ]
    exact List.mem_append_right _ (List.mem_singleton_self key)
  obtain ⟨found, hfound⟩ := exists_find? hmem
  rw [hfound, eq_of_find?_insert_self hfound]

/-- An insertion drops no key if its key is present or the map is not full. -/
lemma keys_insert_of_room (hroom : key ∈ m.keys ∨ m.size < m.capacity) :
    (m.insert key value).keys = m.keys.filter (· != key) ++ [key] := by
  have hsize : m.keys.length ≤ m.capacity := by
    rw [← size_eq_length_keys]
    exact m.size_le
  have hlength : (m.keys.filter (· != key)).length + 1 ≤ m.capacity := by
    rcases hroom with hmem | hlt
    · have hshort : (m.keys.filter (· != key)).length < m.keys.length :=
        List.length_filter_lt_length_iff_exists.2 ⟨key, hmem, by simp⟩
      omega
    · have hle : (m.keys.filter (· != key)).length ≤ m.keys.length := List.length_filter_le _ _
      rw [size_eq_length_keys] at hlt
      omega
  rw [keys_insert_eq_rtake, List.rtake, List.length_append, List.length_singleton,
    Nat.sub_eq_zero_of_le hlength, List.drop_zero]

/-- An insertion of a new key into a full map drops the key that was used the longest ago and no
other one. -/
lemma exists_oldest_of_full (hpos : 0 < m.capacity) (hnew : key ∉ m.keys)
    (hfull : m.size = m.capacity) (value : α) :
    ∃ oldest rest, m.keys = oldest :: rest ∧ (m.insert key value).keys = rest ++ [key] ∧
      ∀ other ∈ rest, (m.insert key value).find? other = m.find? other := by
  rw [size_eq_length_keys] at hfull
  cases hkeys : m.keys with
  | nil =>
    rw [hkeys, List.length_nil] at hfull
    omega
  | cons oldest rest =>
    have hafter : (m.insert key value).keys = rest ++ [key] := by
      rw [keys_insert_of_full hnew (size_eq_length_keys.trans hfull), hkeys, List.cons_append,
        List.tail_cons]
    refine ⟨oldest, rest, rfl, hafter, fun other hother => find?_insert_of_ne ?_ ?_⟩
    · rintro rfl
      exact hnew (hkeys ▸ List.mem_cons_of_mem oldest hother)
    · exact hafter ▸ List.mem_append_left _ hother

/-! ## Operations -/

/-- An operation of a bounded map. -/
inductive Operation (α : Type) where
  | insert (key : Cid) (value : α)
  /-- A look-up. -/
  | get (key : Cid)
  /-- A look-up that changes the value it finds. -/
  | getMut (key : Cid) (f : α → α)
  /-- The question whether a key is present. -/
  | contains (key : Cid)
  | remove (key : Cid)
  /-- The list of the keys. -/
  | keys

/-- The map after an operation. -/
def apply (m : BoundedMap α) : Operation α → BoundedMap α
  | .insert key value => m.insert key value
  | .get key => m.touch key
  | .getMut key f => m.modify key f
  | .contains _ => m
  | .remove key => m.erase key
  | .keys => m

/-- The key that an operation uses, if any: the one that is put in or found, and, where asking for a
key counts as a use, the one that is present. -/
def used (askingCounts : Bool) (m : BoundedMap α) : Operation α → List Cid
  | .insert key _ => [key]
  | .get key => if key ∈ m.keys then [key] else []
  | .getMut key _ => if key ∈ m.keys then [key] else []
  | .contains key => if askingCounts = true ∧ key ∈ m.keys then [key] else []
  | .remove _ => []
  | .keys => []

/-- The value that was last written under a key, after an operation. -/
def written (key : Cid) (last : Option α) : Operation α → Option α
  | .insert other value => if other = key then some value else last
  | .getMut other f => if other = key then last.map f else last
  | _ => last

/-- An operation that changes nothing: one that only asks, and one that misses its key. -/
def IsIdle (m : BoundedMap α) : Operation α → Prop
  | .insert _ _ => False
  | .get key => key ∉ m.keys
  | .getMut key _ => key ∉ m.keys
  | .contains _ => True
  | .remove key => key ∉ m.keys
  | .keys => True

variable {operation : Operation α}

/-- An operation keeps the capacity. -/
lemma capacity_apply : (m.apply operation).capacity = m.capacity := by
  cases operation with
  | getMut key f => exact capacity_modify
  | get key => exact capacity_touch
  | _ => rfl

/-- An idle operation leaves the map as it is. -/
lemma apply_of_isIdle (hidle : m.IsIdle operation) : m.apply operation = m := by
  cases operation with
  | insert key value => cases hidle
  | get key => exact modify_of_notMem hidle
  | getMut key f => exact modify_of_notMem hidle
  | remove key => exact erase_of_notMem hidle
  | contains key => rfl
  | keys => rfl

/-- The keys stand in the order of their last use after an operation, if they did before. -/
lemma keys_apply_sublist {uses : List Cid} (hsublist : m.keys.Sublist uses.dedup) :
    (m.apply operation).keys.Sublist (uses ++ m.used false operation).dedup := by
  -- a key that is used is taken out and put last, among the used ones as in the map
  have hused : ∀ key, (m.keys.filter (· != key) ++ [key]).Sublist (uses ++ [key]).dedup := by
    intro key
    rw [dedup_concat]
    exact (hsublist.filter _).append (List.Sublist.refl _)
  have hfound : ∀ key f, (m.modify key f).keys.Sublist
      (uses ++ if key ∈ m.keys then [key] else []).dedup := by
    intro key f
    split
    · next hmem => exact keys_modify_eq_concat hmem ▸ hused key
    · next hnotMem => rwa [modify_of_notMem hnotMem, List.append_nil]
  cases operation with
  | insert key value =>
    rw [apply, keys_insert_eq_rtake, used]
    exact (List.drop_sublist _ _).trans (hused key)
  | get key => exact hfound key id
  | getMut key f => exact hfound key f
  | remove key =>
    rw [apply, keys_erase, used, List.append_nil]
    exact List.filter_sublist.trans hsublist
  | contains key => simpa [apply, used] using hsublist
  | keys => simpa [apply, used] using hsublist

/-- The values are those that were written last after an operation, if they were before. -/
lemma written_of_find?_apply {last : Option α} (hlast : ∀ value, m.find? key = some value →
    last = some value) (hfound : (m.apply operation).find? key = some value) :
    written key last operation = some value := by
  cases operation with
  | insert other new =>
    rw [written]
    split
    · next heq =>
      subst heq
      rw [eq_of_find?_insert_self hfound]
    · next hne =>
      refine hlast value ?_
      rwa [apply, find?_insert_of_ne (Ne.symm hne) (mem_keys_of_find? hfound)] at hfound
  | getMut other f =>
    rw [apply, find?_modify] at hfound
    rw [written]
    by_cases heq : other = key
    · rw [if_pos heq.symm, heq] at hfound
      obtain ⟨before, hbefore, rfl⟩ := Option.map_eq_some_iff.1 hfound
      rw [if_pos heq, hlast before hbefore, Option.map_some]
    · rw [if_neg (Ne.symm heq)] at hfound
      rw [if_neg heq, hlast value hfound]
  | get other =>
    rw [apply, find?_touch] at hfound
    exact hlast value hfound
  | remove other =>
    rw [apply, find?_erase] at hfound
    split at hfound
    · cases hfound
    · exact hlast value hfound
  | contains other => exact hlast value hfound
  | keys => exact hlast value hfound

/-! ## Sequences of operations -/

/-- The map after operations on the empty one. -/
def after (capacity : Capacity) (operations : List (Operation α)) : BoundedMap α :=
  operations.foldl apply (empty capacity)

/-- The keys that operations use, one after another. -/
def usesFrom (askingCounts : Bool) : BoundedMap α → List (Operation α) → List Cid
  | _, [] => []
  | m, operation :: rest =>
    m.used askingCounts operation ++ usesFrom askingCounts (m.apply operation) rest

/-- The keys that operations on the empty map use, one after another. -/
def uses (askingCounts : Bool) (capacity : Capacity) (operations : List (Operation α)) : List Cid :=
  usesFrom askingCounts (empty capacity) operations

/-- The value that operations wrote last under a key. -/
def lastWritten (key : Cid) (operations : List (Operation α)) : Option α :=
  operations.foldl (written key) none

variable {capacity : Capacity} {operations : List (Operation α)}

/-- One more operation is applied to the map after the others. -/
lemma after_concat : after capacity (operations ++ [operation]) =
    (after capacity operations).apply operation :=
  List.foldl_concat _ _ _ _

/-- One more operation is the last one to use a key. -/
lemma usesFrom_concat {askingCounts : Bool} :
    usesFrom askingCounts m (operations ++ [operation]) =
      usesFrom askingCounts m operations ++
        (operations.foldl apply m).used askingCounts operation := by
  induction operations generalizing m with
  | nil => exact List.append_nil _
  | cons first rest ih =>
    rw [List.cons_append, usesFrom, ih, usesFrom, List.append_assoc, List.foldl_cons]

/-- Operations keep the capacity. -/
lemma capacity_after : (after capacity operations).capacity = capacity.1.toNat := by
  induction operations using List.reverseRecOn with
  | nil => rfl
  | append_singleton operations operation ih => rw [after_concat, capacity_apply, ih]

/-- The keys stand in the order of their last use. -/
lemma keys_after_sublist :
    (after capacity operations).keys.Sublist (uses false capacity operations).dedup := by
  induction operations using List.reverseRecOn with
  | nil => exact List.nil_sublist _
  | append_singleton operations operation ih =>
    rw [after_concat, uses, usesFrom_concat]
    exact keys_apply_sublist ih

/-- The value under a key is the one that was written last. -/
lemma lastWritten_of_find?_after (hfound : (after capacity operations).find? key = some value) :
    lastWritten key operations = some value := by
  induction operations using List.reverseRecOn generalizing value with
  | nil => cases hfound
  | append_singleton operations operation ih =>
    rw [lastWritten, List.foldl_concat]
    rw [after_concat] at hfound
    exact written_of_find?_apply (fun _ => ih) hfound

/-- A map is what a bounded map that drops the key used the longest ago is after operations.  It
holds each of its keys once, at most `capacity` of them, in the order of their last use, with the
values that were written last.  An insertion of a new key into a full map drops the first key and
nothing else, and any other insertion drops nothing.  Asking, and looking up or removing an absent
key, change nothing. -/
structure IsLeastRecent (capacity : Capacity) (operations : List (Operation α))
    (m : BoundedMap α) : Prop where
  size_le : m.size ≤ capacity.1.toNat
  nodup_keys : m.keys.Nodup
  keys_eq : m.keys = (uses false capacity operations).dedup.filter m.contains
  find?_eq : ∀ key ∈ m.keys, ∃ value,
    m.find? key = some value ∧ lastWritten key operations = some value
  insert_full : ∀ key value, key ∉ m.keys → m.size = capacity.1.toNat →
    ∃ oldest rest, m.keys = oldest :: rest ∧ (m.insert key value).keys = rest ++ [key] ∧
      (m.insert key value).find? key = some value ∧
      ∀ other ∈ rest, (m.insert key value).find? other = m.find? other
  insert_room : ∀ key value, key ∈ m.keys ∨ m.size < capacity.1.toNat →
    (m.insert key value).keys = m.keys.filter (· != key) ++ [key] ∧
      (m.insert key value).find? key = some value ∧
      ∀ other ∈ m.keys, other ≠ key → (m.insert key value).find? other = m.find? other
  apply_idle : ∀ operation, m.IsIdle operation → m.apply operation = m

/-- **Least recently used.**  After any operations on the empty map the map is bounded and drops the
key that was used the longest ago, where asking whether a key is present is no use of it. -/
theorem isLeastRecent_after (capacity : Capacity) (operations : List (Operation α)) :
    IsLeastRecent capacity operations (after capacity operations) := by
  have hcapacity : (after capacity operations).capacity = capacity.1.toNat := capacity_after
  have hpos : 0 < (after capacity operations).capacity := by
    have hne : capacity.1.toNat ≠ 0 := fun hzero => capacity.2 (UInt64.toNat_inj.1 hzero)
    omega
  refine
    { size_le := hcapacity ▸ (after capacity operations).size_le
      nodup_keys := keys_nodup
      keys_eq := ?_
      find?_eq := fun key hmem => ?_
      insert_full := fun key value hnew hfull => ?_
      insert_room := fun key value hroom => ?_
      apply_idle := fun operation => apply_of_isIdle }
  · rw [← filter_mem_eq_of_sublist keys_after_sublist (List.nodup_dedup _)]
    exact List.filter_congr fun key _ =>
      Bool.eq_iff_iff.2 (decide_eq_true_iff.trans contains_iff.symm)
  · obtain ⟨value, hfound⟩ := exists_find? hmem
    exact ⟨value, hfound, lastWritten_of_find?_after hfound⟩
  · obtain ⟨oldest, rest, hkeys, hafter, hrest⟩ :=
      exists_oldest_of_full hpos hnew (hfull.trans hcapacity.symm) value
    exact ⟨oldest, rest, hkeys, hafter, find?_insert_self hpos, hrest⟩
  · have hkeys : ((after capacity operations).insert key value).keys = _ :=
      keys_insert_of_room (hroom.imp_right (·.trans_eq hcapacity.symm))
    refine ⟨hkeys, find?_insert_self hpos, fun other hmem hne => find?_insert_of_ne hne ?_⟩
    rw [hkeys]
    exact List.mem_append_left _ (List.mem_filter.2 ⟨hmem, bne_iff_ne.2 hne⟩)

end BoundedMap

namespace Sample

/-- Room for two keys. -/
def two : Capacity :=
  ⟨2, by decide⟩

/-- Two keys are put in, the first one is looked up, and the second one is asked for. -/
def asking : List (BoundedMap.Operation Nat) :=
  [.insert ⟨"a"⟩ 1, .insert ⟨"b"⟩ 2, .get ⟨"a"⟩, .contains ⟨"b"⟩]

end Sample

namespace BoundedMap

theorem isLeastRecent_after_asking :
    (⟨"c"⟩ : Cid) ∉ (after Sample.two Sample.asking).keys ∧
      (after Sample.two Sample.asking).size = 2 ∧
      ((after Sample.two Sample.asking).insert ⟨"c"⟩ 3).keys = [⟨"a"⟩, ⟨"c"⟩] := by
  have hnew : (⟨"c"⟩ : Cid) ∉ (after Sample.two Sample.asking).keys := by decide
  have hfull : (after Sample.two Sample.asking).size = 2 := by decide
  obtain ⟨oldest, rest, hkeys, hafter, -, -⟩ :=
    (isLeastRecent_after Sample.two Sample.asking).insert_full ⟨"c"⟩ 3 hnew hfull
  have hbefore : (after Sample.two Sample.asking).keys = [⟨"b"⟩, ⟨"a"⟩] := by decide
  rw [hbefore] at hkeys
  cases hkeys
  exact ⟨hnew, hfull, hafter⟩

/-- If asking for a present key were a use of it, the keys would not stand in the order of their
last use. -/
theorem keys_ne_of_asking_counts :
    ¬ ∀ (capacity : Capacity) (operations : List (Operation Nat)),
      (after capacity operations).keys =
        (uses true capacity operations).dedup.filter (after capacity operations).contains := by
  intro hcounts
  exact absurd (hcounts Sample.two Sample.asking) (by decide)

end BoundedMap

end PieceReplication
