import Mathlib.Data.List.DropRight
import Mathlib.Data.List.Perm.Subperm
import PieceReplication.Proofs.Inventory.Lookup

/-!
# The order of the keys

A bounded map keeps the keys that were used last.  If the keys are used one after another, those
that remain are the last distinct ones (`lastDistinct`) of the old keys followed by the used ones,
and they stand in the order of their last use.  One use after another or all at once makes no
difference (`lastDistinct_append`), which is what turns a loop over single uses into a statement
about the whole sequence.
-/

namespace PieceReplication

variable {β : Type} [DecidableEq β] {n : Nat}

/-- The last `n` distinct elements of a list, in the order of their last occurrence. -/
def lastDistinct (n : Nat) (l : List β) : List β :=
  l.dedup.rtake n

/-! ## Distinct elements -/

/-- The distinct elements of the end of a list are an end of those of the list. -/
lemma dedup_suffix_dedup_append (l t : List β) : t.dedup <:+ (l ++ t).dedup := by
  induction l with
  | nil => exact List.suffix_refl _
  | cons a l ih =>
    rw [List.cons_append, List.dedup_cons]
    split
    · exact ih
    · exact ih.trans (List.suffix_cons _ _)

/-- Repeated elements at the beginning make no difference. -/
lemma dedup_dedup_append (l t : List β) : (l.dedup ++ t).dedup = (l ++ t).dedup := by
  induction l with
  | nil => rfl
  | cons a l ih =>
    by_cases hmem : a ∈ l
    · rw [List.dedup_cons_of_mem hmem, ih, List.cons_append,
        List.dedup_cons_of_mem (List.mem_append_left t hmem)]
    · have hiff : a ∈ l.dedup ++ t ↔ a ∈ l ++ t := by
        rw [List.mem_append, List.mem_append, List.mem_dedup]
      rw [List.dedup_cons_of_notMem hmem, List.cons_append, List.cons_append, List.dedup_cons,
        List.dedup_cons, ih]
      simp only [hiff]

/-- More elements are no fewer distinct ones. -/
lemma length_dedup_le_append (l t : List β) : l.dedup.length ≤ (l ++ t).dedup.length := by
  have hsub : l.dedup.Subperm (l ++ t).dedup := by
    refine List.subperm_of_subset l.nodup_dedup fun a ha => List.mem_dedup.2 ?_
    exact List.mem_append_left t (List.mem_dedup.1 ha)
  exact hsub.length_le

/-- Elements that all come again later make no difference. -/
lemma dedup_append_of_subset {l s t : List β} (hsubset : s ⊆ t) :
    (l ++ (s ++ t)).dedup = (l ++ t).dedup := by
  rw [List.dedup_append l (s ++ t), List.Subset.dedup_append_right hsubset, ← List.dedup_append]

/-- Without repetition, an element that is put last moves to the end. -/
lemma dedup_append_singleton {l : List β} (hnodup : l.Nodup) (a : β) :
    (l ++ [a]).dedup = l.filter (· != a) ++ [a] := by
  induction l with
  | nil => simp
  | cons b l ih =>
    obtain ⟨hb, hl⟩ := List.nodup_cons.1 hnodup
    by_cases hne : b = a
    · subst hne
      rw [List.cons_append, List.dedup_cons_of_mem (by simp), ih hl]
      simp
    · have hnotMem : b ∉ l ++ [a] := by
        rw [List.mem_append, List.mem_singleton]
        exact not_or.2 ⟨hb, hne⟩
      rw [List.cons_append, List.dedup_cons_of_notMem hnotMem, ih hl]
      simp [hne]

/-! ## The last distinct elements -/

/-- The last elements of a list are those of an end that is long enough. -/
lemma rtake_eq_of_suffix {γ : Type} {s l : List γ} (hsuffix : s <:+ l) (hlength : n ≤ s.length) :
    l.rtake n = s.rtake n := by
  obtain ⟨front, rfl⟩ := hsuffix
  have hdrop : (front ++ s).length - n = front.length + (s.length - n) := by
    rw [List.length_append]
    omega
  rw [List.rtake, List.rtake, hdrop, ← List.drop_drop, List.drop_left]

/-- Distinct elements that are few enough are all among the last ones. -/
lemma lastDistinct_eq_dedup {l : List β} (hlength : l.dedup.length ≤ n) :
    lastDistinct n l = l.dedup := by
  rw [lastDistinct, List.rtake, Nat.sub_eq_zero_of_le hlength, List.drop_zero]

/-- A list without repetition that is short enough is left as it is. -/
lemma lastDistinct_eq_self {l : List β} (hnodup : l.Nodup) (hlength : l.length ≤ n) :
    lastDistinct n l = l := by
  rw [← hnodup.dedup] at hlength
  rw [lastDistinct_eq_dedup hlength, hnodup.dedup]

/-- The elements of the beginning that were dropped would be dropped anyway. -/
lemma lastDistinct_append (l t : List β) :
    lastDistinct n (lastDistinct n l ++ t) = lastDistinct n (l ++ t) := by
  rcases Nat.le_total l.dedup.length n with hfew | hmany
  · rw [lastDistinct_eq_dedup hfew, lastDistinct, dedup_dedup_append, lastDistinct]
  · have hlength : (lastDistinct n l).length = n := by
      rw [lastDistinct, List.rtake, List.length_drop]
      omega
    have hnodup : (lastDistinct n l).Nodup := l.nodup_dedup.sublist (List.drop_sublist _ _)
    -- the last ones of `l` are among those of the whole, so nothing before them counts
    have hle : n ≤ (lastDistinct n l ++ t).dedup.length := by
      have hsub : (lastDistinct n l).Subperm (lastDistinct n l ++ t).dedup :=
        List.subperm_of_subset hnodup fun a ha => List.mem_dedup.2 (List.mem_append_left t ha)
      calc n = (lastDistinct n l).length := hlength.symm
        _ ≤ (lastDistinct n l ++ t).dedup.length := hsub.length_le
    have hsplit : l.dedup ++ t =
        l.dedup.take (l.dedup.length - n) ++ (lastDistinct n l ++ t) := by
      rw [← List.append_assoc, lastDistinct, List.rtake, List.take_append_drop]
    rw [lastDistinct.eq_1 n (l ++ t), ← dedup_dedup_append l t, hsplit,
      rtake_eq_of_suffix (dedup_suffix_dedup_append _ _) hle, lastDistinct]

namespace BoundedMap

variable {α : Type} {m : BoundedMap α} {key : Cid} {value : α} {f : α → α}

/-- The keys are distinct. -/
lemma keys_nodup : m.keys.Nodup := m.nodup_keys

/-- The keys beside one. -/
lemma map_fst_others : (m.others key).map Prod.fst = m.keys.filter (· != key) := by
  rw [others, keys, List.filter_map]
  rfl

/-- Inserting a key uses it. -/
lemma keys_insert : (m.insert key value).keys = lastDistinct m.capacity (m.keys ++ [key]) := by
  rw [lastDistinct, dedup_append_singleton keys_nodup, ← map_fst_others]
  simp only [keys, insert, List.rtake, List.map_drop, List.map_append, List.map_singleton,
    List.length_append, List.length_map, List.length_singleton]

/-- Inserting a new key into a full map drops the key that was used the longest ago. -/
lemma keys_insert_of_full (hnew : key ∉ m.keys) (hfull : m.size = m.capacity) :
    (m.insert key value).keys = (m.keys ++ [key]).tail := by
  have hnodup : (m.keys ++ [key]).Nodup :=
    List.nodup_append.2 ⟨keys_nodup, List.nodup_singleton key, by
      rintro other hother last hlast rfl
      exact hnew (List.mem_singleton.1 hlast ▸ hother)⟩
  have hlength : (m.keys ++ [key]).length = m.capacity + 1 := by
    rw [List.length_append, List.length_singleton, ← size_eq_length_keys, hfull]
  rw [keys_insert, lastDistinct, hnodup.dedup, List.rtake, hlength, Nat.add_sub_cancel_left,
    List.drop_one]

/-- A key that an insertion of a new key drops is the one used the longest ago, and the map was
full. -/
lemma oldest_of_notMem_insert {other : Cid} (hnew : key ∉ m.keys) (hmem : other ∈ m.keys)
    (hgone : other ∉ (m.insert key value).keys) :
    m.size = m.capacity ∧ m.keys.head? = some other := by
  have hfull : m.size = m.capacity := by
    by_contra hne
    exact hgone (mem_keys_insert_of_lt hnew (Nat.lt_of_le_of_ne m.size_le hne) hmem)
  refine ⟨hfull, ?_⟩
  rw [keys_insert_of_full hnew hfull] at hgone
  cases hkeys : m.keys with
  | nil =>
    rw [hkeys] at hmem
    cases hmem
  | cons oldest rest =>
    rw [hkeys, List.cons_append, List.tail_cons, List.mem_append] at hgone
    rw [hkeys] at hmem
    rcases List.mem_cons.1 hmem with rfl | hrest
    · rfl
    · exact absurd (.inl hrest) hgone

/-- Erasing a key leaves the others in their order. -/
lemma keys_erase : (m.erase key).keys = m.keys.filter (· != key) :=
  map_fst_others

/-- Changing the value under a key puts the key last. -/
lemma keys_modify_eq_concat (hmem : key ∈ m.keys) :
    (m.modify key f).keys = m.keys.filter (· != key) ++ [key] := by
  obtain ⟨value, hvalue⟩ := exists_find? hmem
  rw [keys, entries_modify_of_find? hvalue, List.map_append, map_fst_others]
  rfl

/-- A look-up puts the key last. -/
lemma keys_touch (hmem : key ∈ m.keys) :
    (m.touch key).keys = m.keys.filter (· != key) ++ [key] :=
  keys_modify_eq_concat hmem

/-- Changing the value under a key uses the key. -/
lemma keys_modify (hmem : key ∈ m.keys) :
    (m.modify key f).keys = lastDistinct m.capacity (m.keys ++ [key]) := by
  have hdedup : (m.keys ++ [key]).dedup = (m.modify key f).keys := by
    rw [keys_modify_eq_concat hmem, dedup_append_singleton keys_nodup]
  have hcapacity : (m.modify key f).capacity = m.capacity := capacity_modify
  have hlength : (m.modify key f).keys.length ≤ m.capacity := by
    rw [← size_eq_length_keys, ← hcapacity]
    exact (m.modify key f).size_le
  rw [lastDistinct_eq_dedup (hdedup ▸ hlength), hdedup]

end BoundedMap

end PieceReplication
