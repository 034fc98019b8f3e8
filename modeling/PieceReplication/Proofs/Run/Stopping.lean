import Mathlib.Data.List.Basic

/-!
# Walks that stop

A walk over a list that ends as soon as it has enough visits a beginning of the list: none of its
proper beginnings is enough, and it is the whole list unless it is enough itself.
-/

namespace PieceReplication

variable {β : Type}

/-- Whether a walk over some elements, which ends as soon as what it has visited is enough, visits
a list. -/
structure StopsAt (enough : List β → Prop) (elements visited : List β) : Prop where
  /-- The walk visits the elements in their order. -/
  begins : visited <+: elements
  /-- It does not go on once it has enough. -/
  needed : ∀ part, part <+: visited → part ≠ visited → ¬ enough part
  /-- It ends early only if it has enough. -/
  stops : visited ≠ elements → enough visited

/-- Whether no beginning of what was visited so far is enough. -/
def Lacking (enough : List β → Prop) (visited : List β) : Prop :=
  ∀ part, part <+: visited → ¬ enough part

variable {enough : List β → Prop} {visited rest : List β} {element : β}

/-- Nothing was visited, and this is not enough. -/
lemma lacking_nil (h : ¬ enough []) : Lacking enough [] := by
  intro part hpart
  rwa [List.prefix_nil.1 hpart]

/-- A further element is visited, and this is not enough yet. -/
lemma Lacking.concat (hlacking : Lacking enough visited) (h : ¬ enough (visited ++ [element])) :
    Lacking enough (visited ++ [element]) := by
  intro part hpart
  rcases List.prefix_concat_iff.1 hpart with rfl | hbefore
  · exact h
  · exact hlacking part hbefore

/-- A walk that never has enough visits all elements. -/
lemma Lacking.stopsAt (hlacking : Lacking enough visited) : StopsAt enough visited visited :=
  ⟨List.prefix_refl _, fun part hpart _ => hlacking part hpart, fun hne => absurd rfl hne⟩

/-- A walk ends with the element after which it has enough. -/
lemma Lacking.stopsAt_concat (hlacking : Lacking enough visited)
    (h : enough (visited ++ [element])) :
    StopsAt enough (visited ++ element :: rest) (visited ++ [element]) := by
  refine ⟨⟨rest, by simp⟩, fun part hpart hne => ?_, fun _ => h⟩
  exact hlacking part ((List.prefix_concat_iff.1 hpart).resolve_left hne)

end PieceReplication
