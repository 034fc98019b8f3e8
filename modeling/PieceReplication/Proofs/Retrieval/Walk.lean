import PieceReplication.Proofs.Retrieval.Sweep

/-!
# Walks for retrievals

A step of a walk over the inventory is a piece together with the choice that is made for it, the
place of a deal among those under which the piece can be retrieved.  Against a replier the step has
a finding, and this depends only on the piece and on whether its retrieval is pending.  Both are for
each piece as they were when the walk began, since a step changes nothing for other pieces.  So the
calls, the choices and the changes of a walk are put together from those of its steps (`Walked`).
-/

namespace PieceReplication.Retrieval

open History Activity BoundedMap

variable {node : Replier} {setup : Setup} {w w₁ w' : Worker} {h h₁ h' : History} {key : Cid}
  {step : Cid × Nat} {walk : List (Cid × Nat)}

/-! ## Steps -/

/-- What a step of a walk finds. -/
inductive Finding where
  /-- The piece cannot be retrieved. -/
  | barren
  /-- The node does not tell whether the payload is here. -/
  | unknown (failure : Failure)
  /-- The payload is here. -/
  | arrived
  /-- The payload is not here, and its retrieval is pending. -/
  | pending
  /-- The provider is asked, and will serve the payload. -/
  | served
  /-- The provider is asked, and refuses. -/
  | refused (response : QueryResponse)
  /-- The provider is asked, and the query fails. -/
  | failed
  deriving DecidableEq

/-- Whether the provider is asked. -/
def Finding.isQueried : Finding → Bool
  | served => true
  | refused _ => true
  | failed => true
  | _ => false

/-- The chosen deal of a piece, with its index, if the piece can be retrieved. -/
def candidate? (w : Worker) (step : Cid × Nat) : Option (Nat × DealRecord) :=
  (w.pieces.find? step.1).bind fun piece =>
    piece.retrievable[step.2]?.map fun index => (index.val, piece.records.get index)

/-- What a step finds in a worker. -/
def finding (node : Replier) (w : Worker) (step : Cid × Nat) : Finding :=
  match candidate? w step with
  | none => .barren
  | some (index, record) =>
    match node (.retrievalScan step.1 index) (.hasLocal record.root) with
    | .error failure => .unknown failure
    | .ok true => .arrived
    | .ok false =>
      if w.retrievals.contains step.1 then .pending
      else
        match node (.retrievalScan step.1 index) (.query record.root record.provider) with
        | .error _ => .failed
        | .ok response => if response.status = .success then .served else .refused response

section Finding

variable {index : Nat} {record : DealRecord}
  (hcandidate : candidate? w step = some (index, record))

include hcandidate

/-- A step finds the payload here. -/
lemma finding_of_arrived
    (hprobe : node (.retrievalScan step.1 index) (.hasLocal record.root) = .ok true) :
    finding node w step = .arrived := by
  rw [finding, hcandidate]
  simp only [hprobe]

variable (hprobe : node (.retrievalScan step.1 index) (.hasLocal record.root) = .ok false)

include hprobe

/-- A step finds the retrieval of its piece pending. -/
lemma finding_of_pending (hpending : w.retrievals.contains step.1 = true) :
    finding node w step = .pending := by
  rw [finding, hcandidate]
  simp only [hprobe, if_pos hpending]

variable (hnew : ¬ w.retrievals.contains step.1 = true)

include hnew

/-- A step finds what the provider answers. -/
lemma finding_of_response {response : QueryResponse}
    (hreply : node (.retrievalScan step.1 index) (.query record.root record.provider) =
      .ok response) :
    finding node w step =
      if response.status = .success then .served else .refused response := by
  rw [finding, hcandidate]
  simp only [hprobe, if_neg hnew, hreply]

/-- A step finds that the query fails. -/
lemma finding_of_failed {failure : Failure}
    (hreply : node (.retrievalScan step.1 index) (.query record.root record.provider) =
      .error failure) :
    finding node w step = .failed := by
  rw [finding, hcandidate]
  simp only [hprobe, if_neg hnew, hreply]

end Finding

/-- The calls of a step. -/
def asks (node : Replier) (w : Worker) (step : Cid × Nat) : List (Purpose × Call) :=
  match candidate? w step with
  | none => []
  | some (index, record) =>
    (.retrievalScan step.1 index, .hasLocal record.root) ::
      if (finding node w step).isQueried then
        [(.retrievalScan step.1 index, .query record.root record.provider)]
      else []

section Asks

variable {index : Nat} {record : DealRecord} (hcandidate : candidate? w step = some (index, record))

include hcandidate

/-- A step that asks the provider has looked for the payload before. -/
lemma asks_of_queried (hqueried : (finding node w step).isQueried = true) :
    asks node w step = [(.retrievalScan step.1 index, .hasLocal record.root),
      (.retrievalScan step.1 index, .query record.root record.provider)] := by
  rw [asks, hcandidate]
  simp only [if_pos hqueried]

/-- A step that does not ask the provider only looks for the payload. -/
lemma asks_of_not_queried (hqueried : (finding node w step).isQueried = false) :
    asks node w step = [(.retrievalScan step.1 index, .hasLocal record.root)] := by
  rw [asks, hcandidate]
  simp only [hqueried, Bool.false_eq_true, ↓reduceIte]

end Asks

/-- The choice of a step with the number of candidates, if there are any. -/
def choice? (w : Worker) (step : Cid × Nat) : Option (Nat × Nat) :=
  (w.pieces.find? step.1).bind fun piece =>
    if piece.retrievable = [] then none else some (piece.retrievable.length, step.2)

/-- The answer of a provider that refuses, with the piece. -/
def refusal? (node : Replier) (w : Worker) (step : Cid × Nat) : Option (Cid × QueryResponse) :=
  match finding node w step with
  | .refused response => some (step.1, response)
  | _ => none

/-- Whether a step drops a pending retrieval. -/
def drops (node : Replier) (w : Worker) (step : Cid × Nat) (entry : Cid × QueryResponse) : Bool :=
  step.1 == entry.1 && finding node w step == .arrived

/-- The retrievals that are pending after a walk. -/
def pendingAfter (node : Replier) (w : Worker) (walk : List (Cid × Nat)) :
    List (Cid × QueryResponse) :=
  (w.retrievals.entries.filter fun entry => !walk.any (drops node w · entry)) ++
    walk.filterMap (refusal? node w)

/-- What is left of the piece of a step. -/
def left? (node : Replier) (w : Worker) (step : Cid × Nat) : Option Piece :=
  match candidate? w step with
  | none => w.pieces.find? step.1
  | some (index, record) =>
    if finding node w step = .failed then
      (w.pieces.find? step.1).map (·.setTries index (record.tries + 1))
    else w.pieces.find? step.1

/-- From one moment to a later one a walk is made. -/
structure Walked (node : Replier) (walk : List (Cid × Nat)) (w : Worker) (h : History)
    (w' : Worker) (h' : History) : Prop where
  cursor : w'.cursor = w.cursor
  deals : w'.deals = w.deals
  capacity : w'.retrievals.capacity = w.retrievals.capacity
  /-- A deal is chosen for each piece that can be retrieved. -/
  picked : ∀ step ∈ walk, ∀ piece, w.pieces.find? step.1 = some piece → piece.retrievable ≠ [] →
    step.2 < piece.retrievable.length
  visited : ∀ step ∈ walk, w'.pieces.find? step.1 = left? node w step
  others : ∀ key, key ∉ walk.map Prod.fst → w'.pieces.find? key = w.pieces.find? key
  entries : w'.retrievals.entries = pendingAfter node w walk
  probes : h'.probes = h.probes ++ walk.flatMap (asks node w)
  choices : h'.choices = h.choices ++ walk.filterMap (choice? w)

section Congruence

variable (hfind : w₁.pieces.find? step.1 = w.pieces.find? step.1)
  (hpending : w₁.retrievals.contains step.1 = w.retrievals.contains step.1)

include hfind

/-- The chosen deal of a step depends on its piece only. -/
lemma candidate?_congr : candidate? w₁ step = candidate? w step := by
  rw [candidate?, hfind, candidate?]

/-- The choice of a step depends on its piece only. -/
lemma choice?_congr : choice? w₁ step = choice? w step := by
  rw [choice?, hfind, choice?]

include hpending

/-- What a step finds depends on its piece and on whether the retrieval is pending. -/
lemma finding_congr : finding node w₁ step = finding node w step := by
  rw [finding, candidate?_congr hfind, hpending, finding]

/-- The calls of a step depend on its piece and on whether the retrieval is pending. -/
lemma asks_congr : asks node w₁ step = asks node w step := by
  rw [asks, candidate?_congr hfind, finding_congr hfind hpending, asks]

/-- What a step leaves depends on its piece and on whether the retrieval is pending. -/
lemma left?_congr : left? node w₁ step = left? node w step := by
  rw [left?, candidate?_congr hfind, finding_congr hfind hpending, hfind, left?]

/-- The refusal of a step depends on its piece and on whether the retrieval is pending. -/
lemma refusal?_congr : refusal? node w₁ step = refusal? node w step := by
  rw [refusal?, finding_congr hfind hpending, refusal?]

end Congruence

/-- A refusal is one for the piece of the step. -/
lemma fst_of_refusal? {entry : Cid × QueryResponse} (hrefusal : refusal? node w step = some entry) :
    entry.1 = step.1 := by
  rw [refusal?] at hrefusal
  split at hrefusal
  · cases hrefusal
    rfl
  · cases hrefusal

/-- The refusals of a walk are for its pieces. -/
lemma fst_mem_of_mem_refusals {entry : Cid × QueryResponse}
    (hmem : entry ∈ walk.filterMap (refusal? node w)) : entry.1 ∈ walk.map Prod.fst := by
  obtain ⟨step, hstep, hrefusal⟩ := List.mem_filterMap.1 hmem
  rw [fst_of_refusal? hrefusal]
  exact List.mem_map_of_mem hstep

/-- A walk does not come to the retrieval of a piece that it does not visit. -/
lemma mem_map_pendingAfter (hnew : key ∉ walk.map Prod.fst) :
    key ∈ (pendingAfter node w walk).map Prod.fst ↔ key ∈ w.retrievals.keys := by
  constructor
  · intro hmem
    obtain ⟨entry, hentry, rfl⟩ := List.mem_map.1 hmem
    rcases List.mem_append.1 hentry with hold | hrefused
    · exact List.mem_map_of_mem (List.mem_filter.1 hold).1
    · exact absurd (fst_mem_of_mem_refusals hrefused) hnew
  · intro hmem
    obtain ⟨entry, hentry, rfl⟩ := List.mem_map.1 hmem
    have hkept : (!walk.any (drops node w · entry)) = true := by
      rw [Bool.not_eq_true', List.any_eq_false]
      intro step hstep hdrops
      rw [drops, Bool.and_eq_true, beq_iff_eq] at hdrops
      exact hnew (hdrops.1 ▸ List.mem_map_of_mem hstep)
    exact List.mem_map_of_mem (List.mem_append_left _ (List.mem_filter.2 ⟨hentry, hkept⟩))

/-- For a piece that a walk does not visit, a retrieval is pending as before. -/
lemma Walked.contains_eq (hs : Walked node walk w h w₁ h₁) (hnew : key ∉ walk.map Prod.fst) :
    w₁.retrievals.contains key = w.retrievals.contains key := by
  rw [Bool.eq_iff_iff, contains_iff, contains_iff, keys, hs.entries]
  exact mem_map_pendingAfter hnew

/-- The retrievals that are pending after one more step. -/
lemma pendingAfter_concat (hentries : w₁.retrievals.entries = pendingAfter node w walk)
    (hfind : w₁.pieces.find? step.1 = w.pieces.find? step.1)
    (hpending : w₁.retrievals.contains step.1 = w.retrievals.contains step.1)
    (hnew : step.1 ∉ walk.map Prod.fst) :
    pendingAfter node w₁ [step] = pendingAfter node w (walk ++ [step]) := by
  have hdrops : drops node w₁ step = drops node w step := by
    funext entry
    rw [drops, finding_congr hfind hpending, drops]
  -- the step does not drop what was refused before
  have hrefused : (walk.filterMap (refusal? node w)).filter (!drops node w step ·) =
      walk.filterMap (refusal? node w) := by
    refine List.filter_eq_self.2 fun entry hentry => ?_
    have hne : step.1 ≠ entry.1 := by
      intro heq
      exact hnew (heq ▸ fst_mem_of_mem_refusals hentry)
    rw [drops, beq_false_of_ne hne, Bool.false_and, Bool.not_false]
  have hsplit : ∀ entry, (!(walk ++ [step]).any (drops node w · entry)) =
      (!drops node w step entry && !walk.any (drops node w · entry)) := by
    intro entry
    rw [List.any_append, List.any_cons, List.any_nil, Bool.or_false, Bool.not_or, Bool.and_comm]
  have hsingle : ∀ entry, (!([step].any (drops node w₁ · entry))) = !drops node w step entry := by
    intro entry
    rw [List.any_cons, List.any_nil, Bool.or_false, hdrops]
  have hrefusal : [step].filterMap (refusal? node w₁) = [step].filterMap (refusal? node w) :=
    List.filterMap_congr fun other hother => by
      rw [List.mem_singleton.1 hother, refusal?_congr hfind hpending]
  rw [pendingAfter, hrefusal, hentries]
  simp only [hsingle]
  rw [pendingAfter, pendingAfter, List.filter_append, hrefused, List.filter_filter,
    List.filterMap_append, List.append_assoc]
  simp only [hsplit]

/-- A walk goes on with one more step. -/
lemma Walked.concat (hs : Walked node walk w h w₁ h₁) (hstep : Walked node [step] w₁ h₁ w' h')
    (hnew : step.1 ∉ walk.map Prod.fst) : Walked node (walk ++ [step]) w h w' h' := by
  have hfind : w₁.pieces.find? step.1 = w.pieces.find? step.1 := hs.others _ hnew
  have hpending := hs.contains_eq hnew
  have hleft : w'.pieces.find? step.1 = left? node w step := by
    rw [hstep.visited step List.mem_cons_self, left?_congr hfind hpending]
  have hsame : ∀ key, key ≠ step.1 → w'.pieces.find? key = w₁.pieces.find? key := by
    intro key hne
    exact hstep.others key fun hmem => hne (List.mem_singleton.1 hmem)
  refine ⟨hstep.cursor.trans hs.cursor, hstep.deals.trans hs.deals,
    hstep.capacity.trans hs.capacity, ?_, ?_, ?_, ?_, ?_, ?_⟩
  · intro other hother
    rcases List.mem_append.1 hother with hold | hself
    · exact hs.picked other hold
    · obtain rfl := List.mem_singleton.1 hself
      rw [← hfind]
      exact hstep.picked other List.mem_cons_self
  · intro other hother
    rcases List.mem_append.1 hother with hold | hself
    · have hne : other.1 ≠ step.1 := fun heq => hnew (heq ▸ List.mem_map_of_mem hold)
      rw [hsame other.1 hne, hs.visited other hold]
    · obtain rfl := List.mem_singleton.1 hself
      exact hleft
  · intro key hkey
    rw [List.map_append, List.mem_append, not_or] at hkey
    rw [hstep.others key hkey.2, hs.others key hkey.1]
  · rw [hstep.entries, pendingAfter_concat hs.entries hfind hpending hnew]
  · rw [hstep.probes, hs.probes, List.flatMap_append, List.append_assoc, List.flatMap_singleton,
      List.flatMap_singleton, asks_congr hfind hpending]
  · rw [hstep.choices, hs.choices, List.filterMap_append, List.append_assoc]
    refine congrArg (fun later => h.choices ++ (walk.filterMap (choice? w) ++ later)) ?_
    refine List.filterMap_congr fun other hother => ?_
    rw [List.mem_singleton.1 hother, choice?_congr hfind]

/-- A walk keeps the pieces of the inventory. -/
lemma Walked.mem_keys_iff (hs : Walked node walk w h w' h') :
    key ∈ w'.pieces.keys ↔ key ∈ w.pieces.keys := by
  rw [← find?_isSome_iff, ← find?_isSome_iff]
  by_cases hvisited : key ∈ walk.map Prod.fst
  · obtain ⟨step, hstep, rfl⟩ := List.mem_map.1 hvisited
    rw [hs.visited step hstep, left?]
    split
    · rfl
    · split
      · rw [Option.isSome_map]
      · rfl
  · rw [hs.others key hvisited]

end PieceReplication.Retrieval
