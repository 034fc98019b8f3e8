import PieceReplication.Proofs.Retrieval.Walk
import PieceReplication.Proofs.Run.Stopping

/-!
# The meaning of the retrieval phase

Against a replier the visit of a piece is a step of a walk, and the walk ends with the first step
that leaves more pending retrievals than the cap allows (`Enough`).  What a step finds is told apart
by the replies in turn: whether the payload is here, whether its retrieval is pending, and what the
provider replies.  The phase is a sweep that leaves too many retrievals, or a sweep and a walk
(`Completes`).
-/

namespace PieceReplication.Retrieval

open History Activity BoundedMap

variable {node : Replier} {setup : Setup} {w w₁ w' : Worker} {h h₁ h' : History} {key : Cid}
  {step : Cid × Nat} {walk : List (Cid × Nat)}

/-! ## A single step -/

/-- Whether more retrievals are pending than the cap allows. -/
def isCrowded (setup : Setup) (w : Worker) : Bool :=
  decide (setup.config.retrieveParallel.toNat < w.retrievals.size)

/-- A walk of one step that leaves its piece and the retrievals as it should. -/
lemma Walked.single (haside : w'.cursor = w.cursor ∧ w'.deals = w.deals ∧
      w'.retrievals.capacity = w.retrievals.capacity)
    (hpicked : ∀ piece, w.pieces.find? step.1 = some piece → piece.retrievable ≠ [] →
      step.2 < piece.retrievable.length)
    (hfind : ∀ key, w'.pieces.find? key =
      if key = step.1 then left? node w step else w.pieces.find? key)
    (hentries : w'.retrievals.entries = pendingAfter node w [step])
    (hprobes : h'.probes = h.probes ++ asks node w step)
    (hchoices : h'.choices = h.choices ++ (choice? w step).toList) :
    Walked node [step] w h w' h' := by
  obtain ⟨hcursor, hdeals, hcapacity⟩ := haside
  refine ⟨hcursor, hdeals, hcapacity, ?_, ?_, ?_, hentries, ?_, ?_⟩
  · intro other hother
    rw [List.mem_singleton.1 hother]
    exact hpicked
  · intro other hother
    rw [List.mem_singleton.1 hother, hfind, if_pos rfl]
  · intro key hkey
    rw [hfind, if_neg fun hself => hkey (List.mem_singleton.2 hself)]
  · rw [hprobes, List.flatMap_singleton]
  · rw [hchoices]
    cases hchoice : choice? w step with
    | none => rw [List.filterMap_cons_none hchoice, List.filterMap_nil, Option.toList_none]
    | some choice => rw [List.filterMap_cons_some hchoice, List.filterMap_nil, Option.toList_some]

/-- The retrievals that are pending after a single step. -/
lemma pendingAfter_single : pendingAfter node w [step] =
    match finding node w step with
    | .arrived => w.retrievals.others step.1
    | .refused response => w.retrievals.entries ++ [(step.1, response)]
    | _ => w.retrievals.entries := by
  have hdrops : ∀ entry, [step].any (drops node w · entry) =
      (step.1 == entry.1 && finding node w step == .arrived) := by
    intro entry
    rw [List.any_cons, List.any_nil, Bool.or_false, drops]
  simp only [pendingAfter, hdrops]
  cases hfinding : finding node w step with
  | arrived =>
    have hnone : refusal? node w step = none := by rw [refusal?, hfinding]
    rw [List.filterMap_cons_none hnone, List.filterMap_nil, List.append_nil, others]
    refine List.filter_congr fun entry _ => ?_
    rw [beq_self_eq_true, Bool.and_true, Bool.beq_comm, bne]
  | refused response =>
    have hsome : refusal? node w step = some (step.1, response) := by rw [refusal?, hfinding]
    rw [List.filterMap_cons_some hsome, List.filterMap_nil]
    exact congrArg (· ++ [(step.1, response)]) (List.filter_eq_self.2 fun entry _ => by simp)
  | _ =>
    have hnone : refusal? node w step = none := by rw [refusal?, hfinding]
    rw [List.filterMap_cons_none hnone, List.filterMap_nil, List.append_nil]
    exact List.filter_eq_self.2 fun entry _ => by simp

/-- The rule of looks at the cap. -/
lemma meets_isFull_replying {post : Bool → Worker → History → Prop}
    {given : PhaseError → Worker → History → Prop}
    (hpost : ∀ h', Quiet h h' → post (isCrowded setup w) w h') :
    Meets (replying node) (isFull setup) w h post given := by
  refine meets_isFull trivial (fun hsize => ?_) fun hsize => ?_
  · have hcrowded : isCrowded setup w = true := decide_eq_true hsize
    exact hcrowded ▸ hpost _ ⟨rfl, rfl⟩
  · have hroom : isCrowded setup w = false := decide_eq_false (Nat.not_lt.2 hsize)
    exact hroom ▸ hpost _ ⟨rfl, rfl⟩

/-- The rule of the choice of a deal. -/
lemma meets_chooseRecord_replying {piece : Piece}
    {post : Option (Fin piece.records.length) → Worker → History → Prop}
    {given : PhaseError → Worker → History → Prop}
    (hnone : piece.retrievable = [] → post none w h)
    (hsome : ∀ (choice : Fin piece.retrievable.length) (h' : History), h'.probes = h.probes →
      h'.choices = h.choices ++ [(piece.retrievable.length, choice.val)] →
      post (some (piece.retrievable.get choice)) w h') :
    Meets (replying node) (chooseRecord setup piece) w h post given := by
  refine meets_chooseRecord_of_reported (fun _ => trivial) hnone fun h' hreported choice _ => ?_
  rcases hreported with rfl | ⟨event, rfl⟩
  · exact ⟨trivial, hsome choice _ rfl rfl⟩
  · exact ⟨trivial, hsome choice _ rfl rfl⟩

/-- How a step of a walk ends. -/
def StepEnds (node : Replier) (setup : Setup) (step : Cid × Nat) (w : Worker) (h : History)
    (isFull : Bool) (w' : Worker) (h' : History) : Prop :=
  Walked node [step] w h w' h' ∧ isFull = isCrowded setup w'

/-- In a step, with a deal of the piece chosen and nothing asked yet. -/
structure Tries (step : Cid × Nat) (index : Nat) (record : DealRecord) (w : Worker)
    (h h₁ : History) : Prop where
  candidate : candidate? w step = some (index, record)
  picked : ∀ piece, w.pieces.find? step.1 = some piece → piece.retrievable ≠ [] →
    step.2 < piece.retrievable.length
  probes : h₁.probes = h.probes
  choices : h₁.choices = h.choices ++ (choice? w step).toList

variable {index : Nat} {record : DealRecord}

/-- A step that ends without a failed query has only used its piece. -/
lemma Tries.walked (ht : Tries step index record w h h₁) (hfinding : finding node w step ≠ .failed)
    (haside : w'.cursor = w.cursor ∧ w'.deals = w.deals ∧
      w'.retrievals.capacity = w.retrievals.capacity)
    (hpieces : w'.pieces = w.pieces.touch step.1)
    (hentries : w'.retrievals.entries = pendingAfter node w [step])
    (hprobes : h'.probes = h₁.probes ++ asks node w step) (hchoices : h'.choices = h₁.choices) :
    Walked node [step] w h w' h' := by
  have hleft : left? node w step = w.pieces.find? step.1 := by
    rw [left?, ht.candidate]
    exact if_neg hfinding
  refine .single haside ht.picked (fun key => ?_) hentries ?_ ?_
  · rw [hpieces, find?_touch, hleft]
    split
    · next hself => rw [hself]
    · rfl
  · rw [hprobes, ht.probes]
  · rw [hchoices, ht.choices]

/-- The next count of failed queries, if there is one. -/
lemma eq_add_one_of_nextTry {tries next : UInt64} (hnext : nextTry tries = .ok next) :
    next = tries + 1 := by
  rw [nextTry] at hnext
  split at hnext
  · exact (Except.ok.inj hnext).symm
  · cases hnext

/-- The taking of an answer, with the look at the cap that follows it. -/
lemma meets_takeResponse_replying (ht : Tries step index record w h h₁)
    (hnew : step.1 ∉ w.retrievals.keys)
    (hroom : w.retrievals.size < w.retrievals.capacity) {response : QueryResponse}
    (hfinding : finding node w step =
      if response.status = .success then .served else .refused response)
    {h₂ : History} (hprobes : h₂.probes = h₁.probes ++ asks node w step)
    (hchoices : h₂.choices = h₁.choices) :
    Meets (replying node) (takeResponse step.1 record response)
      { w with pieces := w.pieces.touch step.1 } h₂
      (fun _ w' h' => Meets (replying node) (isFull setup) w' h' (StepEnds node setup step w h)
        fun _ _ _ => True)
      fun _ _ _ => True := by
  have hquiet : ∀ h', Quiet h₂ h' →
      h'.probes = h₁.probes ++ asks node w step ∧ h'.choices = h₁.choices := fun h' hquiet =>
    ⟨hquiet.probes.trans hprobes, hquiet.choices.trans hchoices⟩
  simp only [takeResponse, dropRetrieval, meets_bind, meets_log]
  refine ⟨trivial, ?_⟩
  split
  · next hstatus =>
    rw [if_pos hstatus] at hfinding
    refine meets_update.2 ⟨trivial, meets_isFull_replying fun h' hlater => ⟨?_, rfl⟩⟩
    obtain ⟨hprobes', hchoices'⟩ := hquiet h' ⟨hlater.probes, hlater.choices⟩
    refine ht.walked ?_ ⟨rfl, rfl, rfl⟩ rfl ?_ hprobes' hchoices'
    · rw [hfinding]
      rintro ⟨⟩
    · -- the retrieval was not pending, so none is dropped
      rw [pendingAfter_single, hfinding]
      exact others_of_notMem hnew
  · next hstatus =>
    rw [if_neg hstatus] at hfinding
    refine meets_update.2 ⟨trivial, meets_isFull_replying fun h' hlater => ⟨?_, rfl⟩⟩
    obtain ⟨hprobes', hchoices'⟩ := hquiet h' ⟨hlater.probes, hlater.choices⟩
    refine ht.walked ?_ ⟨rfl, rfl, rfl⟩ rfl ?_ hprobes' hchoices'
    · rw [hfinding]
      rintro ⟨⟩
    · rw [pendingAfter_single, hfinding]
      exact entries_insert_of_lt hnew hroom

/-- The count of a failed query. -/
lemma meets_takeFailure_replying (ht : Tries step index record w h h₁)
    (hfinding : finding node w step = .failed) {h₂ : History}
    (hprobes : h₂.probes = h₁.probes ++ asks node w step) (hchoices : h₂.choices = h₁.choices)
    (failure : Failure) :
    Meets (replying node) (takeFailure setup step.1 index record failure)
      { w with pieces := w.pieces.touch step.1 } h₂
      (fun _ w' h' => Walked node [step] w h w' h' ∧ w'.retrievals = w.retrievals)
      fun _ _ _ => True := by
  have hentries : pendingAfter node w [step] = w.retrievals.entries := by
    rw [pendingAfter_single, hfinding]
  simp only [takeFailure, meets_bind, meets_count, meets_checked, meets_update, meets_log]
  refine ⟨trivial, fun tries htries => ⟨trivial, trivial, ?_⟩, fun _ _ => trivial⟩
  have hleft : left? node w step = (w.pieces.find? step.1).map (·.setTries index tries) := by
    rw [left?, ht.candidate, eq_add_one_of_nextTry htries]
    exact if_pos hfinding
  have hwalked : ∀ h', Quiet h₂ h' → Walked node [step] w h
      { w with pieces := (w.pieces.touch step.1).modify step.1 (·.setTries index tries) } h' := by
    intro h' hquiet
    refine .single ⟨rfl, rfl, rfl⟩ ht.picked (fun key => ?_) hentries.symm ?_ ?_
    · rw [find?_modify, find?_touch, find?_touch, hleft]
    · rw [hquiet.probes, hprobes, ht.probes]
    · rw [hquiet.choices, hchoices, ht.choices]
  split
  · exact meets_log.2 ⟨trivial, hwalked _ ⟨rfl, rfl⟩, rfl⟩
  · exact meets_pure.2 ⟨hwalked _ ⟨rfl, rfl⟩, rfl⟩

/-- The step of a piece whose payload is here. -/
lemma Tries.arrived (ht : Tries step index record w h h₁)
    (hlocal : node (.retrievalScan step.1 index) (.hasLocal record.root) = .ok true)
    (hprobes : h'.probes = h₁.probes ++ [(.retrievalScan step.1 index, .hasLocal record.root)])
    (hchoices : h'.choices = h₁.choices) :
    Walked node [step] w h
      { w with pieces := w.pieces.touch step.1, retrievals := w.retrievals.erase step.1 } h' := by
  have hfinding : finding node w step = .arrived := finding_of_arrived ht.candidate hlocal
  have hasks := asks_of_not_queried ht.candidate (by rw [hfinding]; rfl)
  refine ht.walked ?_ ⟨rfl, rfl, rfl⟩ rfl ?_ (by rw [hasks, hprobes]) hchoices
  · rw [hfinding]
    rintro ⟨⟩
  · rw [pendingAfter_single, hfinding]
    rfl

/-- The step of a piece whose retrieval is pending. -/
lemma Tries.pending (ht : Tries step index record w h h₁)
    (hlocal : node (.retrievalScan step.1 index) (.hasLocal record.root) = .ok false)
    (hpending : w.retrievals.contains step.1 = true)
    (hprobes : h'.probes = h₁.probes ++ [(.retrievalScan step.1 index, .hasLocal record.root)])
    (hchoices : h'.choices = h₁.choices) :
    Walked node [step] w h { w with pieces := w.pieces.touch step.1 } h' := by
  have hfinding : finding node w step = .pending :=
    finding_of_pending ht.candidate hlocal hpending
  have hasks := asks_of_not_queried ht.candidate (by rw [hfinding]; rfl)
  refine ht.walked ?_ ⟨rfl, rfl, rfl⟩ rfl ?_ (by rw [hasks, hprobes]) hchoices
  · rw [hfinding]
    rintro ⟨⟩
  · rw [pendingAfter_single, hfinding]

/-- The end of a retrieval leaves no more of them than before. -/
lemma isCrowded_of_erase (hfew : isCrowded setup w = false) :
    isCrowded setup { w with
      pieces := w.pieces.touch key, retrievals := w.retrievals.erase key } = false := by
  have hsize : (w.retrievals.erase key).size ≤ w.retrievals.size := length_others_le _ _
  refine decide_eq_false fun hcrowded => ?_
  exact of_decide_eq_false hfew (Nat.lt_of_lt_of_le hcrowded hsize)

/-- The try of the chosen deal of a piece. -/
lemma meets_tryRecord_replying (ht : Tries step index record w h h₁)
    (hroom : step.1 ∉ w.retrievals.keys → w.retrievals.size < w.retrievals.capacity)
    (hfew : isCrowded setup w = false) :
    Meets (replying node) (tryRecord setup step.1 index record)
      { w with pieces := w.pieces.touch step.1 } h₁ (StepEnds node setup step w h)
      fun _ _ _ => True := by
  simp only [tryRecord, isPending, dropRetrieval, meets_bind]
  refine meets_request_replying.2 ⟨fun isLocal hlocal => ?_, fun _ _ => trivial⟩
  cases isLocal with
  | true =>
    simp only [↓reduceIte, meets_bind, meets_update, meets_pure]
    exact ⟨trivial, ht.arrived hlocal rfl rfl, (isCrowded_of_erase hfew).symm⟩
  | false =>
    simp only [Bool.false_eq_true, ↓reduceIte, meets_bind, meets_get, meets_pure]
    split
    · next hpending => exact meets_pure.2 ⟨ht.pending hlocal hpending rfl rfl, hfew.symm⟩
    · next hpending =>
      have hnew : step.1 ∉ w.retrievals.keys := fun hmem => hpending (contains_iff.2 hmem)
      -- the provider is asked, whatever it replies
      have hprobes : (finding node w step).isQueried = true →
          h₁.probes ++ [(.retrievalScan step.1 index, .hasLocal record.root)] ++
            [(.retrievalScan step.1 index, .query record.root record.provider)] =
            h₁.probes ++ asks node w step := by
        intro hqueried
        rw [asks_of_queried ht.candidate hqueried, List.append_assoc, List.singleton_append]
      rw [meets_bind, meets_attempt_replying]
      cases hreply : node (.retrievalScan step.1 index) (.query record.root record.provider) with
      | ok response =>
        have hfinding := finding_of_response ht.candidate hlocal hpending hreply
        rw [meets_bind]
        refine meets_takeResponse_replying ht hnew (hroom hnew) hfinding (hprobes ?_) rfl
        rw [hfinding]
        split <;> rfl
      | error failure =>
        have hfinding := finding_of_failed ht.candidate hlocal hpending hreply
        rw [meets_bind]
        refine (meets_takeFailure_replying ht hfinding ?_ ?_ failure).mono ?_ fun _ _ _ => id
        · exact hprobes (by rw [hfinding]; rfl)
        · rfl
        · rintro ⟨⟩ w' h' ⟨hwalked, hretrievals⟩
          refine meets_pure.2 ⟨hwalked, ?_⟩
          rw [isCrowded, hretrievals]
          exact hfew.symm

/-- The step of a piece that cannot be retrieved. -/
lemma walked_of_barren
    (hnone : ∀ piece, w.pieces.find? key = some piece → piece.retrievable = [])
    (hquiet : Quiet h h') :
    Walked node [(key, 0)] w h { w with pieces := w.pieces.touch key } h' := by
  have hcandidate : candidate? w (key, 0) = none := by
    rw [candidate?, Option.bind_eq_none_iff]
    intro piece hpiece
    rw [hnone piece hpiece]
    rfl
  have hchoice : choice? w (key, 0) = none := by
    rw [choice?, Option.bind_eq_none_iff]
    intro piece hpiece
    exact if_pos (hnone piece hpiece)
  have hfinding : finding node w (key, 0) = .barren := by rw [finding, hcandidate]
  refine .single ⟨rfl, rfl, rfl⟩ ?_ (fun other => ?_) ?_ ?_ ?_
  · exact fun piece hpiece hne => absurd (hnone piece hpiece) hne
  · rw [find?_touch, left?, hcandidate]
    split
    · next hself => rw [hself]
    · rfl
  · rw [pendingAfter_single, hfinding]
  · rw [asks, hcandidate, List.append_nil, hquiet.probes]
  · rw [hchoice, Option.toList_none, List.append_nil, hquiet.choices]

/-- A choice among the deals under which a piece can be retrieved. -/
lemma tries_of_choice {piece : Piece} (hpiece : w.pieces.find? key = some piece)
    (choice : Fin piece.retrievable.length) (hprobes : h'.probes = h.probes)
    (hchoices : h'.choices = h.choices ++ [(piece.retrievable.length, choice.val)]) :
    Tries (key, choice.val) (piece.retrievable.get choice).val
      (piece.records.get (piece.retrievable.get choice)) w h h' := by
  have hne : piece.retrievable ≠ [] := List.ne_nil_of_length_pos (Nat.zero_lt_of_lt choice.isLt)
  refine ⟨?_, fun other hsome _ => ?_, hprobes, ?_⟩
  · rw [candidate?, hpiece, Option.bind_some, List.getElem?_eq_getElem choice.isLt]
    rfl
  · rw [hpiece] at hsome
    obtain rfl := Option.some.inj hsome
    exact choice.isLt
  · rw [choice?, hpiece, Option.bind_some, if_neg hne]
    exact hchoices

/-- The visit of a piece is a step. -/
lemma meets_visit_replying
    (hroom : key ∉ w.retrievals.keys → w.retrievals.size < w.retrievals.capacity)
    (hfew : isCrowded setup w = false) :
    Meets (replying node) (visit setup key) w h
      (fun isFull w' h' => ∃ choice, StepEnds node setup (key, choice) w h isFull w' h')
      fun _ _ _ => True := by
  simp only [visit, findPiece, meets_bind, meets_get, meets_update, meets_pure]
  refine ⟨trivial, ?_⟩
  cases hpiece : w.pieces.find? key with
  | none =>
    refine meets_pure.2 ⟨0, walked_of_barren (fun piece hsome => ?_) ⟨rfl, rfl⟩, hfew.symm⟩
    rw [hpiece] at hsome
    cases hsome
  | some piece =>
    rw [meets_bind]
    refine meets_chooseRecord_replying (fun hnone => ?_) fun choice h' hprobes hchoices => ?_
    · refine meets_pure.2 ⟨0, walked_of_barren (fun other hsome => ?_) ⟨rfl, rfl⟩, hfew.symm⟩
      rw [hpiece] at hsome
      obtain rfl := Option.some.inj hsome
      exact hnone
    · have ht : Tries (key, choice.val) _ _ w h h' :=
        tries_of_choice hpiece choice hprobes hchoices
      refine (meets_tryRecord_replying ht hroom hfew).mono ?_ fun _ _ _ => id
      exact fun isFull w' h'' hends => ⟨choice.val, hends⟩

/-! ## The scan -/

/-- A walk over some pieces, with the choices for them. -/
def walkOf (pick : Cid → Nat) (visited : List Cid) : List (Cid × Nat) :=
  visited.map fun key => (key, pick key)

/-- Whether more retrievals are pending than the cap allows once a walk was made. -/
def Enough (node : Replier) (setup : Setup) (w : Worker) (walk : List (Cid × Nat)) : Prop :=
  setup.config.retrieveParallel.toNat < (pendingAfter node w walk).length

/-- Whether the scan may begin: each pending retrieval is one of an inventory piece, the containers
share one capacity, and no more retrievals are pending than the cap allows. -/
structure Ready (setup : Setup) (w : Worker) : Prop where
  within : ∀ key ∈ w.retrievals.keys, key ∈ w.pieces.keys
  capacity : w.retrievals.capacity = w.pieces.capacity
  isCrowded_eq : isCrowded setup w = false

/-- How a scan of the inventory ends: it visits pieces in their order until more retrievals are
pending than the cap allows. -/
def ScanEnds (node : Replier) (setup : Setup) (w : Worker) (h : History) (w' : Worker)
    (h' : History) : Prop :=
  ∃ pick visited,
    StopsAt (fun part => Enough node setup w (walkOf pick part)) w.pieces.keys visited ∧
      Walked node (walkOf pick visited) w h w' h'

/-- The choices of a walk that visits no piece twice are a function of the piece. -/
lemma exists_walkOf_eq (hnodup : (walk.map Prod.fst).Nodup) :
    ∃ pick, walkOf pick (walk.map Prod.fst) = walk := by
  induction walk with
  | nil => exact ⟨fun _ => 0, rfl⟩
  | cons step rest ih =>
    rw [List.map_cons, List.nodup_cons] at hnodup
    obtain ⟨pick, hpick⟩ := ih hnodup.2
    refine ⟨Function.update pick step.1 step.2, ?_⟩
    have hrest : walkOf (Function.update pick step.1 step.2) (rest.map Prod.fst) =
        walkOf pick (rest.map Prod.fst) := by
      refine List.map_congr_left fun key hkey => ?_
      have hne : key ≠ step.1 := fun heq => hnodup.1 (heq ▸ hkey)
      rw [Function.update_of_ne hne]
    rw [List.map_cons, walkOf, List.map_cons, ← walkOf, hrest, hpick, Function.update_self]

/-- Whether a walk has left too many pending retrievals. -/
lemma Walked.enough_iff (hs : Walked node walk w h w' h') :
    Enough node setup w walk ↔ isCrowded setup w' = true := by
  rw [Enough, ← hs.entries, isCrowded, decide_eq_true_iff, size]

/-- A scan ends with a walk of which no part was enough, and that is enough itself if it does not
visit all pieces. -/
lemma Walked.scanEnds (hs : Walked node walk w h w' h') {rest : List Cid}
    (hkeys : w.pieces.keys = walk.map Prod.fst ++ rest)
    (hneeded : ∀ part, part <+: walk → part ≠ walk → ¬ Enough node setup w part)
    (hstops : rest ≠ [] → Enough node setup w walk) : ScanEnds node setup w h w' h' := by
  have hnodup : (walk.map Prod.fst).Nodup := by
    have hall := w.pieces.nodup_keys
    rw [← keys, hkeys] at hall
    exact (List.nodup_append.1 hall).1
  obtain ⟨pick, hpick⟩ := exists_walkOf_eq hnodup
  have hpieces : ∀ part, (walkOf pick part).map Prod.fst = part := by
    intro part
    rw [walkOf, List.map_map]
    exact List.map_id part
  refine ⟨pick, walk.map Prod.fst,
    ⟨⟨rest, hkeys.symm⟩, fun part hpart hne => ?_, fun hne => ?_⟩, ?_⟩
  · refine hneeded _ ?_ fun heq => ?_
    · rw [← hpick]
      exact hpart.map _
    · rw [← heq, hpieces] at hne
      exact hne rfl
  · rw [hpick]
    refine hstops ?_
    rintro rfl
    rw [hkeys, List.append_nil] at hne
    exact hne rfl
  · rwa [hpick]

/-- In a scan there is room for the retrieval of a further piece. -/
lemma Walked.size_lt_capacity (hready : Ready setup w) (hs : Walked node walk w h w₁ h₁)
    {rest : List Cid} (hkeys : w.pieces.keys = walk.map Prod.fst ++ key :: rest)
    (hnew : key ∉ w₁.retrievals.keys) : w₁.retrievals.size < w₁.retrievals.capacity := by
  have hwithin : ∀ other ∈ w₁.retrievals.keys, other ∈ w.pieces.keys := by
    intro other hother
    by_cases hvisited : other ∈ walk.map Prod.fst
    · rw [hkeys]
      exact List.mem_append_left _ hvisited
    · rw [← contains_iff, hs.contains_eq hvisited, contains_iff] at hother
      exact hready.within other hother
  have hmem : key ∈ w.pieces.keys := by
    rw [hkeys]
    exact List.mem_append_right _ List.mem_cons_self
  rw [hs.capacity, hready.capacity]
  exact BoundedMap.size_lt_capacity hwithin hmem hnew

/-- The rest of a scan. -/
lemma meets_scan_replying (hready : Ready setup w) {rest : List Cid}
    (hkeys : w.pieces.keys = walk.map Prod.fst ++ rest) (hs : Walked node walk w h w₁ h₁)
    (hlacking : Lacking (Enough node setup w) walk) :
    Meets (replying node) (scan setup rest) w₁ h₁ (fun _ => ScanEnds node setup w h)
      fun _ _ _ => True := by
  induction rest generalizing walk w₁ h₁ with
  | nil =>
    exact hs.scanEnds hkeys (fun part hpart _ => hlacking part hpart) fun hne => absurd rfl hne
  | cons key rest ih =>
    have hnew : key ∉ walk.map Prod.fst := notMem_of_keys_eq hkeys
    have hfew : isCrowded setup w₁ = false := by
      refine Bool.eq_false_iff.2 fun hcrowded => ?_
      exact hlacking walk (List.prefix_refl _) (hs.enough_iff.2 hcrowded)
    have hroom : key ∉ w₁.retrievals.keys → w₁.retrievals.size < w₁.retrievals.capacity :=
      hs.size_lt_capacity hready hkeys
    rw [scan, meets_bind]
    refine (meets_visit_replying hroom hfew).mono ?_ fun _ _ _ => id
    rintro isFull w' h' ⟨choice, hstep, rfl⟩
    have hwalk : Walked node (walk ++ [(key, choice)]) w h w' h' := hs.concat hstep hnew
    have hnext : w.pieces.keys = (walk ++ [(key, choice)]).map Prod.fst ++ rest := by
      rw [hkeys, List.map_append, List.append_assoc]
      rfl
    cases hcrowded : isCrowded setup w' with
    | false =>
      refine ih hnext hwalk (hlacking.concat fun henough => ?_)
      rw [hwalk.enough_iff, hcrowded] at henough
      cases henough
    | true =>
      refine meets_pure.2 (hwalk.scanEnds hnext (fun part hpart hne => ?_) fun _ => ?_)
      · exact hlacking part ((List.prefix_concat_iff.1 hpart).resolve_left hne)
      · exact hwalk.enough_iff.2 hcrowded

/-! ## The phase -/

/-- How the retrieval phase ends. -/
inductive Completes (node : Replier) (setup : Setup) (w w' : Worker) (h' : History) : Prop where
  /-- Too many retrievals are pending after the sweep. -/
  | crowded (hcrowded : isCrowded setup (swept node w) = true)
  /-- The inventory was scanned. -/
  | scanned (hends : ScanEnds node setup (swept node w) [] w' h')

/-- **The meaning of the retrieval phase.** -/
theorem meets_run_replying (hcapacity : w.retrievals.capacity = w.pieces.capacity)
    (hquiet : Quiet [] h) :
    Meets (replying node) (run setup) w h (fun _ => Completes node setup w) fun _ _ _ => True := by
  simp only [run, meets_bind, meets_get, meets_enter]
  have hentered : Quiet [] (.entered .retrievalSweep :: h) := ⟨hquiet.probes, hquiet.choices⟩
  refine ⟨trivial, (meets_sweep_replying hentered).mono ?_ fun _ _ _ => id⟩
  rintro ⟨⟩ w' h₁ ⟨rfl, hswept⟩
  refine meets_isFull_replying fun h₂ hlooked => ?_
  cases hcrowded : isCrowded setup (swept node w) with
  | true => exact meets_pure.2 (.crowded hcrowded)
  | false =>
    have hready : Ready setup (swept node w) := by
      refine ⟨fun _ => mem_keys_of_mem_keys_swept, ?_, hcrowded⟩
      rw [swept, sweptTo, capacity_foldl_touch]
      exact hcapacity
    have hprobes : h₂.probes = [] := hlooked.probes.trans hswept.probes
    have hchoices : h₂.choices = [] := hlooked.choices.trans hswept.choices
    have hbefore : Walked node [] (swept node w) [] (swept node w)
        (.entered .retrievalScan :: h₂) := by
      refine ⟨rfl, rfl, rfl, ?_, ?_, fun _ _ => rfl, ?_, hprobes, hchoices⟩
      · rintro step ⟨⟩
      · rintro step ⟨⟩
      · rw [pendingAfter, List.filterMap_nil, List.append_nil]
        exact (List.filter_eq_self.2 fun _ _ => rfl).symm
    have hlacking : Lacking (Enough node setup (swept node w)) [] := by
      refine lacking_nil fun henough => ?_
      rw [hbefore.enough_iff, hcrowded] at henough
      cases henough
    simp only [Bool.false_eq_true, ↓reduceIte, meets_bind, meets_get, meets_enter]
    refine ⟨trivial, (meets_scan_replying hready rfl hbefore hlacking).mono ?_ fun _ _ _ => id⟩
    exact fun _ w' h' => .scanned

end PieceReplication.Retrieval
