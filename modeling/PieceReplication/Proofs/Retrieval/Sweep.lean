import PieceReplication.Proofs.Conduct.Retrieval
import PieceReplication.Proofs.Inventory.Selection
import PieceReplication.Proofs.Run.Replies

/-!
# The meaning of the sweep of the retrievals

The review of a pending retrieval uses the piece and drops the retrieval, or leaves it.  So after
some reviews the inventory is the one before with the pieces used in turn, and the retrievals are
those before without the reviewed ones that are not awaited any more (`sweptTo`).  Against a replier
a sweep that ends has reviewed all retrievals (`swept`).

The sweep has no part in what the scan asks and chooses (`Quiet`).
-/

namespace PieceReplication

/-- The choices of a history, each with the number of candidates, in the order in which they were
made. -/
@[simp] def History.choices : History → List (Nat × Nat)
  | [] => []
  | occurrence :: earlier =>
    match occurrence with
    | .chose n choice => choices earlier ++ [(n, choice.val)]
    | _ => choices earlier

/-- Whether a call is made for the scan of the retrieval phase. -/
def Purpose.isRetrievalScan : Purpose → Bool
  | .retrievalScan _ _ => true
  | _ => false

/-- The calls of the scan of the retrieval phase, in the order in which they were made. -/
def History.probes (h : History) : List (Purpose × Call) :=
  h.asked fun purpose _ => purpose.isRetrievalScan

/-- Whether the scan of the retrieval phase makes no call, and nothing is chosen, from one moment to
a later one. -/
structure History.Quiet (h h' : History) : Prop where
  probes : h'.probes = h.probes
  choices : h'.choices = h.choices

namespace Retrieval

open History Activity BoundedMap

variable {node : Replier} {w w' : Worker} {h : History} {key : Cid} {reviewed : List Cid}

/-- Whether a pending retrieval is awaited: its piece is in the inventory, and the payload is not
here yet. -/
def awaits (node : Replier) (w : Worker) (key : Cid) : Bool :=
  match w.payload? key with
  | none => false
  | some payload =>
    match node (.retrievalSweep key) (.hasLocal payload.root) with
    | .ok isLocal => !isLocal
    | .error _ => false

/-- The worker after some pending retrievals were reviewed. -/
def sweptTo (node : Replier) (w : Worker) (reviewed : List Cid) : Worker :=
  { w with
    pieces := reviewed.foldl BoundedMap.touch w.pieces
    retrievals := w.retrievals.filter fun entry =>
      !(reviewed.contains entry.1 && !awaits node w entry.1) }

/-- The worker after the sweep. -/
def swept (node : Replier) (w : Worker) : Worker :=
  sweptTo node w w.retrievals.keys

/-- The keys that are left to the sweep are those of the retrievals that were not reviewed. -/
def Sweeps (node : Replier) (w : Worker) (rest : List Cid) (w' : Worker) (h : History) : Prop :=
  ∃ reviewed, w.retrievals.keys = reviewed ++ rest ∧ w' = sweptTo node w reviewed ∧ Quiet [] h

/-- The uses of pieces change no piece. -/
lemma find?_foldl_touch {α : Type} {m : BoundedMap α} (used : List Cid) :
    (used.foldl BoundedMap.touch m).find? key = m.find? key := by
  induction used generalizing m with
  | nil => rfl
  | cons first rest ih => rw [List.foldl_cons, ih, find?_touch]

/-- The uses of pieces keep the bound. -/
lemma capacity_foldl_touch {α : Type} {m : BoundedMap α} (used : List Cid) :
    (used.foldl BoundedMap.touch m).capacity = m.capacity := by
  induction used generalizing m with
  | nil => rfl
  | cons first rest ih => rw [List.foldl_cons, ih, capacity_touch]

/-- No review changes a payload. -/
lemma payload?_sweptTo : (sweptTo node w reviewed).payload? key = w.payload? key := by
  rw [Worker.payload?, sweptTo, find?_foldl_touch, Worker.payload?]

/-- The review of a retrieval uses its piece. -/
lemma pieces_sweptTo_concat :
    (sweptTo node w (reviewed ++ [key])).pieces = (sweptTo node w reviewed).pieces.touch key := by
  rw [sweptTo, List.foldl_concat, sweptTo]

/-- The review of a retrieval that is awaited keeps it. -/
lemma sweptTo_concat_of_awaits (hawaits : awaits node w key = true) :
    sweptTo node w (reviewed ++ [key]) =
      { sweptTo node w reviewed with pieces := (sweptTo node w reviewed).pieces.touch key } := by
  have hretrievals : (sweptTo node w (reviewed ++ [key])).retrievals =
      (sweptTo node w reviewed).retrievals := by
    refine congrArg w.retrievals.filter (funext fun entry => ?_)
    by_cases hself : entry.1 = key
    · rw [hself, hawaits, Bool.not_true, Bool.and_false, Bool.and_false]
    · simp [hself]
  exact congrArg₂ (fun pieces retrievals => { w with pieces, retrievals }) pieces_sweptTo_concat
    hretrievals

/-- The review of a retrieval that is not awaited drops it. -/
lemma sweptTo_concat_of_not_awaits (hawaits : awaits node w key = false) :
    sweptTo node w (reviewed ++ [key]) =
      { sweptTo node w reviewed with
        pieces := (sweptTo node w reviewed).pieces.touch key
        retrievals := (sweptTo node w reviewed).retrievals.erase key } := by
  have hretrievals : (sweptTo node w (reviewed ++ [key])).retrievals =
      (sweptTo node w reviewed).retrievals.erase key := by
    rw [sweptTo, sweptTo, erase_filter]
    refine congrArg w.retrievals.filter (funext fun entry => ?_)
    by_cases hself : entry.1 = key
    · simp [hself, hawaits]
    · simp [hself]
  exact congrArg₂ (fun pieces retrievals => { w with pieces, retrievals }) pieces_sweptTo_concat
    hretrievals

/-- The review of a pending retrieval. -/
lemma meets_sweepKey_replying (key : Cid) (rest : List Cid) (w₁ : Worker) (h : History)
    (hsweeps : Sweeps node w (key :: rest) w₁ h) :
    Meets (replying node) (sweepKey key) w₁ h (fun _ => Sweeps node w rest)
      fun _ _ _ => True := by
  obtain ⟨reviewed, hkeys, rfl, hquiet⟩ := hsweeps
  have hreviewed : w.retrievals.keys = (reviewed ++ [key]) ++ rest := by
    rw [hkeys, List.append_assoc, List.singleton_append]
  have hpayload : ((sweptTo node w reviewed).pieces.find? key).bind Piece.payload? =
      w.payload? key := payload?_sweptTo
  simp only [sweepKey, findPiece, dropRetrieval, meets_bind, meets_get, meets_update, meets_pure,
    hpayload]
  refine ⟨trivial, ?_⟩
  cases hsome : w.payload? key with
  | none =>
    have hawaits : awaits node w key = false := by rw [awaits, hsome]
    refine meets_update.2 ⟨trivial, reviewed ++ [key], hreviewed, ?_, hquiet.probes, hquiet.choices⟩
    rw [sweptTo_concat_of_not_awaits hawaits]
  | some payload =>
    rw [meets_bind]
    refine meets_request_replying.2 ⟨fun isLocal hlocal => ?_, fun _ _ => trivial⟩
    have hawaits : awaits node w key = !isLocal := by
      rw [awaits, hsome]
      simp only [hlocal]
    cases isLocal with
    | true =>
      refine meets_update.2 ⟨trivial, reviewed ++ [key], hreviewed, ?_, hquiet.probes,
        hquiet.choices⟩
      rw [sweptTo_concat_of_not_awaits hawaits]
    | false =>
      refine meets_pure.2 ⟨reviewed ++ [key], hreviewed, ?_, hquiet.probes, hquiet.choices⟩
      rw [sweptTo_concat_of_awaits hawaits]

/-- The sweep of the retrievals. -/
lemma meets_sweep_replying (hquiet : Quiet [] h) :
    Meets (replying node) (w.retrievals.keys.forM sweepKey) w h
      (fun _ w' h' => w' = swept node w ∧ Quiet [] h') fun _ _ _ => True := by
  have hbefore : w = sweptTo node w [] := by
    have hretrievals : w.retrievals = (sweptTo node w []).retrievals :=
      (filter_eq_self fun _ _ => rfl).symm
    rw [sweptTo, List.foldl_nil]
    exact congrArg (fun retrievals => { w with retrievals }) hretrievals
  have hsweeps : Sweeps node w w.retrievals.keys w h := ⟨[], rfl, hbefore, hquiet⟩
  refine (meets_forM (Sweeps node w) meets_sweepKey_replying hsweeps).mono ?_ fun _ _ _ => id
  rintro ⟨⟩ w' h' ⟨reviewed, hkeys, hworker, hquiet⟩
  rw [List.append_nil] at hkeys
  subst hworker
  exact ⟨by rw [swept, hkeys], hquiet⟩

/-- After the sweep each pending retrieval is one of an inventory piece. -/
lemma mem_keys_of_mem_keys_swept (hmem : key ∈ (swept node w).retrievals.keys) :
    key ∈ (swept node w).pieces.keys := by
  obtain ⟨response, hfound⟩ := exists_find? hmem
  obtain ⟨hbefore, hkept⟩ := find?_filter_eq_some_iff.1 hfound
  have hreviewed : w.retrievals.keys.contains key = true :=
    List.contains_iff_mem.2 (mem_keys_of_find? hbefore)
  have hawaits : awaits node w key = true := by
    rw [hreviewed, Bool.true_and, Bool.not_not] at hkept
    exact hkept
  obtain ⟨piece, hpiece⟩ : ∃ piece, w.pieces.find? key = some piece := by
    cases hpiece : w.pieces.find? key with
    | some piece => exact ⟨piece, rfl⟩
    | none =>
      rw [awaits, Worker.payload?, hpiece] at hawaits
      cases hawaits
  have hleft : (swept node w).pieces.find? key = some piece := by
    rw [swept, sweptTo, find?_foldl_touch, hpiece]
  exact mem_keys_of_find? hleft

end Retrieval

end PieceReplication
