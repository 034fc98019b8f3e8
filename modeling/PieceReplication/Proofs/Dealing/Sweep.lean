import PieceReplication.Proofs.Conduct.Dealing
import PieceReplication.Proofs.Inventory.Selection
import PieceReplication.Proofs.Run.Replies

/-!
# The meaning of the sweep of the deals

Against a replier each followed deal is reviewed for itself (`review`): what was found out about the
deals before it changes nothing for it.  So the sweep leaves a selection of the deals, those that
are on their way, and a selection of the inventory, the pieces without an active deal (`swept`).  A
sweep that is given up, at a deal whose state cannot be told, has done so much for the deals before
it and has moved that deal to the end (`SweepFails`).
-/

namespace PieceReplication.Dealing

open History Activity BoundedMap

variable {node : Replier} {w w' : Worker} {h : History} {key : Cid}

/-- What the review of a followed deal finds. -/
inductive Review where
  /-- The piece is not in the inventory. -/
  | gone
  /-- The state of the deal cannot be told. -/
  | unknown (failure : Failure)
  /-- The deal is active. -/
  | replicated
  /-- The deal has failed for good. -/
  | ended
  /-- The deal is on its way. -/
  | kept
  deriving DecidableEq

/-- What the review of a deal, a piece with its proposal, finds in a worker. -/
def review (node : Replier) (w : Worker) (deal : Cid × Cid) : Review :=
  if w.pieces.contains deal.1 then
    match node (.dealSweep deal.1) (.dealInfo deal.2) with
    | .error failure => .unknown failure
    | .ok info =>
      if info.state = .active then .replicated
      else if info.state.isTerminalFailure then .ended
      else .kept
  else .gone

/-- Whether the review of a deal comes to an end. -/
def Review.isKnown : Review → Bool
  | unknown _ => false
  | _ => true

/-- The deals that are kept of some deals. -/
def keptOf (node : Replier) (w : Worker) (deals : List (Cid × Cid)) : List (Cid × Cid) :=
  deals.filter fun deal => review node w deal == .kept

/-- The inventory without the pieces whose deals turn out to be active among some deals. -/
def piecesAfter (node : Replier) (w : Worker) (reviewed : List (Cid × Cid)) : BoundedMap Piece :=
  w.pieces.filter fun entry =>
    !reviewed.any fun deal => deal.1 == entry.1 && review node w deal == .replicated

/-- The worker after the sweep. -/
def swept (node : Replier) (w : Worker) : Worker :=
  { w with
    pieces := piecesAfter node w w.deals.entries
    deals := w.deals.filter fun deal => review node w deal == .kept }

/-- In a sweep, after some deals were reviewed. -/
structure SweptTo (node : Replier) (w : Worker) (reviewed left : List (Cid × Cid)) (w' : Worker)
    (h : History) : Prop where
  known : ∀ deal ∈ reviewed, (review node w deal).isKnown
  cursor : w'.cursor = w.cursor
  retrievals : w'.retrievals = w.retrievals
  pieces : w'.pieces = piecesAfter node w reviewed
  capacity : w'.deals.capacity = w.deals.capacity
  /-- The deals that are followed. -/
  entries : w'.deals.entries = left
  noneStarted : NoneStarted [] h

/-- The keys that are left to the sweep are those of the deals that were not reviewed. -/
def Sweeps (node : Replier) (w : Worker) (keys : List Cid) (w' : Worker) (h : History) : Prop :=
  ∃ reviewed rest, w.deals.entries = reviewed ++ rest ∧ rest.map Prod.fst = keys ∧
    SweptTo node w reviewed (rest ++ keptOf node w reviewed) w' h

/-- The sweep is given up at a deal whose state cannot be told. -/
def SweepFails (node : Replier) (w : Worker) (error : PhaseError) (w' : Worker) (h : History) :
    Prop :=
  ∃ reviewed deal rest failure, w.deals.entries = reviewed ++ deal :: rest ∧
    review node w deal = .unknown failure ∧ error = .transport failure ∧
    SweptTo node w reviewed (rest ++ keptOf node w reviewed ++ [deal]) w' h

/-- A piece that is not that of a reviewed deal stays in the inventory. -/
lemma find?_piecesAfter {reviewed : List (Cid × Cid)} (hnew : key ∉ reviewed.map Prod.fst) :
    (piecesAfter node w reviewed).find? key = w.pieces.find? key := by
  have hkept : (!reviewed.any fun deal =>
      deal.1 == key && review node w deal == .replicated) = true := by
    rw [Bool.not_eq_true', List.any_eq_false]
    intro deal hdeal hfound
    rw [Bool.and_eq_true, beq_iff_eq] at hfound
    exact hnew (hfound.1 ▸ List.mem_map_of_mem hdeal)
  rw [piecesAfter, find?_filter_fst (p := fun key => !reviewed.any fun deal =>
    deal.1 == key && review node w deal == .replicated), if_pos hkept]

/-- The review of an active deal drops its piece. -/
lemma piecesAfter_concat_of_replicated {reviewed : List (Cid × Cid)} {deal : Cid × Cid}
    (hreview : review node w deal = .replicated) :
    piecesAfter node w (reviewed ++ [deal]) = (piecesAfter node w reviewed).erase deal.1 := by
  rw [piecesAfter, piecesAfter, erase_filter]
  refine congrArg _ (funext fun entry => ?_)
  have hne : (entry.1 != deal.1) = !(deal.1 == entry.1) := by rw [bne, Bool.beq_comm]
  rw [hne, Bool.and_comm]
  simp only [List.any_append, List.any_cons, List.any_nil, hreview, beq_self_eq_true,
    Bool.and_true, Bool.or_false, Bool.not_or]

/-- The review of another deal drops no piece. -/
lemma piecesAfter_concat_of_ne {reviewed : List (Cid × Cid)} {deal : Cid × Cid}
    (hreview : review node w deal ≠ .replicated) :
    piecesAfter node w (reviewed ++ [deal]) = piecesAfter node w reviewed := by
  rw [piecesAfter, piecesAfter]
  refine congrArg _ (funext fun entry => ?_)
  simp only [List.any_append, List.any_cons, List.any_nil, beq_false_of_ne hreview,
    Bool.and_false, Bool.or_false]

/-- A deal that was reviewed and not kept. -/
lemma keptOf_concat_of_ne {reviewed : List (Cid × Cid)} {deal : Cid × Cid}
    (hreview : review node w deal ≠ .kept) :
    keptOf node w (reviewed ++ [deal]) = keptOf node w reviewed := by
  rw [keptOf, List.filter_append, List.filter_cons_of_neg (by simpa using hreview),
    List.filter_nil, List.append_nil, keptOf]

/-- A deal that was reviewed and kept. -/
lemma keptOf_concat_of_kept {reviewed : List (Cid × Cid)} {deal : Cid × Cid}
    (hreview : review node w deal = .kept) :
    keptOf node w (reviewed ++ [deal]) = keptOf node w reviewed ++ [deal] := by
  rw [keptOf, List.filter_append, List.filter_cons_of_pos (by simpa using hreview),
    List.filter_nil, keptOf]

/-- The next deal was reviewed. -/
lemma SweptTo.sweeps {reviewed left rest : List (Cid × Cid)} {deal : Cid × Cid} {w'' : Worker}
    {h' : History} (hswept : SweptTo node w reviewed left w' h)
    (hentries : w.deals.entries = reviewed ++ deal :: rest) (hknown : (review node w deal).isKnown)
    (hcursor : w''.cursor = w'.cursor) (hretrievals : w''.retrievals = w'.retrievals)
    (hpieces : w''.pieces =
      if review node w deal = .replicated then w'.pieces.erase deal.1 else w'.pieces)
    (hcapacity : w''.deals.capacity = w'.deals.capacity)
    (hleft : w''.deals.entries =
      if review node w deal = .kept then rest ++ keptOf node w reviewed ++ [deal]
      else rest ++ keptOf node w reviewed)
    (hnone : NoneStarted h h') : Sweeps node w (rest.map Prod.fst) w'' h' := by
  have hreviewed : w.deals.entries = (reviewed ++ [deal]) ++ rest := by
    rw [hentries, List.append_assoc, List.singleton_append]
  refine ⟨reviewed ++ [deal], rest, hreviewed, rfl, ?_, hcursor.trans hswept.cursor,
    hretrievals.trans hswept.retrievals, ?_, hcapacity.trans hswept.capacity, ?_,
    hswept.noneStarted.trans hnone⟩
  · intro other hother
    rcases List.mem_append.1 hother with hold | hnew
    · exact hswept.known other hold
    · rwa [List.mem_singleton.1 hnew]
  · rw [hpieces, hswept.pieces]
    split
    · next hactive => exact (piecesAfter_concat_of_replicated hactive).symm
    · next hactive => exact (piecesAfter_concat_of_ne hactive).symm
  · rw [hleft]
    split
    · next hkept => rw [keptOf_concat_of_kept hkept, List.append_assoc]
    · next hkept => rw [keptOf_concat_of_ne hkept]

/-- The review of a deal. -/
lemma meets_sweepKey_replying (key : Cid) (rest : List Cid) (w₁ : Worker) (h : History)
    (hsweeps : Sweeps node w (key :: rest) w₁ h) :
    Meets (replying node) (sweepKey key) w₁ h (fun _ => Sweeps node w rest)
      (SweepFails node w) := by
  obtain ⟨reviewed, left, hentries, hkeys, hswept⟩ := hsweeps
  obtain ⟨⟨key', proposal⟩, left, rfl⟩ : ∃ deal left', left = deal :: left' := by
    cases left with
    | nil => cases hkeys
    | cons deal left' => exact ⟨deal, left', rfl⟩
  obtain ⟨rfl, rfl⟩ : key' = key ∧ left.map Prod.fst = rest := List.cons.inj hkeys
  -- the piece was not dropped by the review of another deal
  have hdealKeys : w.deals.keys = reviewed.map Prod.fst ++ key' :: left.map Prod.fst := by
    rw [keys, hentries, List.map_append, List.map_cons]
  have hnew : key' ∉ reviewed.map Prod.fst := notMem_of_keys_eq hdealKeys
  have hcontains : w₁.pieces.contains key' = w.pieces.contains key' := by
    rw [contains, contains, hswept.pieces, find?_piecesAfter hnew]
  have hfirst : w₁.deals.entries = (key', proposal) :: (left ++ keptOf node w reviewed) :=
    hswept.entries
  simp only [sweepKey, dropDeal, dropPiece, meets_bind, meets_get, hcontains]
  split
  · next hmem =>
    have htouched : (w₁.deals.touch key').entries =
        left ++ keptOf node w reviewed ++ [(key', proposal)] :=
      entries_touch_of_entries_eq_cons hfirst
    simp only [meets_bind, meets_update, find?_of_entries_eq_cons hfirst]
    refine ⟨trivial, meets_request_replying.2 ⟨fun info hinfo => ?_, fun failure hfailure => ?_⟩⟩
    · have hreview : review node w (key', proposal) =
          if info.state = .active then .replicated
          else if info.state.isTerminalFailure then .ended else .kept := by
        rw [review, if_pos hmem, hinfo]
      -- what is left of the deals once the deal is no longer followed
      have hdropped : ((w₁.deals.touch key').erase key').entries =
          left ++ keptOf node w reviewed := by
        rw [← List.append_nil (left ++ keptOf node w reviewed)]
        exact others_of_entries_eq htouched
      split
      · next hactive =>
        rw [if_pos hactive] at hreview
        simp only [meets_bind, meets_log, meets_update]
        exact ⟨trivial, trivial, trivial, hswept.sweeps hentries (by rw [hreview]; rfl) rfl rfl
          (by rw [hreview]; rfl) capacity_touch (by rw [hreview]; exact hdropped) ⟨rfl, rfl⟩⟩
      · next hactive =>
        rw [if_neg hactive] at hreview
        split
        · next hended =>
          rw [if_pos hended] at hreview
          simp only [meets_bind, meets_log, meets_update]
          exact ⟨trivial, trivial, hswept.sweeps hentries (by rw [hreview]; rfl) rfl rfl
            (by rw [hreview]; rfl) capacity_touch (by rw [hreview]; exact hdropped) ⟨rfl, rfl⟩⟩
        · next hended =>
          rw [if_neg hended] at hreview
          exact meets_pure.2 (hswept.sweeps hentries (by rw [hreview]; rfl) rfl rfl
            (by rw [hreview]; rfl) capacity_touch (by rw [hreview]; exact htouched) ⟨rfl, rfl⟩)
    · have hreview : review node w (key', proposal) = .unknown failure := by
        rw [review, if_pos hmem, hfailure]
      refine ⟨reviewed, (key', proposal), left, failure, hentries, hreview, rfl, ?_⟩
      exact ⟨hswept.known, hswept.cursor, hswept.retrievals, hswept.pieces,
        capacity_touch.trans hswept.capacity, htouched, hswept.noneStarted.trans ⟨rfl, rfl⟩⟩
  · next hgone =>
    have hreview : review node w (key', proposal) = .gone := if_neg hgone
    have hothers : w₁.deals.others key' = [] ++ (left ++ keptOf node w reviewed) :=
      others_of_entries_eq hfirst
    simp only [meets_update, meets_bind, meets_pure]
    exact ⟨trivial, hswept.sweeps hentries (by rw [hreview]; rfl) rfl rfl
      (by rw [hreview]; rfl) rfl (by rw [hreview]; exact hothers) ⟨rfl, rfl⟩⟩

/-- A sweep that ends has reviewed all deals. -/
lemma Sweeps.eq_swept (hsweeps : Sweeps node w [] w' h) :
    (∀ deal ∈ w.deals.entries, (review node w deal).isKnown) ∧ w' = swept node w ∧
      NoneStarted [] h := by
  obtain ⟨reviewed, rest, hentries, hkeys, hswept⟩ := hsweeps
  obtain rfl := List.map_eq_nil_iff.1 hkeys
  rw [List.append_nil] at hentries
  refine ⟨hentries ▸ hswept.known, ?_, hswept.noneStarted⟩
  have hdeals : w'.deals = w.deals.filter fun deal => review node w deal == .kept := by
    refine ext hswept.capacity ?_
    rw [hswept.entries, ← hentries, List.nil_append]
    rfl
  have hpieces : w'.pieces = piecesAfter node w w.deals.entries := hentries ▸ hswept.pieces
  rw [swept, ← hpieces, ← hdeals, ← hswept.cursor, ← hswept.retrievals]

/-- The sweep of the deals. -/
lemma meets_sweep_replying (hnone : NoneStarted [] h) :
    Meets (replying node) (w.deals.keys.forM sweepKey) w h
      (fun _ w' h' => (∀ deal ∈ w.deals.entries, (review node w deal).isKnown) ∧
        w' = swept node w ∧ NoneStarted [] h')
      (SweepFails node w) := by
  have hpieces : piecesAfter node w [] = w.pieces := filter_eq_self fun _ _ => rfl
  have hsweeps : Sweeps node w w.deals.keys w h := by
    refine ⟨[], w.deals.entries, rfl, rfl, ?_, rfl, rfl, hpieces.symm, rfl, ?_, hnone⟩
    · intro deal hdeal
      cases hdeal
    · exact (List.append_nil _).symm
  exact (meets_forM (Sweeps node w) meets_sweepKey_replying hsweeps).mono
    (fun _ _ _ => Sweeps.eq_swept) fun _ _ _ => id

end PieceReplication.Dealing
