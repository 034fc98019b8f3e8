import PieceReplication.Proofs.Dealing.Sweep
import PieceReplication.Proofs.Run.Stopping

/-!
# The meaning of the deal phase

Against a replier the deal phase has a meaning that mentions no step of it.  The scan takes each
piece for itself (`standing`), as it stands when the scan begins: what was done for the pieces
before it changes neither its payload nor whether a deal is followed for it.  So the deals after
some pieces are those before the scan followed by the ones that the pieces were dealt under, and the
pieces that were found served are gone (`Scanned`).  The scan stops at the first piece after which
too many deals are followed (`Enough`), or it is given up at a piece (`Faults`).  The phase is a
sweep that leaves too many deals, or a sweep and a scan (`Completes`), if it is not given up
(`GivesUp`).
-/

namespace PieceReplication.Dealing

open History Activity BoundedMap

variable {node : Replier} {setup : Setup} {w w' : Worker} {h : History} {key : Cid}

/-! ## Pieces -/

/-- What a scan finds out about a piece, before it comes to the miner. -/
inductive Standing where
  /-- There is nothing to do for the piece: its payload is not here, or a deal is followed. -/
  | idle
  /-- The local miner serves the payload. -/
  | served
  /-- The payload is here and the local miner does not serve it. -/
  | eligible (payload : PayloadRef)
  /-- The node does not tell. -/
  | unknown (failure : Failure)
  deriving DecidableEq

/-- Whether a scan that comes to a piece goes on. -/
def Standing.isKnown : Standing → Bool
  | unknown _ => false
  | _ => true

/-- What a scan that begins in a state of the worker finds out about a piece. -/
def standing (node : Replier) (setup : Setup) (w : Worker) (key : Cid) : Standing :=
  match w.payload? key with
  | none => .idle
  | some payload =>
    match node (.dealScan key) (.hasLocal payload.root) with
    | .error failure => .unknown failure
    | .ok false => .idle
    | .ok true =>
      if w.deals.contains key then .idle
      else
        match node (.dealScan key) (.offer setup.miner payload.root) with
        | .error failure => .unknown failure
        | .ok offer => if offer.isAvailable then .served else .eligible payload

section Offer

variable {payload : PayloadRef} (hpayload : w.payload? key = some payload)
  (hlocal : node (.dealScan key) (.hasLocal payload.root) = .ok true)
  (hnew : ¬ w.deals.contains key = true)

include hpayload hlocal hnew

/-- A piece whose payload is here and that has no deal stands as the offer tells. -/
lemma standing_of_offer {offer : Offer}
    (hoffer : node (.dealScan key) (.offer setup.miner payload.root) = .ok offer) :
    standing node setup w key = if offer.isAvailable then .served else .eligible payload := by
  simp only [standing, hpayload, hlocal, if_neg hnew, hoffer]

/-- Without an offer the node does not tell how the piece stands. -/
lemma standing_of_no_offer {failure : Failure}
    (hoffer : node (.dealScan key) (.offer setup.miner payload.root) = .error failure) :
    standing node setup w key = .unknown failure := by
  simp only [standing, hpayload, hlocal, if_neg hnew, hoffer]

end Offer

/-- Whether a deal is to be proposed for a piece. -/
def isEligible (node : Replier) (setup : Setup) (w : Worker) (key : Cid) : Bool :=
  match standing node setup w key with
  | .eligible _ => true
  | _ => false

/-- The proposal of a deal for a piece, if one is to be proposed. -/
def start? (node : Replier) (setup : Setup) (w : Worker) (key : Cid) : Option (Purpose × Call) :=
  match standing node setup w key with
  | .eligible payload => some (.dealScan key, .startDeal (terms setup payload))
  | _ => none

/-- The deal that is started for a piece, with its proposal, if one is. -/
def published? (node : Replier) (setup : Setup) (w : Worker) (key : Cid) : Option (Cid × Cid) :=
  match standing node setup w key with
  | .eligible payload =>
    match node (.dealScan key) (.startDeal (terms setup payload)) with
    | .ok proposal => some (key, proposal)
    | .error _ => none
  | _ => none

/-- Whether the scan may begin: each deal is one of an inventory piece, the containers share one
capacity, and no more deals are followed than the cap allows. -/
structure Ready (setup : Setup) (w : Worker) : Prop where
  within : ∀ key ∈ w.deals.keys, key ∈ w.pieces.keys
  capacity : w.deals.capacity = w.pieces.capacity
  size_le : w.deals.size ≤ setup.config.dealParallel.toNat

/-- What a scan leaves aside: the cursor, the retrievals and the bounds on the other containers. -/
structure Aside (w w' : Worker) : Prop where
  cursor : w'.cursor = w.cursor
  retrievals : w'.retrievals = w.retrievals
  pieces : w'.pieces.capacity = w.pieces.capacity
  deals : w'.deals.capacity = w.deals.capacity

/-- What is left aside twice is left aside. -/
lemma Aside.trans {w w₁ w₂ : Worker} (hfirst : Aside w w₁) (hsecond : Aside w₁ w₂) :
    Aside w w₂ where
  cursor := hsecond.cursor.trans hfirst.cursor
  retrievals := hsecond.retrievals.trans hfirst.retrievals
  pieces := hsecond.pieces.trans hfirst.pieces
  deals := hsecond.deals.trans hfirst.deals

/-- In a scan that began in a state of the worker, after some pieces were visited. -/
structure Scanned (node : Replier) (setup : Setup) (w : Worker) (visited : List Cid) (w' : Worker)
    (h : History) : Prop where
  aside : Aside w w'
  /-- The node has told about each visited piece. -/
  known : ∀ key ∈ visited, (standing node setup w key).isKnown
  /-- Deals were started for pieces, and no other deal is followed than before. -/
  entries : w'.deals.entries = w.deals.entries ++ visited.filterMap (published? node setup w)
  /-- Pieces were dropped that the local miner serves, and no others. -/
  find?_eq : ∀ key, w'.pieces.find? key =
    if key ∈ visited ∧ standing node setup w key = .served then none else w.pieces.find? key
  starts : h.starts = visited.filterMap (start? node setup w)
  returned : h.returned = (visited.filterMap (published? node setup w)).reverse

/-- Whether too many deals are followed once some pieces were visited. -/
def Enough (node : Replier) (setup : Setup) (w : Worker) (visited : List Cid) : Prop :=
  setup.config.dealParallel.toNat <
    w.deals.size + (visited.filterMap (published? node setup w)).length

/-- Why a scan is given up at a piece, after others were visited. -/
inductive Faults (node : Replier) (setup : Setup) (w : Worker) (visited : List Cid) (key : Cid) :
    PhaseError → Prop where
  /-- The node does not tell about the piece. -/
  | piece {failure} (hstanding : standing node setup w key = .unknown failure) :
    Faults node setup w visited key (.transport failure)
  /-- The node does not tell about the miner. -/
  | miner {failure} (hfirst : (visited ++ [key]).find? (isEligible node setup w) = some key)
    (hreply : node (.dealScan key) (.minerInfo setup.miner) = .error failure) :
    Faults node setup w visited key (.transport failure)
  /-- The miner is not initialized. -/
  | uninitialized {info} (hfirst : (visited ++ [key]).find? (isEligible node setup w) = some key)
    (hreply : node (.dealScan key) (.minerInfo setup.miner) = .ok info)
    (hinfo : info.isInitialized = false) :
    Faults node setup w visited key .minerNotInitialized

/-- Whether the miner turns out to be initialized at the first piece that a deal is to be proposed
for, if there is one. -/
def Cleared (node : Replier) (setup : Setup) (w : Worker) (visited : List Cid) : Prop :=
  ∀ key, visited.find? (isEligible node setup w) = some key →
    ∃ info, node (.dealScan key) (.minerInfo setup.miner) = .ok info ∧ info.isInitialized = true

variable {visited : List Cid} {w₁ : Worker} {payload : PayloadRef}

/-- What a single piece adds to the values of the visited ones. -/
lemma filterMap_concat {β γ : Type} (f : β → Option γ) (l : List β) (element : β) :
    (l ++ [element]).filterMap f = l.filterMap f ++ (f element).toList := by
  rw [List.filterMap_append]
  cases h : f element with
  | none => rw [List.filterMap_cons_none h]; rfl
  | some value => rw [List.filterMap_cons_some h]; rfl

/-- The number of deals after some pieces were visited. -/
lemma Scanned.enough_iff (hs : Scanned node setup w visited w₁ h) :
    Enough node setup w visited ↔ setup.config.dealParallel.toNat < w₁.deals.size := by
  rw [Enough, size.eq_1 w₁.deals, hs.entries, List.length_append, size]

/-- A piece is visited. -/
lemma Scanned.concat (hs : Scanned node setup w visited w₁ h) {h' : History}
    (haside : Aside w₁ w') (hknown : (standing node setup w key).isKnown)
    (hentries : w'.deals.entries = w₁.deals.entries ++ (published? node setup w key).toList)
    (hfind : ∀ other, w'.pieces.find? other =
      if other = key ∧ standing node setup w key = .served then none else w₁.pieces.find? other)
    (hstarts : h'.starts = h.starts ++ (start? node setup w key).toList)
    (hreturned : h'.returned = (published? node setup w key).toList ++ h.returned) :
    Scanned node setup w (visited ++ [key]) w' h' where
  aside := hs.aside.trans haside
  known := by
    intro other hother
    rcases List.mem_append.1 hother with hold | hnew
    · exact hs.known other hold
    · rwa [List.mem_singleton.1 hnew]
  entries := by rw [hentries, hs.entries, filterMap_concat, List.append_assoc]
  find?_eq := by
    intro other
    rw [hfind, hs.find?_eq]
    by_cases hself : other = key
    · subst hself
      by_cases hserved : standing node setup w other = .served
      · simp [hserved]
      · simp [hserved]
    · simp [hself]
  starts := by rw [hstarts, hs.starts, filterMap_concat]
  returned := by
    rw [hreturned, hs.returned, filterMap_concat, List.reverse_append]
    cases published? node setup w key <;> rfl

/-- A look-up of a piece and a call that proposes no deal leave the scan where it is. -/
lemma Scanned.touched (hs : Scanned node setup w visited w₁ h) {h' : History}
    (hnone : NoneStarted h h') :
    Scanned node setup w visited { w₁ with pieces := w₁.pieces.touch key } h' where
  aside := hs.aside.trans ⟨rfl, rfl, capacity_touch, rfl⟩
  known := hs.known
  entries := hs.entries
  find?_eq := fun other => find?_touch.trans (hs.find?_eq other)
  starts := hnone.starts.trans hs.starts
  returned := hnone.returned.trans hs.returned

/-- A deal that is started is one for the piece, and was to be proposed. -/
lemma fst_of_published? {deal : Cid × Cid} (h : published? node setup w key = some deal) :
    deal.1 = key ∧ isEligible node setup w key = true := by
  rw [published?] at h
  split at h
  · next payload hstanding =>
    split at h
    · cases h
      exact ⟨rfl, by rw [isEligible, hstanding]⟩
    · cases h
  · cases h

/-- A deal that is followed in a scan was followed before, or is one that was to be proposed for a
visited piece. -/
lemma Scanned.mem_keys_or_mem (hs : Scanned node setup w visited w₁ h)
    (hmem : key ∈ w₁.deals.keys) :
    key ∈ w.deals.keys ∨ key ∈ visited ∧ isEligible node setup w key = true := by
  rw [keys, hs.entries, List.map_append, List.mem_append] at hmem
  refine hmem.imp_right fun hnew => ?_
  obtain ⟨deal, hdeal, rfl⟩ := List.mem_map.1 hnew
  obtain ⟨other, hother, hpublished⟩ := List.mem_filterMap.1 hdeal
  obtain ⟨hfst, heligible⟩ := fst_of_published? hpublished
  rw [hfst]
  exact ⟨hother, heligible⟩

/-- A deal that was followed before a scan is followed in it. -/
lemma Scanned.mem_keys (hs : Scanned node setup w visited w₁ h) (hmem : key ∈ w.deals.keys) :
    key ∈ w₁.deals.keys := by
  rw [keys, hs.entries, List.map_append]
  exact List.mem_append_left _ hmem

/-- In a scan of the inventory that goes on: the miner was found initialized if a deal was to be
proposed, and the deals are not too many. -/
structure Going (node : Replier) (setup : Setup) (w : Worker) (visited : List Cid)
    (isChecked : Bool) (w' : Worker) (h : History) : Prop where
  scanned : Scanned node setup w visited w' h
  lacking : Lacking (Enough node setup w) visited
  cleared : Cleared node setup w visited
  isChecked_eq : isChecked = visited.any (isEligible node setup w)

/-- How the visit of a piece, the last of the visited ones, leaves the scan. -/
def VisitEnds (node : Replier) (setup : Setup) (w : Worker) (visited : List Cid)
    (isChecked : Bool) : Visit → Worker → History → Prop
  | .passed, w', h => Going node setup w visited isChecked w' h
  | .minerChecked, w', h => Going node setup w visited true w' h
  | .full, w', h => Scanned node setup w visited w' h ∧ Enough node setup w visited ∧
      Cleared node setup w visited

/-- How a scan is given up at a piece, after others were visited. -/
def FaultsAt (node : Replier) (setup : Setup) (w : Worker) (visited : List Cid) (key : Cid)
    (error : PhaseError) (w' : Worker) (h : History) : Prop :=
  Scanned node setup w visited w' h ∧ Lacking (Enough node setup w) visited ∧
    Cleared node setup w visited ∧ Faults node setup w visited key error

variable {isChecked : Bool} {rest : List Cid}

/-- Where a deal is to be proposed. -/
lemma isEligible_of_standing (hstanding : standing node setup w key = .eligible payload) :
    isEligible node setup w key = true := by
  rw [isEligible, hstanding]

/-- For a piece that no deal is to be proposed for, none is. -/
lemma start?_eq_none (hnot : isEligible node setup w key = false) :
    start? node setup w key = none := by
  rw [isEligible] at hnot
  rw [start?]
  split at hnot
  · cases hnot
  · rfl

/-- For a piece that no deal is to be proposed for, none is started. -/
lemma published?_eq_none (hnot : isEligible node setup w key = false) :
    published? node setup w key = none := by
  rw [isEligible] at hnot
  rw [published?]
  split at hnot
  · cases hnot
  · rfl

/-- A piece that no deal is to be proposed for was visited. -/
lemma Going.passed (hs : Going node setup w visited isChecked w₁ h) {h' : History}
    (hnot : isEligible node setup w key = false) (hknown : (standing node setup w key).isKnown)
    (haside : Aside w₁ w') (hdeals : w'.deals = w₁.deals)
    (hfind : ∀ other, w'.pieces.find? other =
      if other = key ∧ standing node setup w key = .served then none else w₁.pieces.find? other)
    (hnone : NoneStarted h h') : Going node setup w (visited ++ [key]) isChecked w' h' := by
  have hunpublished := published?_eq_none hnot
  refine ⟨hs.scanned.concat haside hknown ?_ hfind ?_ ?_, hs.lacking.concat ?_, ?_, ?_⟩
  · rw [hunpublished, hdeals, Option.toList_none, List.append_nil]
  · rw [start?_eq_none hnot, hnone.starts, Option.toList_none, List.append_nil]
  · rw [hunpublished, hnone.returned, Option.toList_none, List.nil_append]
  · rw [Enough, filterMap_concat, hunpublished, Option.toList_none, List.append_nil]
    exact hs.lacking visited (List.prefix_refl _)
  · intro first hfirst
    refine hs.cleared first ?_
    rwa [List.find?_append, List.find?_singleton, hnot, if_neg Bool.false_ne_true,
      Option.or_none] at hfirst
  · rw [hs.isChecked_eq, List.any_append, List.any_cons, hnot, List.any_nil, Bool.or_false,
      Bool.or_false]

/-- The check of the miner. -/
lemma meets_checkMiner_replying (hs : Going node setup w visited isChecked w₁ h)
    (hstanding : standing node setup w key = .eligible payload) {w₂ : Worker} {h₂ : History} :
    Meets (replying node) (checkMiner setup key isChecked) w₂ h₂
      (fun _ w' h' => w' = w₂ ∧ NoneStarted h₂ h' ∧ Cleared node setup w (visited ++ [key]))
      (fun error w' h' => w' = w₂ ∧ NoneStarted h₂ h' ∧
        Faults node setup w visited key error) := by
  have heligible := isEligible_of_standing hstanding
  have hfirst : ∀ hnone : visited.any (isEligible node setup w) = false,
      (visited ++ [key]).find? (isEligible node setup w) = some key := by
    intro hnone
    have hbefore : visited.find? (isEligible node setup w) = none := by
      rw [List.find?_eq_none]
      intro other hother
      exact List.any_eq_false.1 hnone other hother
    rw [List.find?_append, hbefore, Option.none_or, List.find?_singleton, if_pos heligible]
  cases isChecked with
  | true =>
    refine meets_pure.2 ⟨rfl, ⟨rfl, rfl⟩, fun first hfound => hs.cleared first ?_⟩
    obtain ⟨other, hother, hbefore⟩ := List.any_eq_true.1 hs.isChecked_eq.symm
    obtain ⟨earlier, hearlier⟩ := Option.isSome_iff_exists.1
      (List.find?_isSome.2 ⟨other, hother, hbefore⟩)
    rw [List.find?_append, hearlier, Option.some_or] at hfound
    rw [hearlier, hfound]
  | false =>
    replace hfirst := hfirst hs.isChecked_eq.symm
    simp only [checkMiner, Bool.false_eq_true, ↓reduceIte, meets_bind]
    refine meets_request_replying.2 ⟨fun info hinfo => ?_, fun failure hfailure => ?_⟩
    · split
      · next hready =>
        refine meets_pure.2 ⟨rfl, ⟨rfl, rfl⟩, fun first hfound => ?_⟩
        obtain rfl : key = first := Option.some.inj (hfirst.symm.trans hfound)
        exact ⟨info, hinfo, hready⟩
      · next hready =>
        exact meets_throw.2
          ⟨rfl, ⟨rfl, rfl⟩, .uninitialized hfirst hinfo (Bool.eq_false_iff.2 hready)⟩
    · exact ⟨rfl, ⟨rfl, rfl⟩, .miner hfirst hfailure⟩

/-- A deal was proposed for a piece, and the deals are not too many. -/
lemma Going.proposed (hs : Going node setup w visited isChecked w₁ h) {h' : History}
    (hscanned : Scanned node setup w (visited ++ [key]) w' h')
    (heligible : isEligible node setup w key = true)
    (hcleared : Cleared node setup w (visited ++ [key]))
    (hroom : ¬ Enough node setup w (visited ++ [key])) :
    Going node setup w (visited ++ [key]) true w' h' := by
  refine ⟨hscanned, hs.lacking.concat hroom, hcleared, ?_⟩
  rw [List.any_append, List.any_cons, heligible, Bool.true_or, Bool.or_true]

section Proposal

variable {proposal : Cid} {failure : Failure} {h' : History}
  (hs : Scanned node setup w visited w₁ h)
  (hstanding : standing node setup w key = .eligible payload)

include hs hstanding

/-- A deal was proposed for a piece and refused. -/
lemma Scanned.refused
    (hreply : node (.dealScan key) (.startDeal (terms setup payload)) = .error failure)
    (hnone : NoneStarted (.answered (.dealScan key) (.startDeal (terms setup payload))
      (.error failure) :: .called (.dealScan key) (.startDeal (terms setup payload)) :: h) h') :
    Scanned node setup w (visited ++ [key]) w₁ h' := by
  have hunpublished : published? node setup w key = none := by
    rw [published?, hstanding]
    simp only [hreply]
  refine hs.concat ⟨rfl, rfl, rfl, rfl⟩ (by rw [hstanding]; rfl) ?_ (fun other => ?_) ?_ ?_
  · rw [hunpublished, Option.toList_none, List.append_nil]
  · rw [if_neg (by simp [hstanding])]
  · rw [start?, hstanding]
    exact hnone.starts
  · rw [hunpublished]
    exact hnone.returned

/-- A deal was started for a piece. -/
lemma Scanned.started
    (hreply : node (.dealScan key) (.startDeal (terms setup payload)) = .ok proposal)
    (hdeal : key ∉ w₁.deals.keys) (hroom : w₁.deals.size < w₁.deals.capacity)
    (hnone : NoneStarted (.answered (.dealScan key) (.startDeal (terms setup payload))
      (.ok proposal) :: .called (.dealScan key) (.startDeal (terms setup payload)) :: h) h') :
    Scanned node setup w (visited ++ [key])
      { w₁ with deals := w₁.deals.insert key proposal } h' := by
  have hpublished : published? node setup w key = some (key, proposal) := by
    rw [published?, hstanding]
    simp only [hreply]
  refine hs.concat ⟨rfl, rfl, rfl, rfl⟩ (by rw [hstanding]; rfl) ?_ (fun other => ?_) ?_ ?_
  · rw [hpublished]
    exact entries_insert_of_lt hdeal hroom
  · rw [if_neg (by simp [hstanding])]
  · rw [start?, hstanding]
    exact hnone.starts
  · rw [hpublished]
    exact hnone.returned

end Proposal

/-- In a scan there is room for the deal of a further piece, since each followed deal is one of an
inventory piece. -/
lemma Scanned.size_lt_capacity (hready : Ready setup w)
    (hkeys : w.pieces.keys = visited ++ key :: rest) (hs : Scanned node setup w visited w₁ h)
    (hdeal : key ∉ w₁.deals.keys) : w₁.deals.size < w₁.deals.capacity := by
  have hwithin : ∀ other ∈ w₁.deals.keys, other ∈ w.pieces.keys := by
    intro other hother
    rcases hs.mem_keys_or_mem hother with hold | ⟨hvisited, -⟩
    · exact hready.within other hold
    · exact hkeys ▸ List.mem_append_left _ hvisited
  have hmem : key ∈ w.pieces.keys := hkeys ▸ List.mem_append_right _ List.mem_cons_self
  rw [hs.aside.deals, hready.capacity]
  exact BoundedMap.size_lt_capacity hwithin hmem hdeal

/-- The proposal of a deal. -/
lemma meets_propose_replying (hready : Ready setup w)
    (hkeys : w.pieces.keys = visited ++ key :: rest)
    (hs : Going node setup w visited isChecked w₁ h)
    (hstanding : standing node setup w key = .eligible payload) (hdeal : key ∉ w₁.deals.keys)
    (hcleared : Cleared node setup w (visited ++ [key]))
    {given : PhaseError → Worker → History → Prop} :
    Meets (replying node) (propose setup key payload) w₁ h
      (VisitEnds node setup w (visited ++ [key]) isChecked) given := by
  have heligible := isEligible_of_standing hstanding
  have hlacks : ¬ Enough node setup w visited := hs.lacking visited (List.prefix_refl _)
  rw [propose, meets_bind, meets_attempt_replying]
  cases hreply : node (.dealScan key) (.startDeal (terms setup payload)) with
  | error failure =>
    simp only [meets_bind, meets_log, meets_pure]
    have hscanned : ∀ h', NoneStarted _ h' → Scanned node setup w (visited ++ [key]) w₁ h' :=
      fun h' hnone => hs.scanned.refused hstanding hreply hnone
    refine ⟨trivial, hs.proposed (hscanned _ ⟨rfl, rfl⟩) heligible hcleared fun henough => ?_⟩
    exact hlacks (hs.scanned.enough_iff.2 ((hscanned _ ⟨rfl, rfl⟩).enough_iff.1 henough))
  | ok proposal =>
    have hroom := hs.scanned.size_lt_capacity hready hkeys hdeal
    have hscanned : ∀ h', NoneStarted _ h' → Scanned node setup w (visited ++ [key])
        { w₁ with deals := w₁.deals.insert key proposal } h' := fun h' hnone =>
      hs.scanned.started hstanding hreply hdeal hroom hnone
    have henough := (hscanned _ ⟨rfl, rfl⟩).enough_iff
    simp only [meets_bind, meets_log, meets_count, meets_update]
    refine ⟨trivial, trivial, trivial, meets_isFull trivial (fun hsize => ?_) fun hsize => ?_⟩
    · exact meets_pure.2 ⟨hscanned _ ⟨rfl, rfl⟩, henough.2 hsize, hcleared⟩
    · refine meets_pure.2 (hs.proposed (hscanned _ ⟨rfl, rfl⟩) heligible hcleared fun hfull => ?_)
      exact Nat.not_lt.2 hsize (henough.1 hfull)

section Unvisited

variable (hs : Scanned node setup w visited w₁ h) (hnew : key ∉ visited)

include hs hnew

/-- A piece that was not visited is as it was. -/
lemma Scanned.find?_of_notMem : w₁.pieces.find? key = w.pieces.find? key := by
  rw [hs.find?_eq, if_neg fun hvisited => hnew hvisited.1]

/-- For a piece that was not visited, a deal is followed if one was. -/
lemma Scanned.contains_of_notMem : w₁.deals.contains key = w.deals.contains key := by
  rw [Bool.eq_iff_iff, contains_iff, contains_iff]
  refine ⟨fun hmem => ?_, hs.mem_keys⟩
  exact (hs.mem_keys_or_mem hmem).resolve_right fun hvisited => hnew hvisited.1

end Unvisited

section Visit

variable {h' : History} (hs : Going node setup w visited isChecked w₁ h) (hnone : NoneStarted h h')

include hs hnone

/-- There is nothing to do for a piece. -/
lemma Going.idle (hstanding : standing node setup w key = .idle) :
    Going node setup w (visited ++ [key]) isChecked
      { w₁ with pieces := w₁.pieces.touch key } h' := by
  refine hs.passed ?_ (by rw [hstanding]; rfl) ⟨rfl, rfl, capacity_touch, rfl⟩ rfl
    (fun other => ?_) hnone
  · rw [isEligible, hstanding]
  · rw [if_neg (by simp [hstanding]), find?_touch]

/-- A piece is dropped, since the local miner serves it. -/
lemma Going.served (hstanding : standing node setup w key = .served) :
    Going node setup w (visited ++ [key]) isChecked
      { w₁ with pieces := (w₁.pieces.touch key).erase key } h' := by
  refine hs.passed ?_ (by rw [hstanding]; rfl) ⟨rfl, rfl, capacity_touch, rfl⟩ rfl
    (fun other => ?_) hnone
  · rw [isEligible, hstanding]
  · simp only [find?_erase, find?_touch, hstanding, and_true]

/-- The scan is given up at a piece. -/
lemma Going.faultsAt {error : PhaseError} (hfaults : Faults node setup w visited key error) :
    FaultsAt node setup w visited key error { w₁ with pieces := w₁.pieces.touch key } h' :=
  ⟨hs.scanned.touched hnone, hs.lacking, hs.cleared, hfaults⟩

end Visit

/-- A deal is proposed once the miner was checked. -/
lemma meets_deal_replying (hready : Ready setup w) (hkeys : w.pieces.keys = visited ++ key :: rest)
    (hs : Going node setup w visited isChecked w₁ h)
    (hstanding : standing node setup w key = .eligible payload) (hdeal : key ∉ w₁.deals.keys)
    {h₁ : History} (hnone : NoneStarted h h₁) :
    Meets (replying node)
      (checkMiner setup key isChecked >>= fun _ => propose setup key payload)
      { w₁ with pieces := w₁.pieces.touch key } h₁
      (VisitEnds node setup w (visited ++ [key]) isChecked)
      (FaultsAt node setup w visited key) := by
  rw [meets_bind]
  refine (meets_checkMiner_replying hs hstanding).mono ?_ ?_
  · rintro ⟨⟩ w' h' ⟨rfl, hlater, hcleared⟩
    have hgoing : Going node setup w visited isChecked
        { w₁ with pieces := w₁.pieces.touch key } h' :=
      ⟨hs.scanned.touched (hnone.trans hlater), hs.lacking, hs.cleared, hs.isChecked_eq⟩
    exact meets_propose_replying hready hkeys hgoing hstanding hdeal hcleared
  · rintro error w' h' ⟨rfl, hlater, hfaults⟩
    exact hs.faultsAt (hnone.trans hlater) hfaults

/-- The visit of a piece. -/
lemma meets_visit_replying (hready : Ready setup w)
    (hkeys : w.pieces.keys = visited ++ key :: rest)
    (hs : Going node setup w visited isChecked w₁ h) :
    Meets (replying node) (visit setup key isChecked) w₁ h
      (VisitEnds node setup w (visited ++ [key]) isChecked)
      (FaultsAt node setup w visited key) := by
  -- the piece stands as it stood when the scan began
  have hnew : key ∉ visited := notMem_of_keys_eq hkeys
  have hfollowed := hs.scanned.contains_of_notMem hnew
  have hpayload : (w₁.pieces.find? key).bind Piece.payload? = w.payload? key := by
    rw [hs.scanned.find?_of_notMem hnew, Worker.payload?]
  simp only [visit, findPiece, isFollowed, dropPiece, meets_bind, meets_get, meets_update,
    meets_pure, hpayload]
  refine ⟨trivial, ?_⟩
  cases hsome : w.payload? key with
  | none =>
    refine meets_pure.2 (hs.idle ⟨rfl, rfl⟩ ?_)
    rw [standing, hsome]
  | some payload =>
    simp only [meets_bind]
    refine meets_request_replying.2 ⟨fun isLocal hlocal => ?_, fun failure hfailure => ?_⟩
    · cases isLocal with
      | false =>
        refine meets_pure.2 (hs.idle ⟨rfl, rfl⟩ ?_)
        simp only [standing, hsome, hlocal]
      | true =>
        simp only [↓reduceIte, meets_bind, meets_get, meets_pure, hfollowed]
        split
        · next hdeal =>
          refine meets_pure.2 (hs.idle ⟨rfl, rfl⟩ ?_)
          simp only [standing, hsome, hlocal, if_pos hdeal]
        · next hdeal =>
          rw [meets_bind]
          refine meets_request_replying.2 ⟨fun offer hoffer => ?_, fun failure hfailure => ?_⟩
          · have hstanding := standing_of_offer hsome hlocal hdeal hoffer
            split
            · next havailable =>
              rw [if_pos havailable] at hstanding
              simp only [meets_bind, meets_log, meets_update, meets_pure]
              exact ⟨trivial, trivial, hs.served ⟨rfl, rfl⟩ hstanding⟩
            · next havailable =>
              rw [if_neg havailable] at hstanding
              have hunfollowed : key ∉ w₁.deals.keys := by
                rw [← contains_iff, hfollowed]
                exact hdeal
              exact meets_deal_replying hready hkeys hs hstanding hunfollowed ⟨rfl, rfl⟩
          · have hstanding := standing_of_no_offer hsome hlocal hdeal hfailure
            refine hs.faultsAt ?_ (.piece hstanding)
            exact ⟨rfl, rfl⟩
    · have hstanding : standing node setup w key = .unknown failure := by
        simp only [standing, hsome, hfailure]
      refine hs.faultsAt ?_ (.piece hstanding)
      exact ⟨rfl, rfl⟩

/-- How a scan of the inventory ends. -/
structure ScanEnds (node : Replier) (setup : Setup) (w : Worker) (visited : List Cid) (w' : Worker)
    (h : History) : Prop where
  stopsAt : StopsAt (Enough node setup w) w.pieces.keys visited
  scanned : Scanned node setup w visited w' h
  cleared : Cleared node setup w visited

/-- How a scan of the inventory is given up. -/
def ScanFails (node : Replier) (setup : Setup) (w : Worker) (error : PhaseError) (w' : Worker)
    (h : History) : Prop :=
  ∃ visited key rest, w.pieces.keys = visited ++ key :: rest ∧
    FaultsAt node setup w visited key error w' h

/-- The rest of a scan. -/
lemma meets_scan_replying (hready : Ready setup w) (hkeys : w.pieces.keys = visited ++ rest)
    (hs : Going node setup w visited isChecked w₁ h) :
    Meets (replying node) (scan setup isChecked rest) w₁ h
      (fun _ w' h' => ∃ visited', ScanEnds node setup w visited' w' h')
      (ScanFails node setup w) := by
  induction rest generalizing visited isChecked w₁ h with
  | nil =>
    rw [List.append_nil] at hkeys
    exact ⟨visited, hkeys ▸ hs.lacking.stopsAt, hs.scanned, hs.cleared⟩
  | cons key rest ih =>
    have hnext : w.pieces.keys = (visited ++ [key]) ++ rest := by
      rw [hkeys, List.append_assoc, List.singleton_append]
    rw [scan, meets_bind]
    refine (meets_visit_replying hready hkeys hs).mono (fun result w' h' hvisited => ?_) ?_
    · cases result with
      | passed => exact ih hnext hvisited
      | minerChecked => exact ih hnext hvisited
      | full =>
        obtain ⟨hscanned, henough, hcleared⟩ := hvisited
        exact ⟨visited ++ [key], hkeys ▸ hs.lacking.stopsAt_concat henough, hscanned, hcleared⟩
    · exact fun error w' h' hfaults => ⟨visited, key, rest, hkeys, hfaults⟩

/-! ## The phase -/

/-- After a sweep each deal is one of an inventory piece. -/
lemma mem_keys_of_mem_keys_swept (hmem : key ∈ (swept node w).deals.keys) :
    key ∈ (swept node w).pieces.keys := by
  obtain ⟨proposal, hproposal⟩ := exists_find? hmem
  obtain ⟨hfound, hkept⟩ := find?_filter_eq_some_iff.1 hproposal
  replace hkept : review node w (key, proposal) = .kept := beq_iff_eq.1 hkept
  -- the piece is there, and its only deal is not an active one
  have hpiece : w.pieces.contains key = true := by
    by_contra habsent
    rw [review, if_neg habsent] at hkept
    cases hkept
  obtain ⟨piece, hpiece⟩ := exists_find? (contains_iff.1 hpiece)
  have hnone : w.deals.entries.any (fun deal =>
      deal.1 == key && review node w deal == .replicated) = false := by
    rw [List.any_eq_false]
    rintro ⟨other, proposal'⟩ hdeal hactive
    rw [Bool.and_eq_true, beq_iff_eq, beq_iff_eq] at hactive
    obtain ⟨rfl, hactive⟩ := hactive
    rw [find?_eq_some_iff.2 hdeal] at hfound
    obtain rfl := Option.some.inj hfound
    rw [hkept] at hactive
    cases hactive
  refine mem_keys_of_find? (find?_filter_eq_some_iff.2 ⟨hpiece, ?_⟩)
  rw [hnone, Bool.not_false]

/-- After a sweep the scan may begin, unless too many deals are followed. -/
lemma ready_swept (hcapacity : w.deals.capacity = w.pieces.capacity)
    (hsize : (swept node w).deals.size ≤ setup.config.dealParallel.toNat) :
    Ready setup (swept node w) :=
  ⟨fun _ => mem_keys_of_mem_keys_swept, hcapacity, hsize⟩

/-- How the deal phase ends. -/
inductive Completes (node : Replier) (setup : Setup) (w w' : Worker) (h : History) : Prop where
  /-- Too many deals are followed after the sweep. -/
  | crowded (hknown : ∀ deal ∈ w.deals.entries, (review node w deal).isKnown)
    (hsize : setup.config.dealParallel.toNat < (swept node w).deals.size)
    (hworker : w' = swept node w) (hnone : NoneStarted [] h)
  /-- The inventory was scanned. -/
  | scanned {visited : List Cid} (hknown : ∀ deal ∈ w.deals.entries, (review node w deal).isKnown)
    (hready : Ready setup (swept node w)) (hends : ScanEnds node setup (swept node w) visited w' h)

/-- How the deal phase is given up. -/
inductive GivesUp (node : Replier) (setup : Setup) (w : Worker) (error : PhaseError) (w' : Worker)
    (h : History) : Prop where
  | sweep (hfails : SweepFails node w error w' h)
  | scan (hknown : ∀ deal ∈ w.deals.entries, (review node w deal).isKnown)
    (hready : Ready setup (swept node w)) (hfails : ScanFails node setup (swept node w) error w' h)

/-- **The meaning of the deal phase.** -/
theorem meets_run_replying (hcapacity : w.deals.capacity = w.pieces.capacity)
    (hnone : NoneStarted [] h) :
    Meets (replying node) (run setup) w h (fun _ => Completes node setup w)
      (GivesUp node setup w) := by
  simp only [run, meets_bind, meets_get, meets_enter]
  have hentered : NoneStarted [] (.entered .dealSweep :: h) := hnone.trans ⟨rfl, rfl⟩
  refine ⟨trivial, (meets_sweep_replying hentered).mono ?_ fun error w' h' => .sweep⟩
  rintro ⟨⟩ w' h' ⟨hknown, rfl, hnone⟩
  refine meets_isFull trivial (fun hsize => ?_) fun hsize => ?_
  · exact meets_pure.2 (.crowded hknown hsize rfl (hnone.trans ⟨rfl, rfl⟩))
  · have hready : Ready setup (swept node w) := ready_swept hcapacity hsize
    simp only [Bool.false_eq_true, ↓reduceIte, meets_bind, meets_get, meets_enter]
    have hgoing : Going node setup (swept node w) [] false (swept node w)
        (.entered .dealScan :: h') := by
      refine ⟨⟨⟨rfl, rfl, rfl, rfl⟩, ?_, (List.append_nil _).symm, fun key => ?_, hnone.starts,
        hnone.returned⟩, ?_, ?_, rfl⟩
      · rintro key ⟨⟩
      · exact (if_neg fun hmem => List.not_mem_nil hmem.1).symm
      · exact lacking_nil (Nat.not_lt.2 hsize)
      · rintro key ⟨⟩
    refine ⟨trivial, (meets_scan_replying hready (List.nil_append _).symm hgoing).mono ?_ ?_⟩
    · rintro ⟨⟩ w'' h'' ⟨visited, hends⟩
      exact .scanned hknown hready hends
    · exact fun error w'' h'' hfails => .scan hknown hready hfails

end PieceReplication.Dealing
