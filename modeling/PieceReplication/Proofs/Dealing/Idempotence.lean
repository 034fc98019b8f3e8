import PieceReplication.Proofs.Dealing.Vetting

/-!
# The deal phase once more

A deal phase that follows another one has nothing to do if the node replies as it did before
(`Unchanged`) and no followed deal is reported active or failed for good (`Underway`).  If the first
phase left more deals than the cap allows, the second one ends after its sweep.  Otherwise the first
phase visited all pieces, and for each one that it left there is no work (`Spent`): a deal is
followed for it, or it is as little here as before, or its proposal is refused once more.

The sweep of the second phase is given up if the state of a deal cannot be told, and for a deal that
was just started the first phase did not ask for it.  So the second phase is sure to end well only
if the states of all deals can be told.
-/

namespace PieceReplication

open History Activity BoundedMap

namespace Dealing

variable {node before after : Replier} {setup : Setup} {w w₁ w' : Worker} {h : History} {key : Cid}
  {visited : List Cid}

/-! ## What a phase leaves -/

/-- Whether a scan has no work with a piece, but for a proposal that is refused. -/
inductive Spent (node : Replier) (setup : Setup) (w : Worker) (key : Cid) : Prop where
  | idle (hstanding : standing node setup w key = .idle)
  | refused {payload failure} (hstanding : standing node setup w key = .eligible payload)
    (hreply : node (.dealScan key) (.startDeal (terms setup payload)) = .error failure)

/-- There is nothing to do for a piece for which a deal is followed. -/
lemma standing_of_mem_deals (hknown : (standing node setup w key).isKnown)
    (hpayload : w₁.payload? key = w.payload? key) (hmem : key ∈ w₁.deals.keys) :
    standing node setup w₁ key = .idle := by
  have hfollowed : w₁.deals.contains key = true := contains_iff.2 hmem
  rw [standing, hpayload, hfollowed]
  rw [standing] at hknown
  split
  · rfl
  · next payload hsome =>
    simp only [hsome] at hknown
    split
    · next failure hreply =>
      simp only [hreply] at hknown
      cases hknown
    · rfl
    · rfl

/-- A piece stands as before if its payload is the same and no deal is followed for it now or
then. -/
lemma standing_of_notMem_deals (hpayload : w₁.payload? key = w.payload? key)
    (hnew : key ∉ w₁.deals.keys) (hold : key ∉ w.deals.keys) :
    standing node setup w₁ key = standing node setup w key := by
  have hdeals : w₁.deals.contains key = w.deals.contains key := by
    rw [Bool.eq_iff_iff, contains_iff, contains_iff]
    exact ⟨fun hmem => absurd hmem hnew, fun hmem => absurd hmem hold⟩
  rw [standing, standing, hpayload, hdeals]

/-- A piece that a deal is followed for is not found served. -/
lemma standing_ne_served (hmem : key ∈ w.deals.keys) : standing node setup w key ≠ .served := by
  have hfollowed : w.deals.contains key = true := contains_iff.2 hmem
  rw [standing, hfollowed]
  split
  · rintro ⟨⟩
  · split <;> rintro ⟨⟩

/-- A piece that was left by a scan that visited it was not found served. -/
lemma Scanned.payload?_eq (hs : Scanned node setup w visited w₁ h) (hvisited : key ∈ visited)
    (hmem : key ∈ w₁.pieces.keys) :
    standing node setup w key ≠ .served ∧ w₁.payload? key = w.payload? key := by
  have hnot : standing node setup w key ≠ .served := by
    intro hserved
    have hgone : w₁.pieces.find? key = none := by
      rw [hs.find?_eq, if_pos ⟨hvisited, hserved⟩]
    exact find?_eq_none_iff.1 hgone hmem
  refine ⟨hnot, ?_⟩
  rw [Worker.payload?, hs.find?_eq, if_neg fun hserved => hnot hserved.2, Worker.payload?]

/-- A piece that was left by a scan stands as it stood, unless a deal is followed for it. -/
lemma Scanned.standing_eq (hs : Scanned node setup w visited w₁ h) (hvisited : key ∈ visited)
    (hmem : key ∈ w₁.pieces.keys) :
    standing node setup w₁ key =
      if key ∈ w₁.deals.keys then .idle else standing node setup w key := by
  obtain ⟨-, hpayload⟩ := hs.payload?_eq hvisited hmem
  split
  · next hdeal => exact standing_of_mem_deals (hs.known key hvisited) hpayload hdeal
  · next hdeal => exact standing_of_notMem_deals hpayload hdeal fun hold => hdeal (hs.mem_keys hold)

/-- A scan leaves no work with a piece that it visited. -/
lemma Scanned.spent (hs : Scanned node setup w visited w₁ h) (hvisited : key ∈ visited)
    (hmem : key ∈ w₁.pieces.keys) : Spent node setup w₁ key := by
  have hstanding := hs.standing_eq hvisited hmem
  have hknown := hs.known key hvisited
  obtain ⟨hnot, -⟩ := hs.payload?_eq hvisited hmem
  split at hstanding
  · exact .idle hstanding
  · next hdeal =>
    cases hbefore : standing node setup w key with
    | idle => exact .idle (hstanding.trans hbefore)
    | served => exact absurd hbefore hnot
    | unknown failure =>
      rw [hbefore] at hknown
      cases hknown
    | eligible payload =>
      cases hreply : node (.dealScan key) (.startDeal (terms setup payload)) with
      | error failure => exact .refused (hstanding.trans hbefore) hreply
      | ok proposal =>
        -- the deal would be followed
        have hpublished : published? node setup w key = some (key, proposal) := by
          rw [published?, hbefore]
          simp only [hreply]
        have hentry : (key, proposal) ∈ w₁.deals.entries := by
          rw [hs.entries]
          exact List.mem_append_right _ (List.mem_filterMap.2 ⟨key, hvisited, hpublished⟩)
        exact absurd (mem_keys_of_find? (find?_eq_some_iff.2 hentry)) hdeal

/-- After a scan each deal is one of an inventory piece. -/
lemma Scanned.within (hready : Ready setup w) (hs : Scanned node setup w visited w₁ h)
    (hbegins : visited <+: w.pieces.keys) (hmem : key ∈ w₁.deals.keys) : key ∈ w₁.pieces.keys := by
  have hpiece : key ∈ w.pieces.keys ∧ standing node setup w key ≠ .served := by
    rcases hs.mem_keys_or_mem hmem with hold | ⟨hvisited, heligible⟩
    · exact ⟨hready.within key hold, standing_ne_served hold⟩
    · refine ⟨hbegins.subset hvisited, fun hserved => ?_⟩
      rw [isEligible, hserved] at heligible
      cases heligible
  obtain ⟨piece, hfound⟩ := exists_find? hpiece.1
  have hleft : w₁.pieces.find? key = some piece := by
    rw [hs.find?_eq, if_neg fun hserved => hpiece.2 hserved.2, hfound]
  exact mem_keys_of_find? hleft

/-- After a phase each deal is one of an inventory piece. -/
lemma Completes.within (hcompletes : Completes node setup w w₁ h) (hmem : key ∈ w₁.deals.keys) :
    key ∈ w₁.pieces.keys := by
  cases hcompletes with
  | crowded hknown hsize hworker hnone =>
    subst hworker
    exact mem_keys_of_mem_keys_swept hmem
  | scanned hknown hready hends => exact hends.scanned.within hready hends.stopsAt.begins hmem

/-- A phase leaves the bounds of the containers as they are. -/
lemma Completes.capacity (hcompletes : Completes node setup w w₁ h)
    (hcapacity : w.deals.capacity = w.pieces.capacity) :
    w₁.deals.capacity = w₁.pieces.capacity := by
  cases hcompletes with
  | crowded hknown hsize hworker hnone =>
    subst hworker
    exact hcapacity
  | scanned hknown hready hends =>
    rw [hends.scanned.aside.deals, hends.scanned.aside.pieces]
    exact hcapacity

/-! ## The node -/

/-- Whether one replier replies as another one did before: it replies the same to each call, for
whatever it is made, but for proposals of deals, and it refuses the proposals that were refused. -/
structure Unchanged (before after : Replier) : Prop where
  alike : ∀ purpose purpose' call, call.isStart = false → after purpose' call = before purpose call
  refused : ∀ purpose call failure, call.isStart = true → before purpose call = .error failure →
    ∃ failure', after purpose call = .error failure'

/-- Whether no followed deal is reported active or failed for good. -/
def Underway (node : Replier) (w : Worker) : Prop :=
  ∀ key proposal info, w.deals.find? key = some proposal →
    node (.dealSweep key) (.dealInfo proposal) = .ok info →
    info.state ≠ .active ∧ info.state.isTerminalFailure = false

/-- Pieces stand the same if the node has not changed. -/
lemma Unchanged.standing_eq (hunchanged : Unchanged before after) :
    standing after setup w key = standing before setup w key := by
  have halike : ∀ call, call.isStart = false →
      after (.dealScan key) call = before (.dealScan key) call := hunchanged.alike _ _
  rw [standing, standing]
  split
  · rfl
  · rw [halike (.hasLocal _) rfl]
    split
    · rfl
    · rfl
    · rw [halike (.offer _ _) rfl]

/-- Whether a scan finds nothing to do. -/
structure Exhausted (node : Replier) (setup : Setup) (w : Worker) : Prop where
  spent : ∀ key ∈ w.pieces.keys, Spent node setup w key
  ready : ∀ key ∈ w.pieces.keys, isEligible node setup w key = true →
    ∃ info, node (.dealScan key) (.minerInfo setup.miner) = .ok info ∧ info.isInitialized = true

/-- A phase with room for a deal at its end leaves nothing to do to a scan that follows. -/
lemma Completes.exhausted (hcompletes : Completes before setup w w₁ h)
    (hunchanged : Unchanged before after)
    (hroom : ¬ setup.config.dealParallel.toNat < w₁.deals.size) : Exhausted after setup w₁ := by
  cases hcompletes with
  | crowded hknown hsize hworker hnone =>
    subst hworker
    exact absurd hsize hroom
  | @scanned visited hknown hready hends =>
    have hs := hends.scanned
    -- the scan visited all pieces
    have hall : visited = (swept before w).pieces.keys := by
      by_contra hne
      exact hroom (hs.enough_iff.1 (hends.stopsAt.stops hne))
    have hvisited : ∀ key ∈ w₁.pieces.keys, key ∈ visited := by
      intro key hmem
      obtain ⟨piece, hpiece⟩ := exists_find? hmem
      rw [hs.find?_eq] at hpiece
      split at hpiece
      · cases hpiece
      · exact hall ▸ mem_keys_of_find? hpiece
    refine ⟨fun key hmem => ?_, fun key hmem heligible => ?_⟩
    · cases hs.spent (hvisited key hmem) hmem with
      | idle hstanding => exact .idle (hunchanged.standing_eq.trans hstanding)
      | @refused payload failure hstanding hreply =>
        obtain ⟨failure', hreply'⟩ := hunchanged.refused _ _ failure rfl hreply
        exact .refused (hunchanged.standing_eq.trans hstanding) hreply'
    · -- the first piece that is to be dealt was one before, and the miner was looked up for it
      have hbefore : isEligible before setup (swept before w) key = true := by
        have hstanding := hs.standing_eq (hvisited key hmem) hmem
        rw [isEligible, hunchanged.standing_eq] at heligible
        split at hstanding
        · rw [hstanding] at heligible
          cases heligible
        · rwa [hstanding] at heligible
      obtain ⟨first, hfirst⟩ := Option.isSome_iff_exists.1
        (List.find?_isSome.2 ⟨key, hvisited key hmem, hbefore⟩)
      obtain ⟨info, hreply, hinfo⟩ := hends.cleared first hfirst
      refine ⟨info, ?_, hinfo⟩
      rw [hunchanged.alike (.dealScan first) (.dealScan key) _ rfl, hreply]

/-! ## The next phase -/

/-- Whether no deal was started, and the deals and the pieces are as they were. -/
structure Unaltered (w w' : Worker) (h : History) : Prop where
  returned : h.returned = []
  deals : ∀ key, w'.deals.find? key = w.deals.find? key
  pieces : ∀ key, w'.pieces.find? key = w.pieces.find? key

/-- A deal that is under way and one of an inventory piece is kept, if its state can be told. -/
lemma review_of_underway (hwithin : ∀ key ∈ w.deals.keys, key ∈ w.pieces.keys)
    (hunderway : Underway node w) {deal : Cid × Cid} (hmem : deal ∈ w.deals.entries) :
    review node w deal = .kept ∨ (review node w deal).isKnown = false ∧
      ∃ failure, node (.dealSweep deal.1) (.dealInfo deal.2) = .error failure := by
  have hfound : w.deals.find? deal.1 = some deal.2 := find?_eq_some_iff.2 hmem
  have hpiece : w.pieces.contains deal.1 = true :=
    contains_iff.2 (hwithin deal.1 (mem_keys_of_find? hfound))
  rw [review, if_pos hpiece]
  cases hinfo : node (.dealSweep deal.1) (.dealInfo deal.2) with
  | error failure => exact .inr ⟨rfl, failure, rfl⟩
  | ok info =>
    obtain ⟨hactive, hended⟩ := hunderway deal.1 deal.2 info hfound hinfo
    left
    simp only [if_neg hactive, hended, Bool.false_eq_true, ↓reduceIte]

/-- Deals that are under way are kept, as far as their states can be told. -/
lemma review_of_isKnown (hwithin : ∀ key ∈ w.deals.keys, key ∈ w.pieces.keys)
    (hunderway : Underway node w) {deal : Cid × Cid} (hmem : deal ∈ w.deals.entries)
    (hknown : (review node w deal).isKnown = true) : review node w deal = .kept := by
  rcases review_of_underway hwithin hunderway hmem with hkept | ⟨hunknown, -⟩
  · exact hkept
  · rw [hunknown] at hknown
    cases hknown

/-- No piece is dropped by the review of deals that are not active. -/
lemma piecesAfter_eq_self {reviewed : List (Cid × Cid)}
    (hkept : ∀ deal ∈ reviewed, review node w deal = .kept) :
    piecesAfter node w reviewed = w.pieces := by
  refine filter_eq_self fun entry _ => ?_
  rw [Bool.not_eq_true', List.any_eq_false]
  intro deal hdeal
  rw [hkept deal hdeal, Bool.and_eq_true]
  rintro ⟨-, hactive⟩
  cases hactive

/-- A sweep of deals that are all kept changes nothing. -/
lemma swept_eq_self (hkept : ∀ deal ∈ w.deals.entries, review node w deal = .kept) :
    swept node w = w := by
  have hdeals : (w.deals.filter fun deal => review node w deal == .kept) = w.deals :=
    filter_eq_self fun deal hdeal => by rw [hkept deal hdeal]; rfl
  rw [swept, piecesAfter_eq_self hkept, hdeals]

/-- A sweep that is given up among deals that are under way has changed nothing but the order of
the deals. -/
lemma SweepFails.unaltered {error : PhaseError} (hfails : SweepFails node w error w' h)
    (hwithin : ∀ key ∈ w.deals.keys, key ∈ w.pieces.keys) (hunderway : Underway node w) :
    Unaltered w w' h := by
  obtain ⟨reviewed, deal, rest, failure, hentries, hreview, -, hswept⟩ := hfails
  have hkept : ∀ deal ∈ reviewed, review node w deal = .kept := by
    intro other hother
    have hmem : other ∈ w.deals.entries := hentries ▸ List.mem_append_left _ hother
    exact review_of_isKnown hwithin hunderway hmem (hswept.known other hother)
  have hkeptOf : keptOf node w reviewed = reviewed :=
    List.filter_eq_self.2 fun other hother => by rw [hkept other hother]; rfl
  refine ⟨hswept.noneStarted.returned, fun key => Option.ext fun proposal => ?_, fun key => ?_⟩
  · rw [find?_eq_some_iff, find?_eq_some_iff, hswept.entries, hkeptOf, hentries]
    simp only [List.mem_append, List.mem_cons, List.not_mem_nil, or_false]
    tauto
  · rw [hswept.pieces, piecesAfter_eq_self hkept]

/-- A scan that finds nothing to do has changed nothing but the order of the pieces. -/
lemma ScanEnds.unaltered (hexhausted : Exhausted node setup w)
    (hends : ScanEnds node setup w visited w' h) : Unaltered w w' h := by
  have hspent : ∀ key ∈ visited, Spent node setup w key := fun key hkey =>
    hexhausted.spent key (hends.stopsAt.begins.subset hkey)
  have hnone : visited.filterMap (published? node setup w) = [] := by
    rw [List.filterMap_eq_nil_iff]
    intro key hkey
    cases hspent key hkey with
    | idle hstanding => rw [published?, hstanding]
    | refused hstanding hreply =>
      rw [published?, hstanding]
      simp only [hreply]
  refine ⟨?_, fun key => ?_, fun key => ?_⟩
  · rw [hends.scanned.returned, hnone, List.reverse_nil]
  · rw [find?, hends.scanned.entries, hnone, List.append_nil, find?]
  · rw [hends.scanned.find?_eq, if_neg]
    rintro ⟨hkey, hserved⟩
    cases hspent key hkey with
    | idle hstanding =>
      rw [hstanding] at hserved
      cases hserved
    | refused hstanding hreply =>
      rw [hstanding] at hserved
      cases hserved

/-- A scan that finds nothing to do is not given up. -/
lemma Exhausted.not_scanFails (hexhausted : Exhausted node setup w) {error : PhaseError} :
    ¬ ScanFails node setup w error w' h := by
  rintro ⟨visited, key, rest, hkeys, -, -, -, hfault⟩
  have hmem : key ∈ w.pieces.keys := hkeys ▸ List.mem_append_right _ List.mem_cons_self
  -- the miner was looked up for the piece, and is initialized
  have hlooked : (visited ++ [key]).find? (isEligible node setup w) = some key →
      ∃ info, node (.dealScan key) (.minerInfo setup.miner) = .ok info ∧
        info.isInitialized = true :=
    fun hfirst => hexhausted.ready key hmem (List.find?_some hfirst)
  cases hfault with
  | piece hstanding =>
    cases hexhausted.spent key hmem with
    | idle hidle =>
      rw [hidle] at hstanding
      cases hstanding
    | refused heligible hreply =>
      rw [heligible] at hstanding
      cases hstanding
  | miner hfirst hreply =>
    obtain ⟨info, hok, -⟩ := hlooked hfirst
    rw [hok] at hreply
    cases hreply
  | uninitialized hfirst hreply hinfo =>
    obtain ⟨info, hok, hready⟩ := hlooked hfirst
    rw [hok] at hreply
    obtain rfl := Except.ok.inj hreply
    rw [hready] at hinfo
    cases hinfo

section Again

variable (hwithin : ∀ key ∈ w.deals.keys, key ∈ w.pieces.keys) (hunderway : Underway node w)

include hwithin hunderway

/-- A sweep of deals that are under way changes nothing, if their states can be told. -/
lemma swept_of_underway (hknown : ∀ deal ∈ w.deals.entries, (review node w deal).isKnown) :
    swept node w = w :=
  swept_eq_self fun deal hdeal => review_of_isKnown hwithin hunderway hdeal (hknown deal hdeal)

variable (hexhausted : ¬ setup.config.dealParallel.toNat < w.deals.size → Exhausted node setup w)

include hexhausted

/-- A phase that ends and has nothing to do has changed nothing. -/
lemma Completes.unaltered (hcompletes : Completes node setup w w' h) : Unaltered w w' h := by
  cases hcompletes with
  | crowded hknown hsize hworker hnone =>
    rw [swept_of_underway hwithin hunderway hknown] at hworker
    subst hworker
    exact ⟨hnone.returned, fun _ => rfl, fun _ => rfl⟩
  | scanned hknown hready hends =>
    rw [swept_of_underway hwithin hunderway hknown] at hready hends
    exact hends.unaltered (hexhausted (Nat.not_lt.2 hready.size_le))

/-- A phase that has nothing to do is given up only at a deal whose state cannot be told, and has
changed nothing. -/
lemma GivesUp.unaltered {error : PhaseError} (hgivesUp : GivesUp node setup w error w' h) :
    Unaltered w w' h ∧ ∃ key proposal failure, w.deals.find? key = some proposal ∧
      node (.dealSweep key) (.dealInfo proposal) = .error failure := by
  cases hgivesUp with
  | sweep hfails =>
    refine ⟨hfails.unaltered hwithin hunderway, ?_⟩
    obtain ⟨reviewed, deal, rest, _, hentries, hreview, -, -⟩ := hfails
    have hmem : deal ∈ w.deals.entries := hentries ▸ List.mem_append_right _ List.mem_cons_self
    rcases review_of_underway hwithin hunderway hmem with hkept | ⟨-, failure, huntold⟩
    · rw [hkept] at hreview
      cases hreview
    · exact ⟨deal.1, deal.2, failure, find?_eq_some_iff.2 hmem, huntold⟩
  | scan hknown hready hfails =>
    rw [swept_of_underway hwithin hunderway hknown] at hready hfails
    exact absurd hfails (hexhausted (Nat.not_lt.2 hready.size_le)).not_scanFails

end Again

variable {σ τ : Type} {surroundings : Surroundings σ} {isStopping : Bool} {state : σ}

/-- **Publication is idempotent.**  A deal phase that follows one that ended well, in surroundings
in which each call is replied to, starts no deal and leaves the deals and the pieces as they are, if
the node has not changed and no followed deal is reported active or failed for good.  It ends well
if the state of each followed deal can be told. -/
theorem run_again (hbounded : w.Bounded setup)
    (hdone : ((run setup).execute surroundings isStopping state w).halt = .done (.ok (), w₁))
    (later : Surroundings τ) (hreplies : later.Replies) (isStopping' : Bool) (state' : τ) :
    let first := (run setup).execute surroundings isStopping state w
    let second := (run setup).execute later isStopping' state' w₁
    ∃ result w₂, second.halt = .done (result, w₂) ∧
      ∀ before after, RepliedBy before first.trace → RepliedBy after second.trace →
        Unchanged before after → Underway after w₁ →
        Unaltered w₁ w₂ second.trace ∧
          ((∀ key proposal, w₁.deals.find? key = some proposal →
            ∃ info, after (.dealSweep key) (.dealInfo proposal) = .ok info) → result = .ok ()) := by
  intro first second
  obtain ⟨result, w₂, hdone₂⟩ := exists_done_run hreplies isStopping' state' setup w₁
  refine ⟨result, w₂, hdone₂, fun before after hbefore hafter hunchanged hunderway => ?_⟩
  have hcapacity : w.deals.capacity = w.pieces.capacity := hbounded.deals.trans hbounded.pieces.symm
  have hcompletes : Completes before setup w w₁ first.trace :=
    (meets_run_replying hcapacity ⟨rfl, rfl⟩).post_of_repliedBy hdone hbefore
  have hwithin : ∀ key ∈ w₁.deals.keys, key ∈ w₁.pieces.keys := fun key => hcompletes.within
  have hmeaning : Meets (replying after) (run setup) w₁ [] (fun _ => Completes after setup w₁)
      (GivesUp after setup w₁) :=
    meets_run_replying (hcompletes.capacity hcapacity) ⟨rfl, rfl⟩
  have hexhausted : ¬ setup.config.dealParallel.toNat < w₁.deals.size → Exhausted after setup w₁ :=
    hcompletes.exhausted hunchanged
  cases result with
  | ok value =>
    have hagain : Completes after setup w₁ w₂ second.trace :=
      hmeaning.post_of_repliedBy hdone₂ hafter
    exact ⟨hagain.unaltered hwithin hunderway hexhausted, fun _ => rfl⟩
  | error error =>
    have hgivesUp : GivesUp after setup w₁ error w₂ second.trace :=
      hmeaning.given_of_repliedBy hdone₂ hafter
    obtain ⟨hunaltered, key, proposal, failure, hfound, huntold⟩ :=
      hgivesUp.unaltered hwithin hunderway hexhausted
    refine ⟨hunaltered, fun htold => ?_⟩
    -- the state of the deal at which the sweep is given up could be told
    obtain ⟨info, hinfo⟩ := htold key proposal hfound
    rw [hinfo] at huntold
    cases huntold

end Dealing

namespace Sample

/-- The replies of a node that does not tell the state of any deal. -/
def untellingReply : (call : Call) → Reply call
  | .dealInfo _ => .error ⟨["untold"]⟩
  | call => dealingReply true call

/-- The worker after a phase of a sample worker. -/
def dealingAfter (node : (call : Call) → Reply call) (w : Worker) : Worker :=
  let progress := (Dealing.run dealingSetup).execute (.replying node) false () w
  (progress.result?.map Prod.snd).getD w

/-- A phase of a sample worker that ends well ends in this worker. -/
lemma halt_of_dealingAfter {node : (call : Call) → Reply call} {w : Worker}
    {result : Except PhaseError Unit}
    (hresult : ((Dealing.run dealingSetup).execute (.replying node) false () w).result?.map
      Prod.fst = some result) :
    ((Dealing.run dealingSetup).execute (.replying node) false () w).halt =
      .done (result, dealingAfter node w) := by
  obtain ⟨⟨result', w'⟩, hdone, rfl⟩ := Option.map_eq_some_iff.1 hresult
  rw [dealingAfter, hdone]
  exact Progress.halt_of_result? hdone

end Sample

namespace Dealing

/-- A sample worker that knows a piece which is served, one for which a deal is refused and one for
which it is started. -/
theorem run_again_refused :
    let w := Sample.dealingWorker [⟨"served"⟩, ⟨"refused"⟩, ⟨"new"⟩] []
    let node := Sample.dealingReply true
    let w₁ := Sample.dealingAfter node w
    w₁.deals.find? ⟨"new"⟩ = some ⟨"new proposal"⟩ ∧
      ∃ w₂, ((run Sample.dealingSetup).execute (.replying node) false () w₁).halt =
          .done (.ok (), w₂) ∧
        Unaltered w₁ w₂
          ((run Sample.dealingSetup).execute (.replying node) false () w₁).trace := by
  intro w node w₁
  have hdeals : w₁.deals.entries = [(⟨"new"⟩, ⟨"new proposal"⟩)] := by decide +kernel
  have hdone : ((run Sample.dealingSetup).execute (.replying node) false () w).halt =
      .done (.ok (), w₁) := Sample.halt_of_dealingAfter (by decide +kernel)
  obtain ⟨result, w₂, hdone₂, hagain⟩ := run_again (w := w) ⟨rfl, rfl, rfl⟩ hdone (.replying node)
    (Surroundings.replies_replying node) false ()
  have hreplied : ∀ w, RepliedBy (fun _ => node)
      ((run Sample.dealingSetup).execute (.replying node) false () w).trace := fun w =>
    Program.repliedBy_execute (Surroundings.answersBy_replying node) _ () (by rintro _ _ _ ⟨⟩)
  have hunchanged : Unchanged (fun _ => node) fun _ => node :=
    ⟨fun _ _ _ _ => rfl, fun _ _ failure _ hrefused => ⟨failure, hrefused⟩⟩
  have hunderway : Underway (fun _ => node) w₁ := by
    intro key proposal info hfound hinfo
    rw [find?_eq_some_iff, hdeals, List.mem_singleton] at hfound
    cases hfound
    cases hinfo
    decide +kernel
  obtain ⟨hunaltered, hok⟩ := hagain _ _ (hreplied w) (hreplied w₁) hunchanged hunderway
  obtain rfl := hok fun key proposal _ => ⟨_, rfl⟩
  exact ⟨by decide +kernel, w₂, hdone₂, hunaltered⟩

/-- If the state of the deal that was just started cannot be told, the next phase is given up. -/
theorem run_again_untold :
    let w := Sample.dealingWorker [⟨"new"⟩] []
    let node := Sample.untellingReply
    let w₁ := Sample.dealingAfter node w
    let first := (run Sample.dealingSetup).execute (.replying node) false () w
    let second := (run Sample.dealingSetup).execute (.replying node) false () w₁
    w.Bounded Sample.dealingSetup ∧ first.halt = .done (.ok (), w₁) ∧
      RepliedBy (fun _ => node) first.trace ∧ RepliedBy (fun _ => node) second.trace ∧
      Unchanged (fun _ => node) (fun _ => node) ∧ Underway (fun _ => node) w₁ ∧
      ∃ w₂, second.halt = .done (.error (.transport ⟨["untold"]⟩), w₂) := by
  intro w node w₁ first second
  refine ⟨⟨rfl, rfl, rfl⟩, Sample.halt_of_dealingAfter (by decide +kernel), ?_, ?_, ?_, ?_, ?_⟩
  · exact Program.repliedBy_execute (Surroundings.answersBy_replying node) _ () (by rintro _ _ _ ⟨⟩)
  · exact Program.repliedBy_execute (Surroundings.answersBy_replying node) _ () (by rintro _ _ _ ⟨⟩)
  · exact ⟨fun _ _ _ _ => rfl, fun _ _ failure _ hrefused => ⟨failure, hrefused⟩⟩
  · rintro key proposal info - ⟨⟩
  · exact ⟨_, Sample.halt_of_dealingAfter (by decide +kernel)⟩

end Dealing

end PieceReplication
