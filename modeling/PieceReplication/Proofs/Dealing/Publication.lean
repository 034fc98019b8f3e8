import PieceReplication.Proofs.Dealing.Vetting

/-!
# What the deal phase publishes

A deal phase in which no call fails, but for proposals, has one of two ends once the sweep has left
room for a deal.  If there is a piece to propose a deal for and the miner turns out not to be
initialized, the phase is given up with no proposal (`MinerRefused`).  Otherwise the proposals are
those for the eligible pieces, in the order of the walk, up to the one with which too many deals are
followed.

Both ends are read off the meaning of the phase: the scan comes to the first eligible piece in any
case, since before it no deal was started and the room for one is still there.
-/

namespace PieceReplication

open History Activity BoundedMap

/-- Whether the node fails to reply to a call other than a proposal of a deal. -/
def Occurrence.isFault : Occurrence → Bool
  | .answered _ call (.error _) => !call.isStart
  | _ => false

namespace Dealing

variable {σ : Type} {node : Replier} {setup : Setup} {w w' : Worker} {h : History} {key : Cid}
  {visited : List Cid}

/-- Whether the miner is found not to be initialized at the first piece that a deal is to be
proposed for. -/
def MinerRefused (node : Replier) (setup : Setup) (w : Worker) : Prop :=
  ∃ key info, w.pieces.keys.find? (isEligible node setup w) = some key ∧
    node (.dealScan key) (.minerInfo setup.miner) = .ok info ∧ info.isInitialized = false

/-- No deal is started for pieces none of which is eligible. -/
lemma filterMap_published?_eq_nil (hnone : visited.find? (isEligible node setup w) = none) :
    visited.filterMap (published? node setup w) = [] := by
  rw [List.filterMap_eq_nil_iff]
  intro key hkey
  have hnot := List.find?_eq_none.1 hnone key hkey
  exact published?_eq_none (Bool.eq_false_iff.2 hnot)

/-- A scan that may begin comes to the first eligible piece. -/
lemma ScanEnds.find?_eq (hready : Ready setup w) (hends : ScanEnds node setup w visited w' h)
    (hfirst : w.pieces.keys.find? (isEligible node setup w) = some key) :
    visited.find? (isEligible node setup w) = some key := by
  cases hfound : visited.find? (isEligible node setup w) with
  | some other =>
    have hother := hends.stopsAt.begins.find?_eq_some hfound
    rw [← hfirst, hother]
  | none =>
    -- no deal was started, so the scan did not stop early
    have hroom : ¬ Enough node setup w visited := by
      rw [Enough, filterMap_published?_eq_nil hfound, List.length_nil, Nat.add_zero]
      exact Nat.not_lt.2 hready.size_le
    have hall : visited = w.pieces.keys := by
      by_contra hne
      exact hroom (hends.stopsAt.stops hne)
    rw [← hfound, hall, hfirst]

/-- A scan that ends has found the miner initialized, if it was looked up. -/
lemma ScanEnds.not_minerRefused (hready : Ready setup w)
    (hends : ScanEnds node setup w visited w' h) : ¬ MinerRefused node setup w := by
  rintro ⟨key, info, hfirst, hreply, hinfo⟩
  obtain ⟨info', hreply', hinfo'⟩ := hends.cleared key (hends.find?_eq hready hfirst)
  rw [hreply] at hreply'
  obtain rfl := Except.ok.inj hreply'
  rw [hinfo] at hinfo'
  cases hinfo'

/-- A phase without faults is given up only because the miner is not initialized. -/
lemma minerRefused_of_givesUp {error : PhaseError} (hgivesUp : GivesUp node setup w error w' h)
    (hdue : ErrorDue error w' h) (hfaults : ∀ occurrence ∈ h, occurrence.isFault = false) :
    error = .minerNotInitialized ∧ h.starts = [] ∧ MinerRefused node setup (swept node w) := by
  -- a call that failed would be a fault
  have hnoFailure : ∀ failure, error ≠ .transport failure := by
    rintro failure rfl
    cases hdue with
    | failed hcall hanswered =>
      have hfault := hfaults _ hanswered
      rw [Occurrence.isFault, hcall] at hfault
      cases hfault
  cases hgivesUp with
  | sweep hfails =>
    obtain ⟨_, _, _, failure, _, _, herror, _⟩ := hfails
    exact absurd herror (hnoFailure failure)
  | scan hknown hready hfails =>
    obtain ⟨visited, key, rest, hkeys, -, -, -, hfault⟩ := hfails
    cases hfault with
    | piece hstanding => exact absurd rfl (hnoFailure _)
    | miner hfirst hreply => exact absurd rfl (hnoFailure _)
    | @uninitialized info hfirst hreply hinfo =>
      have hbegins : visited ++ [key] <+: (swept node w).pieces.keys := by
        rw [hkeys]
        exact ⟨rest, by simp⟩
      cases hdue with
      | uninitialized hstarts =>
        exact ⟨rfl, hstarts, key, info, hbegins.find?_eq_some hfirst, hreply, hinfo⟩

/-- **What the deal phase publishes.**  If each call is replied to, the phase ends, and its replies
are those of some replier.  For any such, suppose that no call failed but for proposals, so that the
sweep came to its end, and that it left no more deals than the cap allows.  If the miner is found
not to be initialized at the first eligible piece, the phase is given up with no proposal.
Otherwise it is a scan that visits the inventory in its order until the deals are more than the cap
allows: a deal is proposed for each eligible visited piece, the deals that are followed are those
that the sweep left and the ones that were started, and the pieces that are dropped are the visited
ones that the miner serves. -/
theorem run_publishes (surroundings : Surroundings σ) (hreplies : surroundings.Replies)
    (isStopping : Bool) (state : σ) (hbounded : w.Bounded setup) :
    let progress := (run setup).execute surroundings isStopping state w
    (∃ node, RepliedBy node progress.trace) ∧
      ∃ result w', progress.halt = .done (result, w') ∧
        ∀ node, RepliedBy node progress.trace →
          (∀ occurrence ∈ progress.trace, occurrence.isFault = false) →
          (swept node w).deals.size ≤ setup.config.dealParallel.toNat →
          (MinerRefused node setup (swept node w) →
            result = .error .minerNotInitialized ∧ starts progress.trace = []) ∧
          (¬ MinerRefused node setup (swept node w) → result = .ok () ∧
            ∃ visited,
              StopsAt (Enough node setup (swept node w)) (swept node w).pieces.keys visited ∧
              Scanned node setup (swept node w) visited w' progress.trace) := by
  intro progress
  refine ⟨exists_repliedBy_run surroundings isStopping state setup w, ?_⟩
  obtain ⟨result, w', hdone⟩ := exists_done_run hreplies isStopping state setup w
  refine ⟨result, w', hdone, fun node hnode hfaults hsize => ?_⟩
  have hmeaning : Meets (replying node) (run setup) w [] (fun _ => Completes node setup w)
      (GivesUp node setup w) :=
    meets_run_replying (hbounded.deals.trans hbounded.pieces.symm) ⟨rfl, rfl⟩
  cases result with
  | ok value =>
    cases hmeaning.post_of_repliedBy hdone hnode with
    | crowded hknown hcrowded hworker hnone => exact absurd hsize (Nat.not_le_of_lt hcrowded)
    | @scanned visited hknown hready hends =>
      have hminer := hends.not_minerRefused hready
      exact ⟨fun hrefused => absurd hrefused hminer,
        fun _ => ⟨rfl, visited, hends.stopsAt, hends.scanned⟩⟩
  | error error =>
    obtain ⟨rfl, hstarts, hrefused⟩ := minerRefused_of_givesUp
      (hmeaning.given_of_repliedBy hdone hnode) (errorDue_of_done hdone) hfaults
    exact ⟨fun _ => ⟨rfl, hstarts⟩, fun hminer => absurd hrefused hminer⟩

/-- A sample worker follows one deal and may follow two.  Of its other pieces one is not here, one
is served, and a deal is refused for one; with the deals for the next two the phase ends, and the
last piece is not visited. -/
theorem run_publishes_two :
    let w := Sample.dealingWorker [⟨"kept"⟩, ⟨"absent"⟩, ⟨"served"⟩, ⟨"refused"⟩, ⟨"first"⟩,
      ⟨"second"⟩, ⟨"third"⟩] [(⟨"kept"⟩, ⟨"staged"⟩)]
    let node : Replier := fun _ => Sample.dealingReply true
    let progress :=
      (run Sample.dealingSetup).execute (.replying (Sample.dealingReply true)) false () w
    ∃ w' visited, progress.halt = .done (.ok (), w') ∧
      StopsAt (Enough node Sample.dealingSetup (swept node w)) (swept node w).pieces.keys visited ∧
      Scanned node Sample.dealingSetup (swept node w) visited w' progress.trace ∧
      starts progress.trace = [⟨"refused"⟩, ⟨"first"⟩, ⟨"second"⟩].map fun piece =>
        (.dealScan piece, .startDeal (terms Sample.dealingSetup ⟨piece, ""⟩)) := by
  intro w node progress
  obtain ⟨-, result, w', hdone, hpublishes⟩ := run_publishes (w := w)
    (.replying (Sample.dealingReply true)) (Surroundings.replies_replying _) false ()
    ⟨rfl, rfl, rfl⟩
  have hnode : RepliedBy node progress.trace :=
    Program.repliedBy_execute (Surroundings.answersBy_replying _) _ () (by rintro _ _ _ ⟨⟩)
  have hfaults : ∀ occurrence ∈ progress.trace, occurrence.isFault = false := by decide +kernel
  have hsize : (swept node w).deals.size ≤ Sample.dealingSetup.config.dealParallel.toNat := by
    decide +kernel
  obtain ⟨-, hscans⟩ := hpublishes node hnode hfaults hsize
  -- the miner is initialized whenever it is looked up
  have hminer : ¬ MinerRefused node Sample.dealingSetup (swept node w) := by
    rintro ⟨key, info, -, hreply, hinfo⟩
    cases hreply
    cases hinfo
  obtain ⟨rfl, visited, hstops, hscanned⟩ := hscans hminer
  exact ⟨w', visited, hdone, hstops, hscanned, by decide +kernel⟩

end Dealing

end PieceReplication
