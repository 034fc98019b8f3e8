import Mathlib.Data.List.TakeWhile
import PieceReplication.Proofs.Conduct.Invariant
import PieceReplication.Proofs.Dealing.Meaning
import PieceReplication.Proofs.Run.Session

/-!
# Deals are vetted

Before a deal is proposed for a piece, the same phase has seen that the local miner is initialized,
that the payload is here and that the miner does not serve it (`Vetted`), whatever the node replies.
The miner is looked up once at most: the scan remembers that it was found initialized, and is given
up otherwise.

A phase that is given up leaves its work done.  The deals that the sweep released before the error
are not followed any more, those that were started before the error are, and the others are as they
were (`mem_entries_of_givesUp`).
-/

namespace PieceReplication

open History Activity BoundedMap

/-- Whether a call looks a miner up. -/
def Call.isMinerInfo : Call → Bool
  | .minerInfo _ => true
  | _ => false

namespace Dealing

variable {setup : Setup} {w w' : Worker} {h : History} {key : Cid} {rest : List Cid}
  {isChecked : Bool}

/-! ## What was seen before a proposal -/

/-- The local miner was seen to be initialized. -/
def SawMiner (setup : Setup) (h : History) : Prop :=
  ∃ key info peer, .answered (.dealScan key) (.minerInfo setup.miner) (.ok info) ∈ h ∧
    info.peerId = some peer ∧ peer ≠ MinerInfo.placeholderPeerId

/-- What was seen before a deal is proposed for a piece with the root of its payload. -/
structure Vetted (setup : Setup) (h : History) (key root : Cid) : Prop where
  miner : SawMiner setup h
  arrived : .answered (.dealScan key) (.hasLocal root) (.ok true) ∈ h
  unserved : ∃ offer : Offer,
    .answered (.dealScan key) (.offer setup.miner root) (.ok offer) ∈ h ∧ offer.err ≠ ""

/-- What must have been seen before a call is made. -/
def Permits (setup : Setup) (h : History) (purpose : Purpose) : Call → Prop
  | .minerInfo _ => (h.asked fun _ call => call.isMinerInfo) = []
  | .startDeal deal => ∃ key, purpose = .dealScan key ∧ Vetted setup h key deal.root
  | _ => True

/-- The contract that each call is permitted, that none is made twice for the same purpose, and that
the phase does not break off. -/
def vetting (setup : Setup) : Contract where
  rely _ _ := True
  guarantee h occurrence :=
    match occurrence with
    | .called purpose call => (purpose, call) ∉ h.answers ∧ Permits setup h purpose call
    | .brokeOff => False
    | _ => True

/-- In a sweep, with some keys left: nothing was asked for them, and nothing was asked that a scan
asks. -/
structure Presweep (rest : List Cid) (h : History) : Prop where
  nodup : rest.Nodup
  new : ∀ key ∈ rest, h.Untouched (.dealSweep key)
  scanNew : ∀ key, h.Untouched (.dealScan key)
  starts : h.starts = []
  infos : (h.asked fun _ call => call.isMinerInfo) = []

/-- In a scan, with some keys left: nothing was asked for them, and nothing was proposed before the
miner was seen to be initialized. -/
structure Vetting (setup : Setup) (rest : List Cid) (isChecked : Bool) (h : History) : Prop where
  nodup : rest.Nodup
  new : ∀ key ∈ rest, h.Untouched (.dealScan key)
  checked : isChecked = true → SawMiner setup h
  unchecked : isChecked = false → h.starts = [] ∧ (h.asked fun _ call => call.isMinerInfo) = []

/-- Why the phase is given up: a call failed that proposes no deal, or the miner is not initialized
and nothing was proposed before. -/
inductive ErrorDue : PhaseError → Worker → History → Prop where
  | failed {w : Worker} {h : History} {purpose call failure} (hcall : call.isStart = false)
    (hanswered : .answered purpose call (.error failure) ∈ h) : ErrorDue (.transport failure) w h
  | uninitialized {w : Worker} {h : History} (hstarts : h.starts = []) :
    ErrorDue .minerNotInitialized w h

/-- The review of a deal proposes nothing. -/
lemma meets_sweepKey_vetting (key : Cid) (rest : List Cid) (w : Worker) (h : History)
    (hs : Presweep (key :: rest) h) :
    Meets (vetting setup) (sweepKey key) w h (fun _ _ => Presweep rest) ErrorDue := by
  obtain ⟨hnodup, hnew, hscan, hstarts, hinfos⟩ := hs
  obtain ⟨hkey, hnodup⟩ := List.nodup_cons.1 hnodup
  obtain ⟨hkeyNew, hrestNew⟩ := List.forall_mem_cons.1 hnew
  simp only [sweepKey, dropDeal, dropPiece, meets_bind, meets_get]
  split
  · simp only [meets_bind, meets_update]
    refine ⟨trivial, ?_⟩
    split
    · next proposal hdeal =>
      rw [meets_bind]
      refine meets_request.2 ⟨⟨hkeyNew _, trivial⟩, fun info _ => ?_, fun failure _ => ?_⟩
      · -- the deal was reviewed, and what follows asks nothing
        have hreviewed : ∀ other ∈ rest, Untouched
            (.answered (.dealSweep key) (.dealInfo proposal) (.ok info) :: h)
            (.dealSweep other) := by
          intro other hother
          refine (hrestNew other hother).answered ?_
          rintro ⟨⟩
          exact hkey hother
        have hscanned : ∀ other, Untouched
            (.answered (.dealSweep key) (.dealInfo proposal) (.ok info) :: h)
            (.dealScan other) := fun other => (hscan other).answered (by rintro ⟨⟩)
        split
        · simp only [meets_bind, meets_log, meets_update]
          exact ⟨trivial, trivial, trivial, hnodup, hreviewed, hscanned, hstarts, hinfos⟩
        · split
          · simp only [meets_bind, meets_log, meets_update]
            exact ⟨trivial, trivial, hnodup, hreviewed, hscanned, hstarts, hinfos⟩
          · exact meets_pure.2 ⟨hnodup, hreviewed, hscanned, hstarts, hinfos⟩
      · exact .failed rfl List.mem_cons_self
    · exact meets_pure.2 ⟨hnodup, hrestNew, hscan, hstarts, hinfos⟩
  · simp only [meets_bind, meets_update, meets_pure]
    exact ⟨trivial, hnodup, hrestNew, hscan, hstarts, hinfos⟩

/-- A miner that is initialized has an identity of its own. -/
lemma exists_peer_of_isInitialized {info : MinerInfo} (hinfo : info.isInitialized = true) :
    ∃ peer, info.peerId = some peer ∧ peer ≠ MinerInfo.placeholderPeerId := by
  rw [MinerInfo.isInitialized] at hinfo
  split at hinfo
  · next peer hpeer => exact ⟨peer, hpeer, bne_iff_ne.1 hinfo⟩
  · cases hinfo

/-- In the visit of a piece: nothing was asked for other pieces, no deal was proposed and no miner
looked up. -/
structure Probed (key : Cid) (h h' : History) : Prop where
  kept : h ⊆ h'
  answeredFor : AnsweredFor (· = .dealScan key) h h'
  starts : h'.starts = h.starts
  infos : (h'.asked fun _ call => call.isMinerInfo) = h.asked fun _ call => call.isMinerInfo

/-- What was seen of the miner stays seen. -/
lemma SawMiner.of_subset {h h' : History} (hsaw : SawMiner setup h) (hkept : h ⊆ h') :
    SawMiner setup h' := by
  obtain ⟨key, info, peer, hanswered, hpeer⟩ := hsaw
  exact ⟨key, info, peer, hkept hanswered, hpeer⟩

/-- The visit of a piece asks nothing for the pieces that are left. -/
lemma Vetting.untouched (hs : Vetting setup (key :: rest) isChecked h) {h' : History}
    (hanswers : AnsweredFor (· = .dealScan key) h h') :
    ∀ other ∈ rest, h'.Untouched (.dealScan other) := by
  intro other hother
  refine (hs.new other (List.mem_cons_of_mem _ hother)).of_answeredFor hanswers fun heq => ?_
  obtain rfl := Purpose.dealScan.inj heq
  exact (List.nodup_cons.1 hs.nodup).1 hother

/-- A piece was visited, and the miner was not looked up. -/
lemma Vetting.passed (hs : Vetting setup (key :: rest) isChecked h) {h' : History}
    (hprobed : Probed key h h') : Vetting setup rest isChecked h' where
  nodup := (List.nodup_cons.1 hs.nodup).2
  new := hs.untouched hprobed.answeredFor
  checked := fun hchecked => (hs.checked hchecked).of_subset hprobed.kept
  unchecked := by
    rw [hprobed.starts, hprobed.infos]
    exact hs.unchecked

/-- The check of the miner: it was seen to be initialized. -/
lemma meets_checkMiner_vetting (hs : Vetting setup rest isChecked h) {h₁ : History}
    (hprobed : Probed key h h₁) (hnew : (.dealScan key, .minerInfo setup.miner) ∉ h₁.answers) :
    Meets (vetting setup) (checkMiner setup key isChecked) w h₁
      (fun _ _ h' => SawMiner setup h' ∧ h₁ ⊆ h' ∧ ∀ answered ∈ h'.answers,
        answered ∈ h₁.answers ∨ answered = (.dealScan key, .minerInfo setup.miner))
      ErrorDue := by
  cases isChecked with
  | true =>
    have hsaw := (hs.checked rfl).of_subset hprobed.kept
    exact meets_pure.2 ⟨hsaw, List.Subset.refl _, fun _ => .inl⟩
  | false =>
    obtain ⟨hnoStarts, hnoInfos⟩ := hs.unchecked rfl
    simp only [checkMiner, Bool.false_eq_true, ↓reduceIte, meets_bind]
    refine meets_request.2 ⟨⟨hnew, hprobed.infos.trans hnoInfos⟩, fun info _ => ?_,
      fun failure _ => ?_⟩
    · split
      · next hready =>
        obtain ⟨peer, hpeer⟩ := exists_peer_of_isInitialized hready
        refine meets_pure.2 ⟨⟨key, info, peer, List.mem_cons_self, hpeer⟩, ?_, ?_⟩
        · exact List.subset_cons_of_subset _ (List.subset_cons_self _ _)
        · exact fun answered hmem => (List.mem_cons.1 hmem).symm
      · exact meets_throw.2 (.uninitialized (hprobed.starts.trans hnoStarts))
    · exact .failed rfl List.mem_cons_self

/-- How the visit of a piece leaves the scan, with some keys left. -/
def VettingAfter (setup : Setup) (rest : List Cid) (isChecked : Bool) :
    Visit → Worker → History → Prop
  | .passed, _, h => Vetting setup rest isChecked h
  | .minerChecked, _, h => Vetting setup rest true h
  | .full, _, _ => True

variable {payload : PayloadRef}

/-- The proposal of a deal is made for a vetted piece. -/
lemma meets_propose_vetting (hs : Vetting setup (key :: rest) isChecked h) {h₁ : History}
    (hvetted : Vetted setup h₁ key payload.root)
    (hanswers : AnsweredFor (· = .dealScan key) h h₁)
    (hnew : (.dealScan key, .startDeal (terms setup payload)) ∉ h₁.answers) :
    Meets (vetting setup) (propose setup key payload) w h₁ (VettingAfter setup rest isChecked)
      ErrorDue := by
  have hgoing : ∀ h', h₁ ⊆ h' → AnsweredFor (· = .dealScan key) h h' →
      Vetting setup rest true h' := by
    intro h' hkept hlater
    refine ⟨(List.nodup_cons.1 hs.nodup).2, hs.untouched hlater,
      fun _ => hvetted.miner.of_subset hkept, ?_⟩
    rintro ⟨⟩
  rw [propose, meets_bind, meets_attempt]
  refine ⟨⟨hnew, key, rfl, hvetted⟩, fun reply _ => ?_⟩
  have hproposed : AnsweredFor (· = .dealScan key) h
      (.answered (.dealScan key) (.startDeal (terms setup payload)) reply :: h₁) :=
    hanswers.answered rfl
  cases reply with
  | error failure =>
    simp only [meets_bind, meets_log, meets_pure]
    exact ⟨trivial, hgoing _ (List.subset_append_right [_, _, _] h₁) hproposed⟩
  | ok proposal =>
    simp only [meets_bind, meets_log, meets_count, meets_update]
    refine ⟨trivial, trivial, trivial, meets_isFull trivial (fun _ => trivial) fun _ => ?_⟩
    exact meets_pure.2 (hgoing _ (List.subset_append_right [_, _, _, _, _] h₁) hproposed)

/-- A deal is proposed once the miner was checked. -/
lemma meets_deal_vetting (hs : Vetting setup (key :: rest) isChecked h) {h₁ : History}
    (hprobed : Probed key h h₁)
    (harrived : .answered (.dealScan key) (.hasLocal payload.root) (.ok true) ∈ h₁)
    (hunserved : ∃ offer : Offer,
      .answered (.dealScan key) (.offer setup.miner payload.root) (.ok offer) ∈ h₁ ∧
        offer.err ≠ "")
    (hinfoNew : (.dealScan key, .minerInfo setup.miner) ∉ h₁.answers)
    (hstartNew : (.dealScan key, .startDeal (terms setup payload)) ∉ h₁.answers) :
    Meets (vetting setup)
      (checkMiner setup key isChecked >>= fun _ => propose setup key payload) w h₁
      (VettingAfter setup rest isChecked) ErrorDue := by
  obtain ⟨offer, hoffer, herr⟩ := hunserved
  rw [meets_bind]
  refine (meets_checkMiner_vetting hs hprobed hinfoNew).mono ?_ fun _ _ _ => id
  rintro ⟨⟩ w' h' ⟨hsaw, hkept, hanswers⟩
  refine meets_propose_vetting hs ⟨hsaw, hkept harrived, offer, hkept hoffer, herr⟩ ?_ ?_
  · intro answered hmem
    rcases hanswers answered hmem with hold | rfl
    · exact hprobed.answeredFor answered hold
    · exact .inr rfl
  · intro hmem
    rcases hanswers _ hmem with hold | heq
    · exact hstartNew hold
    · cases heq

/-- The visit of a piece. -/
lemma meets_visit_vetting (hs : Vetting setup (key :: rest) isChecked h) :
    Meets (vetting setup) (visit setup key isChecked) w h (VettingAfter setup rest isChecked)
      ErrorDue := by
  have hnew : h.Untouched (.dealScan key) := hs.new key List.mem_cons_self
  -- whatever happens on top of the history
  have hsub : ∀ later : History, h ⊆ later ++ h := fun later => List.subset_append_right later h
  simp only [visit, findPiece, isFollowed, dropPiece, meets_bind, meets_get, meets_update,
    meets_pure]
  refine ⟨trivial, ?_⟩
  split
  · next payload hpayload =>
    rw [meets_bind]
    refine meets_request.2 ⟨⟨hnew _, trivial⟩, fun isLocal _ => ?_, ?_⟩
    · have hasked : AnsweredFor (· = .dealScan key) h
          (.answered (.dealScan key) (.hasLocal payload.root) (.ok isLocal) :: h) :=
        AnsweredFor.refl.answered rfl
      cases isLocal with
      | false => exact meets_pure.2 (hs.passed ⟨hsub [_, _, _], hasked, rfl, rfl⟩)
      | true =>
        simp only [↓reduceIte, meets_bind, meets_get, meets_pure]
        split
        · exact meets_pure.2 (hs.passed ⟨hsub [_, _, _], hasked, rfl, rfl⟩)
        · have hofferNew : (.dealScan key, .offer setup.miner payload.root) ∉
              ((.dealScan key, .hasLocal payload.root) :: h.answers : List (Purpose × Call)) :=
            List.not_mem_cons_of_ne_of_not_mem (by rintro ⟨⟩) (hnew _)
          rw [meets_bind]
          refine meets_request.2 ⟨⟨hofferNew, trivial⟩, fun offer _ => ?_, ?_⟩
          · have hoffered : AnsweredFor (· = .dealScan key) h
                (.answered (.dealScan key) (.offer setup.miner payload.root) (.ok offer) ::
                  .answered (.dealScan key) (.hasLocal payload.root) (.ok true) :: h) :=
              hasked.answered rfl
            split
            · simp only [meets_bind, meets_log, meets_update, meets_pure]
              exact ⟨trivial, trivial, hs.passed ⟨hsub [_, _, _, _, _, _, _], hoffered, rfl, rfl⟩⟩
            · next hunserved =>
              rw [Offer.isAvailable, String.isEmpty_iff] at hunserved
              refine meets_deal_vetting hs ⟨hsub [_, _, _, _, _], hoffered, rfl, rfl⟩ ?_
                ⟨offer, List.mem_cons_self, hunserved⟩ ?_ ?_
              · exact List.mem_cons_of_mem _ (List.mem_cons_of_mem _ List.mem_cons_self)
              · exact List.not_mem_cons_of_ne_of_not_mem (by rintro ⟨⟩)
                  (List.not_mem_cons_of_ne_of_not_mem (by rintro ⟨⟩) (hnew _))
              · exact List.not_mem_cons_of_ne_of_not_mem (by rintro ⟨⟩)
                  (List.not_mem_cons_of_ne_of_not_mem (by rintro ⟨⟩) (hnew _))
          · exact fun failure _ => .failed rfl List.mem_cons_self
    · exact fun failure _ => .failed rfl List.mem_cons_self
  · exact meets_pure.2 (hs.passed ⟨hsub [_], fun _ => .inl, rfl, rfl⟩)

/-- A scan of pieces. -/
lemma meets_scan_vetting (keys : List Cid) (hs : Vetting setup keys isChecked h) :
    Meets (vetting setup) (scan setup isChecked keys) w h (fun _ _ _ => True) ErrorDue := by
  induction keys generalizing isChecked w h with
  | nil => trivial
  | cons key rest ih =>
    rw [scan, meets_bind]
    refine (meets_visit_vetting hs).mono (fun result w' h' hafter => ?_) fun _ _ _ => id
    cases result with
    | passed => exact ih hafter
    | minerChecked => exact ih hafter
    | full => trivial

/-- The deal phase makes each call once, and only calls that are permitted. -/
lemma meets_run_vetting (setup : Setup) (w : Worker) :
    Meets (vetting setup) (run setup) w [] (fun _ _ _ => True) ErrorDue := by
  simp only [run, meets_bind, meets_get, meets_enter]
  have hbefore : Presweep w.deals.keys [.entered .dealSweep] := by
    refine ⟨w.deals.nodup_keys, fun key _ call => ?_, fun key call => ?_, rfl, rfl⟩
    · exact List.not_mem_nil
    · exact List.not_mem_nil
  refine ⟨trivial, (meets_forM (fun rest _ => Presweep rest) meets_sweepKey_vetting hbefore).mono
    (fun _ w' h' hs => ?_) fun _ _ _ => id⟩
  · refine meets_isFull trivial (fun _ => trivial) fun _ => ?_
    simp only [Bool.false_eq_true, ↓reduceIte, meets_bind, meets_get, meets_enter]
    refine ⟨trivial, meets_scan_vetting _ ⟨w'.pieces.nodup_keys, fun key _ => hs.scanNew key, ?_,
      fun _ => ⟨hs.starts, hs.infos⟩⟩⟩
    rintro ⟨⟩

variable {σ : Type} {surroundings : Surroundings σ} {isStopping : Bool} {state : σ}

/-- In each run of the deal phase the replies are a function of the call and its purpose. -/
lemma exists_repliedBy_run (surroundings : Surroundings σ) (isStopping : Bool) (state : σ)
    (setup : Setup) (w : Worker) :
    ∃ node, RepliedBy node ((run setup).execute surroundings isStopping state w).trace := by
  refine exists_repliedBy (Program.Meets.along_execute (meets_run_vetting setup w)
    (fun _ _ => trivial) ?_ (fun _ _ _ _ => id) (fun _ => trivial) state trivial)
  intro h occurrence hreply hguarantee
  cases occurrence with
  | called purpose call => exact hguarantee.1
  | answered purpose call reply => cases hreply
  | _ => trivial

/-- If each call is replied to, the deal phase ends or is given up. -/
lemma exists_done_run (hreplies : surroundings.Replies) (isStopping : Bool) (state : σ)
    (setup : Setup) (w : Worker) :
    ∃ result w', ((run setup).execute surroundings isStopping state w).halt =
      .done (result, w') := by
  obtain ⟨⟨result, w'⟩, hdone⟩ := Program.Meets.exists_done (meets_run_vetting setup w)
    (Contract.supplies_of_forall (fun _ _ => trivial) surroundings isStopping) hreplies
    (fun _ => id) state
  exact ⟨result, w', hdone⟩

/-- The deal phase is given up for a reason. -/
lemma errorDue_of_done {error : PhaseError}
    (hdone : ((run setup).execute surroundings isStopping state w).halt =
      .done (.error error, w')) :
    ErrorDue error w' ((run setup).execute surroundings isStopping state w).trace := by
  have hgiven := Program.Meets.post_of_execute (meets_run_vetting setup w)
    (Contract.supplies_of_forall (fun _ _ => trivial) surroundings isStopping) hdone
  exact hgiven

/-- Each proposal of a deal is made for a vetted piece. -/
def StartsVetted (setup : Setup) (h : History) (occurrence : Occurrence) : Prop :=
  ∀ purpose deal, occurrence = .called purpose (.startDeal deal) →
    ∃ key, purpose = .dealScan key ∧ Vetted setup h key deal.root

/-- In each run of the deal phase, the calls are permitted. -/
lemma along_permits (surroundings : Surroundings σ) (isStopping : Bool) (state : σ)
    (setup : Setup) (w : Worker) :
    Along (fun h occurrence => ∀ purpose call, occurrence = .called purpose call →
        Permits setup h purpose call)
      ((run setup).execute surroundings isStopping state w).trace := by
  refine Program.Meets.along_execute (meets_run_vetting setup w) (fun _ _ => trivial) ?_ ?_ ?_ state
    trivial
  · rintro h _ - hguarantee purpose call rfl
    exact hguarantee.2
  · rintro h purpose call reply - _ _ ⟨⟩
  · rintro h _ _ ⟨⟩

/-- Calls that look a miner up only if none did so before are one at most. -/
lemma length_infos_le_one
    (halong : Along (fun h occurrence => ∀ purpose call, occurrence = .called purpose call →
      Permits setup h purpose call) h) :
    (h.asked fun _ call => call.isMinerInfo).length ≤ 1 := by
  induction h with
  | nil => exact Nat.zero_le 1
  | cons occurrence earlier ih =>
    obtain ⟨hoccurrence, hearlier⟩ := halong
    cases occurrence with
    | called purpose call =>
      cases call with
      | minerInfo miner =>
        have hnone : asked (fun _ call => call.isMinerInfo) earlier = [] :=
          hoccurrence purpose (.minerInfo miner) rfl
        have hone : asked (fun _ call => call.isMinerInfo)
            (.called purpose (.minerInfo miner) :: earlier) = [(purpose, .minerInfo miner)] :=
          congrArg (fun calls : List (Purpose × Call) => calls ++ [(purpose, .minerInfo miner)])
            hnone
        rw [hone]
        exact Nat.le_refl 1
      | _ => exact ih hearlier
    | _ => exact ih hearlier

/-! ## What is left when the phase is given up -/

/-- The deals that the sweep releases before it is given up, if it is: their pieces are not in the
inventory, or they turn out to be active or to have failed for good. -/
def released (node : Replier) (w : Worker) : List (Cid × Cid) :=
  (w.deals.entries.takeWhile fun deal => (review node w deal).isKnown).filter fun deal =>
    review node w deal != .kept

/-- The deals that are followed when the phase is given up. -/
lemma mem_entries_of_givesUp {node : Replier} {error : PhaseError}
    (hgivesUp : GivesUp node setup w error w' h) (deal : Cid × Cid) :
    deal ∈ w'.deals.entries ↔
      (deal ∈ w.deals.entries ∧ deal ∉ released node w) ∨ deal ∈ h.returned := by
  cases hgivesUp with
  | sweep hfails =>
    obtain ⟨reviewed, last, rest, failure, hentries, hreview, -, hswept⟩ := hfails
    -- the sweep ends at the first deal whose state cannot be told
    have htaken : (w.deals.entries.takeWhile fun deal => (review node w deal).isKnown) =
        reviewed := by
      rw [hentries, List.takeWhile_append_of_pos hswept.known,
        List.takeWhile_cons_of_neg (by simp [hreview, Review.isKnown]), List.append_nil]
    have hdistinct : w.deals.entries.Nodup := .of_map _ w.deals.nodup_keys
    have hlater : ∀ other ∈ last :: rest, other ∉ reviewed := by
      intro other hother hmem
      rw [hentries, List.nodup_append] at hdistinct
      exact hdistinct.2.2 other hmem other hother rfl
    rw [hswept.entries, hswept.noneStarted.returned, released, htaken, hentries]
    simp only [keptOf, List.mem_append, List.mem_filter, List.mem_cons, beq_iff_eq, bne_iff_ne]
    constructor
    · rintro ((hrest | ⟨hreviewed, hkept⟩) | hlast)
      · exact .inl ⟨.inr (.inr hrest), fun hreleased =>
          hlater deal (List.mem_cons_of_mem _ hrest) hreleased.1⟩
      · exact .inl ⟨.inl hreviewed, fun hreleased => hreleased.2 hkept⟩
      · obtain rfl := hlast.resolve_right List.not_mem_nil
        exact .inl ⟨.inr (.inl rfl), fun hreleased =>
          hlater deal List.mem_cons_self hreleased.1⟩
    · rintro (⟨hreviewed | rfl | hrest, hkept⟩ | hnone)
      · exact .inl (.inr ⟨hreviewed, by_contra fun hne => hkept ⟨hreviewed, hne⟩⟩)
      · exact .inr (.inl rfl)
      · exact .inl (.inl hrest)
      · cases hnone
  | scan hknown hready hfails =>
    obtain ⟨visited, key, rest, hkeys, hscanned, -⟩ := hfails
    have htaken : (w.deals.entries.takeWhile fun deal => (review node w deal).isKnown) =
        w.deals.entries := List.takeWhile_eq_self_iff.2 hknown
    rw [hscanned.entries, hscanned.returned, released, htaken, List.mem_append, List.mem_reverse]
    refine or_congr_left ?_
    simp only [swept, filter, List.mem_filter, beq_iff_eq, bne_iff_ne, not_and, not_not]
    exact and_congr_right fun hmem => ⟨fun hkept _ => hkept, fun hkept => hkept hmem⟩

/-- **The deal phase deals with vetted pieces only, and what it did stays done.**  Whatever the
worker and the node are, the miner is looked up once at most, and each proposal is made after the
same phase saw that the miner is initialized, and that the payload is here and not served yet.  If
the phase is given up because the miner is not initialized, nothing was proposed in it.  If it is
given up for any reason, the deals that are followed then are those that were followed before, but
for the ones that the sweep released before the error, together with the ones started before the
error; the replies are those of some replier, and what the sweep released is told by any such. -/
theorem run_vetted {σ : Type} (surroundings : Surroundings σ) (isStopping : Bool) (state : σ)
    {setup : Setup} {w : Worker} (hbounded : w.Bounded setup) :
    let progress := (run setup).execute surroundings isStopping state w
    (asked (fun _ call => call.isMinerInfo) progress.trace).length ≤ 1 ∧
      Along (StartsVetted setup) progress.trace ∧
      ∀ error w', progress.halt = .done (.error error, w') →
        (error = .minerNotInitialized → starts progress.trace = []) ∧
          (∃ node, RepliedBy node progress.trace) ∧
          ∀ node, RepliedBy node progress.trace → ∀ piece proposal,
            w'.deals.find? piece = some proposal ↔
              (w.deals.find? piece = some proposal ∧ (piece, proposal) ∉ released node w) ∨
                (piece, proposal) ∈ returned progress.trace := by
  intro progress
  have hpermits := along_permits surroundings isStopping state setup w
  refine ⟨length_infos_le_one hpermits, hpermits.imp_of_along ?_,
    fun error w' hdone => ⟨?_, ?_, ?_⟩⟩
  · rintro earlier _ - hpermitted purpose deal rfl
    exact hpermitted purpose (.startDeal deal) rfl
  · rintro rfl
    cases errorDue_of_done hdone with
    | uninitialized hstarts => exact hstarts
  · exact exists_repliedBy_run surroundings isStopping state setup w
  · intro node hnode piece proposal
    have hgivesUp := (meets_run_replying (hbounded.deals.trans hbounded.pieces.symm)
      ⟨rfl, rfl⟩).given_of_repliedBy hdone hnode
    rw [find?_eq_some_iff, find?_eq_some_iff]
    exact mem_entries_of_givesUp hgivesUp (piece, proposal)

end Dealing

namespace Sample

/-- A setup with room for eight pieces and a cap of two on the deals. -/
def dealingSetup : Setup where
  miner := ⟨"local"⟩
  config := { inventoryCapacity := capacity, dealParallel := 2 }
  seed := none

/-- A worker that knows some pieces and follows some deals. -/
def dealingWorker (pieces : List Cid) (deals : List (Cid × Cid)) : Worker where
  cursor := 0
  pieces := inventory dealingSetup.config.inventoryCapacity pieces
  retrievals := .empty dealingSetup.config.inventoryCapacity
  deals := deals.foldl (fun m deal => m.insert deal.1 deal.2)
    (.empty dealingSetup.config.inventoryCapacity)

/-- The replies of a node to which the names of payloads and proposals tell what to reply. -/
def dealingReply (isReady : Bool) : (call : Call) → Reply call
  | .hasLocal root =>
    if root = ⟨"unreadable"⟩ then .error ⟨["unreadable"]⟩ else .ok (root ≠ ⟨"absent"⟩)
  | .offer miner root => .ok ⟨if root = ⟨"served"⟩ then "" else "not served", root, 0, miner⟩
  | .minerInfo _ =>
    .ok ⟨⟨"owner"⟩, ⟨"worker"⟩, if isReady then some "peer" else none, 0⟩
  | .startDeal deal =>
    if deal.root = ⟨"refused"⟩ then .error ⟨["refused"]⟩ else .ok ⟨deal.root.text ++ " proposal"⟩
  | .dealInfo proposal =>
    .ok ⟨proposal, if proposal = ⟨"active"⟩ then .active else .staged, "", ⟨"local"⟩, ⟨"piece"⟩, 0,
      0⟩
  | call => .ok (answer [] call)

end Sample

namespace Dealing

/-- In a phase of a sample worker one deal is kept, one is active and the piece of one is gone.  A
deal is started for one piece, and then the node fails: the deals that are followed are the one that
was kept and the one that was started. -/
theorem run_vetted_unreadable :
    let w := Sample.dealingWorker [⟨"kept"⟩, ⟨"done"⟩, ⟨"served"⟩, ⟨"new"⟩, ⟨"unreadable"⟩]
      [(⟨"kept"⟩, ⟨"staged"⟩), (⟨"done"⟩, ⟨"active"⟩), (⟨"gone"⟩, ⟨"lost"⟩)]
    let node := Sample.dealingReply true
    let progress := (run Sample.dealingSetup).execute (.replying node) false () w
    ∃ w', progress.halt = .done (.error (.transport ⟨["unreadable"]⟩), w') ∧
      w'.deals.find? ⟨"kept"⟩ = some ⟨"staged"⟩ ∧ w'.deals.find? ⟨"done"⟩ ≠ some ⟨"active"⟩ ∧
      w'.deals.find? ⟨"gone"⟩ ≠ some ⟨"lost"⟩ ∧
      w'.deals.find? ⟨"new"⟩ = some ⟨"new proposal"⟩ := by
  intro w node progress
  have hresult : progress.result?.map Prod.fst =
      some (.error (.transport ⟨["unreadable"]⟩)) := by decide +kernel
  obtain ⟨⟨_, w'⟩, hdone, rfl⟩ := Option.map_eq_some_iff.1 hresult
  replace hdone := Progress.halt_of_result? hdone
  obtain ⟨-, -, hgiven⟩ := run_vetted (.replying node) false () (w := w) ⟨rfl, rfl, rfl⟩
  obtain ⟨-, -, hdeals⟩ := hgiven _ w' hdone
  have hnode : RepliedBy (fun _ => node) progress.trace :=
    Program.repliedBy_execute (Surroundings.answersBy_replying node) _ () (by rintro _ _ _ ⟨⟩)
  refine ⟨w', hdone, ?_, ?_, ?_, ?_⟩
  · exact (hdeals _ hnode ⟨"kept"⟩ ⟨"staged"⟩).2 (by decide +kernel)
  · exact mt (hdeals _ hnode ⟨"done"⟩ ⟨"active"⟩).1 (by decide +kernel)
  · exact mt (hdeals _ hnode ⟨"gone"⟩ ⟨"lost"⟩).1 (by decide +kernel)
  · exact (hdeals _ hnode ⟨"new"⟩ ⟨"new proposal"⟩).2 (by decide +kernel)

end Dealing

end PieceReplication
