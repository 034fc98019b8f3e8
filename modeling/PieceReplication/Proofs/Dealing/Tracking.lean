import PieceReplication.Proofs.Conduct.Invariant
import PieceReplication.Proofs.Conduct.Tick
import PieceReplication.Proofs.Run.Session

/-!
# The deals are tracked exactly

The set of the deals that are followed is a bounded map like the inventory, and an insertion into a
full one would silently forget a deal.  Here it is shown that this never happens: a deal is entered
as soon as it was started, for a piece that had none and with room left, and an entered deal stays
until a sweep finds that its piece is gone or that the deal has ended.  Nothing is assumed about the
node.
-/

namespace PieceReplication

open History BoundedMap

variable {setup : Setup} {h : History} {w : Worker} {occurrence : Occurrence}

/-- The deals that are followed after a history. -/
def History.deals (setup : Setup) (h : History) : BoundedMap Cid :=
  (worker setup.config h).deals

/-! ## What the changes of the worker keep -/

/-- Apart from the start of a deal, an entry of the deals is kept or released. -/
lemma Changes.find?_deals_or_releases (hchanges : Changes setup h w) {piece proposal : Cid}
    (hdeal : (deals setup h).find? piece = some proposal) :
    w.deals.find? piece = some proposal ∨
      w.pieces = (worker setup.config h).pieces ∧ Releases setup h piece := by
  cases hchanges with
  | touchDeal key hpart => exact .inl (find?_touch.trans hdeal)
  | release hreleases =>
    rename_i key
    by_cases hne : piece = key
    · exact .inr ⟨rfl, hne ▸ hreleases⟩
    · exact .inl (by rw [find?_erase, if_neg hne]; exact hdeal)
  | _ => exact .inl hdeal

/-- Apart from the start of a deal, no entry comes into the deals. -/
lemma Changes.find?_deals_of_find? (hchanges : Changes setup h w) {piece proposal : Cid}
    (hdeal : w.deals.find? piece = some proposal) :
    (deals setup h).find? piece = some proposal := by
  cases hchanges with
  | touchDeal key hpart => exact find?_touch.symm.trans hdeal
  | release hreleases =>
    rw [find?_erase] at hdeal
    split at hdeal
    · cases hdeal
    · exact hdeal
  | _ => exact hdeal

/-- A deal is started by the scan of the deal phase only. -/
lemma Conduct.purpose_of_startDeal {purpose : Purpose} {terms : DealTerms}
    (hconduct : Conduct setup h (.called purpose (.startDeal terms))) :
    ∃ piece, purpose = .dealScan piece ∧ MayStart setup (worker setup.config h) piece := by
  obtain ⟨-, hasks⟩ := hconduct
  cases hasks with
  | startDeal hpart hpayload hstart => exact ⟨_, rfl, hstart⟩

/-- The miner is asked for an offer by the scan of the deal phase only. -/
lemma Conduct.purpose_of_offer {purpose : Purpose} {miner : Address} {root : Cid}
    (hconduct : Conduct setup h (.called purpose (.offer miner root))) :
    ∃ piece, purpose = .dealScan piece ∧ MayStart setup (worker setup.config h) piece := by
  obtain ⟨-, hasks⟩ := hconduct
  cases hasks with
  | offer hpart hpayload harrived hstart => exact ⟨_, rfl, hstart⟩

/-- A change of the worker after the start of a deal enters the deal at the end of the deals and
leaves the inventory. -/
lemma Conduct.entries_of_justStarted {piece proposal : Cid} (hearlier : Along (Conduct setup) h)
    (hconduct : Conduct setup h (.became w)) (hjust : justStarted? h = some (piece, proposal)) :
    MayStart setup (worker setup.config h) piece ∧
      w.pieces = (worker setup.config h).pieces ∧
      w.deals.entries = (deals setup h).entries ++ [(piece, proposal)] := by
  simp only [Conduct, hjust] at hconduct
  obtain ⟨hstart, rfl⟩ := hconduct
  refine ⟨hstart, rfl, entries_insert_of_lt hstart.notMem ?_⟩
  exact (bounded_of_along hearlier).deals ▸ hstart.size_lt

/-! ## The tracking of the deals -/

/-- Whether an occurrence is a report or a count. -/
def Occurrence.IsReport : Occurrence → Prop
  | logged _ => True
  | counted _ => True
  | _ => False

/-- How the deals are tracked, at an occurrence and the history before it. -/
structure DealsTracked (setup : Setup) (h : History) (occurrence : Occurrence) : Prop where
  /-- A deal is started for a piece that has none, and with room left. -/
  starts : ∀ purpose terms, occurrence = .called purpose (.startDeal terms) →
    ∃ piece, purpose = .dealScan piece ∧ piece ∉ (deals setup h).keys ∧
      (deals setup h).size < setup.capacity
  /-- The miner is asked for an offer for a piece that has no deal. -/
  offers : ∀ purpose miner root, occurrence = .called purpose (.offer miner root) →
    ∃ piece, purpose = .dealScan piece ∧ piece ∉ (deals setup h).keys
  /-- The reply to the start of a deal makes it the deal that was just started. -/
  answers : ∀ purpose terms proposal,
    occurrence = .answered purpose (.startDeal terms) (.ok proposal) →
      ∃ piece, purpose = .dealScan piece ∧
        justStarted? (occurrence :: h) = some (piece, proposal)
  /-- A deal that was just started is entered before anything else happens but reports and counts:
  for a piece that had none, with room left, and beside all the others. -/
  enters : ∀ piece proposal, justStarted? h = some (piece, proposal) →
    occurrence.IsReport ∨
      ∃ w, occurrence = .became w ∧ piece ∉ (deals setup h).keys ∧
        (deals setup h).size < setup.capacity ∧
        w.deals.entries = (deals setup h).entries ++ [(piece, proposal)]
  /-- No other deal is entered. -/
  comes : ∀ piece proposal, (deals setup (occurrence :: h)).find? piece = some proposal →
    (deals setup h).find? piece = some proposal ∨ justStarted? h = some (piece, proposal)
  /-- Unless the driver breaks off, an entered deal leaves in a sweep only: because its piece is not
  in the inventory, or because the node has just shown it to be active or failed for good. -/
  leaves : ∀ piece proposal, occurrence ≠ .brokeOff →
    (deals setup h).find? piece = some proposal →
    (deals setup (occurrence :: h)).find? piece ≠ some proposal →
      part? h = some .dealSweep ∧
        (piece ∉ (worker setup.config h).pieces.keys ∨
          ∃ info : ClientDeal,
            lastReply? h = some ⟨.dealSweep piece, .dealInfo proposal, .ok info⟩ ∧
            (info.state = .active ∨ info.state.isTerminalFailure))

/-- A release of a deal is justified as the tracking asks for. -/
lemma Releases.justified {piece proposal : Cid} (hreleases : Releases setup h piece)
    (hdeal : (deals setup h).find? piece = some proposal) :
    part? h = some .dealSweep ∧
      (piece ∉ (worker setup.config h).pieces.keys ∨
        ∃ info : ClientDeal,
          lastReply? h = some ⟨.dealSweep piece, .dealInfo proposal, .ok info⟩ ∧
          (info.state = .active ∨ info.state.isTerminalFailure)) := by
  cases hreleases with
  | gone hpart hmem => exact ⟨hpart, .inl hmem⟩
  | replicated hpart hfollowed hreply hstate =>
    obtain rfl := Option.some.inj (hdeal.symm.trans hfollowed)
    exact ⟨hpart, .inr ⟨_, hreply, .inl hstate⟩⟩
  | failed hpart hfollowed hreply hstate =>
    obtain rfl := Option.some.inj (hdeal.symm.trans hfollowed)
    exact ⟨hpart, .inr ⟨_, hreply, .inr hstate⟩⟩

/-- Proper conduct tracks the deals. -/
lemma DealsTracked.of_conduct (hearlier : Along (Conduct setup) h)
    (hconduct : Conduct setup h occurrence) : DealsTracked setup h occurrence where
  starts := by
    rintro purpose terms rfl
    obtain ⟨piece, hpurpose, hstart⟩ := hconduct.purpose_of_startDeal
    exact ⟨piece, hpurpose, hstart.notMem, hstart.size_lt⟩
  offers := by
    rintro purpose miner root rfl
    obtain ⟨piece, hpurpose, hstart⟩ := hconduct.purpose_of_offer
    exact ⟨piece, hpurpose, hstart.notMem⟩
  answers := by
    rintro purpose terms proposal rfl
    -- the reply follows its call, whose purpose is known
    obtain ⟨earlier, rfl⟩ : ∃ earlier, h = .called purpose (.startDeal terms) :: earlier :=
      ⟨h.tail, List.eq_cons_of_mem_head? hconduct⟩
    obtain ⟨piece, rfl, -⟩ := hearlier.1.purpose_of_startDeal
    exact ⟨piece, rfl, rfl⟩
  enters := by
    intro piece proposal hjust
    cases occurrence with
    | logged event => exact .inl trivial
    | counted counter => exact .inl trivial
    | became w =>
      obtain ⟨hstart, -, hentries⟩ := hconduct.entries_of_justStarted hearlier hjust
      exact .inr ⟨w, rfl, hstart.notMem, hstart.size_lt, hentries⟩
    | called => cases hjust.symm.trans hconduct.1
    | published => cases hjust.symm.trans hconduct.1
    | entered => cases hjust.symm.trans hconduct.1
    | brokeOff => cases hjust.symm.trans hconduct.1
    | answered purpose call reply =>
      obtain ⟨earlier, rfl⟩ : ∃ earlier, h = .called purpose call :: earlier :=
        ⟨h.tail, List.eq_cons_of_mem_head? hconduct⟩
      cases hjust
    | _ => cases hjust.symm.trans hconduct
  comes := by
    intro piece proposal hdeal
    cases occurrence with
    | became w =>
      cases hjust : justStarted? h with
      | none =>
        simp only [Conduct, hjust] at hconduct
        exact .inl (hconduct.find?_deals_of_find? hdeal)
      | some start =>
        obtain ⟨-, -, hentries⟩ := hconduct.entries_of_justStarted hearlier hjust
        have hmem : (piece, proposal) ∈ (deals setup h).entries ++ [start] :=
          hentries ▸ find?_eq_some_iff.1 hdeal
        rcases List.mem_append.1 hmem with hold | hnew
        · exact .inl (find?_eq_some_iff.2 hold)
        · exact .inr (by rw [List.mem_singleton.1 hnew])
    | brokeOff => cases hdeal
    | _ => exact .inl hdeal
  leaves := by
    intro piece proposal hne hdeal hgone
    cases occurrence with
    | became w =>
      cases hjust : justStarted? h with
      | none =>
        simp only [Conduct, hjust] at hconduct
        rcases hconduct.find?_deals_or_releases hdeal with hkept | ⟨-, hreleases⟩
        · exact absurd hkept hgone
        · exact hreleases.justified hdeal
      | some start =>
        obtain ⟨-, -, hentries⟩ := hconduct.entries_of_justStarted hearlier hjust
        refine absurd (find?_eq_some_iff.2 ?_) hgone
        exact hentries ▸ List.mem_append_left _ (find?_eq_some_iff.1 hdeal)
    | brokeOff => exact absurd rfl hne
    | _ => exact absurd hdeal hgone

/-- While the driver rests, no started deal is left to be entered. -/
lemma Life.justStarted?_eq_none {events : List Event} {replicator : Replicator}
    (life : Life setup events replicator) (hrest : ¬ replicator.IsActive) :
    justStarted? (trace events) = none := by
  have hkeeps := life.keeps
  unfold Replicator.Keeps at hkeeps
  split at hkeeps
  · next running hrunning =>
    obtain ⟨isStopping, driver⟩ := running
    cases driver with
    | active program => exact absurd ⟨isStopping, program, hrunning⟩ hrest
    | hanging purpose call resume =>
      obtain ⟨⟨earlier, hcalled⟩, -⟩ := hkeeps
      rw [hcalled]
      rfl
    | asleep worker left => exact hkeeps.justStarted?_eq
    | finished worker => exact hkeeps.justStarted?_eq
    | broken =>
      obtain ⟨earlier, hbroken⟩ := hkeeps
      rw [hbroken]
      rfl
  · exact hkeeps.justStarted?_eq

/-- **Exact tracking of the deals.**  In each life of a replicator, whatever its surroundings
supply, a deal that is started is entered at once, for a piece that had none and with room left; it
stays entered until a sweep finds its piece gone or the deal ended; and no offer is asked for and no
deal is started for a piece that has a deal. -/
theorem Life.deals_tracked {events : List Event} {replicator : Replicator}
    (life : Life setup events replicator) :
    Along (DealsTracked setup) (trace events) ∧
      (¬ replicator.IsActive → justStarted? (trace events) = none) :=
  ⟨life.conduct.imp_of_along fun _ _ => DealsTracked.of_conduct, life.justStarted?_eq_none⟩

/-- The deals are tracked in a life in which two deals are started for a piece. -/
theorem Life.deals_tracked_sample :
    ∃ events, Life Sample.setup events Sample.session.replicator ∧
      returned (trace events) = [(⟨"piece"⟩, ⟨"second"⟩), (⟨"piece"⟩, ⟨"first"⟩)] ∧
      Along (DealsTracked Sample.setup) (trace events) ∧
      (¬ Sample.session.replicator.IsActive → justStarted? (trace events) = none) := by
  obtain ⟨events, life, htrace⟩ := Sample.showsLife_session
  refine ⟨events, life, ?_, life.deals_tracked⟩
  rw [htrace, Sample.returned_trace_session]

end PieceReplication
