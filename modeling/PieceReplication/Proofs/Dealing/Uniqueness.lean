import PieceReplication.Proofs.Dealing.Tracking

/-!
# One deal for a piece at a time

Each deal costs money, so a piece must not be dealt again while an earlier deal for it may still
succeed.  Nothing in the driver records all the deals that it started: the followed deals are swept
once their piece is gone, and a driver that breaks off loses everything.  What protects a piece is
that it comes back into the inventory only if the node lists no deal for it that may still succeed.

So the guarantee rests on the node being consistent about its own deals (`NodeConsistent`), and on
this invariant of the history (`Guarded`): for each deal that was ever started, the deal has failed,
or its piece is not in the inventory, or it is followed, or it is about to be.  While the chain is
indexed, a second one is needed (`Listed`): each started deal has failed or is listed as live.
-/

namespace PieceReplication

open History BoundedMap

variable {setup : Setup} {failed : History → Cid → Prop} {h : History} {w : Worker}
  {occurrence : Occurrence}

/-- The deals of the node that a reply lists. -/
def Occurrence.listing? : Occurrence → Option (List ClientDeal)
  | answered _ .clientDeals (.ok clientDeals) => some clientDeals
  | _ => none

/-- The deals of the node that a reply shows, each with its state. -/
def Occurrence.shown : Occurrence → List (Cid × DealStatus)
  | answered _ .clientDeals (.ok clientDeals) =>
    clientDeals.map fun deal => (deal.proposal, deal.state)
  | answered _ (.dealInfo proposal) (.ok deal) => [(proposal, deal.state)]
  | _ => []

/-- The node is consistent about its own deals, where `failed h proposal` says that a deal has
failed by the end of `h`. -/
structure NodeConsistent (failed : History → Cid → Prop) (h : History) (occurrence : Occurrence) :
    Prop where
  /-- It lists each deal that was started, under its piece. -/
  lists : ∀ clientDeals ∈ occurrence.listing?, ∀ start ∈ returned h,
    ∃ deal ∈ clientDeals, deal.proposal = start.2 ∧ deal.piece = start.1
  /-- It shows a deal as failed for good only if the deal has failed. -/
  shows : ∀ deal ∈ occurrence.shown, deal.2.isTerminalFailure → failed (occurrence :: h) deal.1

instance [∀ h proposal, Decidable (failed h proposal)] :
    Decidable (NodeConsistent failed h occurrence) :=
  decidable_of_iff
    ((∀ clientDeals ∈ occurrence.listing?, ∀ start ∈ returned h,
      ∃ deal ∈ clientDeals, deal.proposal = start.2 ∧ deal.piece = start.1) ∧
      ∀ deal ∈ occurrence.shown, deal.2.isTerminalFailure → failed (occurrence :: h) deal.1)
    ⟨fun h => ⟨h.1, h.2⟩, fun h => ⟨h.lists, h.shows⟩⟩

/-- Whether a deal is started for a piece only after every earlier one for it has failed. -/
def StartsAfterFailure (failed : History → Cid → Prop) (h : History) : Occurrence → Prop
  | .called (.dealScan piece) (.startDeal _) =>
    ∀ proposal, (piece, proposal) ∈ returned h → failed h proposal
  | _ => True

/-- Each deal that was started has failed, or its piece is not in the inventory, or it is followed,
or it is about to be. -/
def Guarded (setup : Setup) (failed : History → Cid → Prop) (h : History) : Prop :=
  ∀ piece proposal, (piece, proposal) ∈ returned h →
    failed h proposal ∨ piece ∉ (worker setup.config h).pieces.keys ∨
      (deals setup h).find? piece = some proposal ∨ justStarted? h = some (piece, proposal)

/-- While the deals of the node are listed, the chain is indexed, and each deal that was started has
failed or is listed under its piece as one that may still succeed. -/
def Listed (failed : History → Cid → Prop) (h : History) : Prop :=
  ∀ clientDeals, listed? h = some clientDeals →
    part? h = some .indexing ∧
      ∀ piece proposal, (piece, proposal) ∈ returned h →
        failed h proposal ∨ Indexing.hasLiveDeal clientDeals piece

/-- A deal that was just shown as failed for good has failed. -/
lemma failed_of_lastReply? (hstays : ∀ o h proposal, failed h proposal → failed (o :: h) proposal)
    (hnode : Along (NodeConsistent failed) h) {purpose : Purpose} {proposal : Cid}
    {info : ClientDeal}
    (hreply : lastReply? h = some ⟨purpose, .dealInfo proposal, .ok info⟩)
    (hstate : info.state.isTerminalFailure) : failed h proposal := by
  induction h with
  | nil => cases hreply
  | cons occurrence earlier ih =>
    cases occurrence with
    | answered purpose call reply =>
      cases hreply
      exact hnode.1.shows (proposal, info.state) (List.mem_singleton_self _) hstate
    | logged event => exact hstays _ _ _ (ih hnode.2 hreply)
    | counted counter => exact hstays _ _ _ (ih hnode.2 hreply)
    | became w => exact hstays _ _ _ (ih hnode.2 hreply)
    | _ => cases hreply

/-- A listed deal of the node that has not failed for good is live for its piece. -/
lemma hasLiveDeal_of_mem {clientDeals : List ClientDeal} {deal : ClientDeal}
    (hmem : deal ∈ clientDeals) (hstate : ¬ deal.state.isTerminalFailure) :
    Indexing.hasLiveDeal clientDeals deal.piece := by
  refine List.any_eq_true.2 ⟨deal, hmem, ?_⟩
  simpa using hstate

/-- A piece that comes into the inventory is not one with a live deal of the node. -/
lemma Changes.mem_pieces_or_foreign (hchanges : Changes setup h w) {piece : Cid}
    (hmem : piece ∈ w.pieces.keys) :
    piece ∈ (worker setup.config h).pieces.keys ∨
      ∃ clientDeals, listed? h = some clientDeals ∧
        Indexing.hasLiveDeal clientDeals piece = false := by
  cases hchanges with
  | addToPiece hfinds hknown => exact .inl (mem_keys_modify.1 hmem)
  | touchPiece key hpart hwalk => exact .inl (mem_keys_touch.1 hmem)
  | countTry hpart hrecord hreply htries => exact .inl (mem_keys_modify.1 hmem)
  | drop hdrops => exact .inl (mem_keys_erase.1 hmem).2
  | addPiece hfinds hunknown =>
    rename_i dealId deal
    by_cases hne : piece = deal.proposal.piece
    · obtain ⟨clientDeals, hlisted, hforeign⟩ := hfinds.foreign
      refine .inr ⟨clientDeals, hlisted, ?_⟩
      rw [hne]
      exact (Bool.or_eq_false_iff.1 hforeign).2
    · exact .inl (mem_keys_of_mem_keys_insert hmem hne)
  | _ => exact .inl hmem

/-! ## The invariants along a history -/

/-- A change of the worker other than the start of a deal keeps the started deals guarded. -/
lemma Guarded.changed (hstays : ∀ o h proposal, failed h proposal → failed (o :: h) proposal)
    (hnode : Along (NodeConsistent failed) h) (hlisted : Listed failed h)
    (hguarded : Guarded setup failed h) (hjust : justStarted? h = none)
    (hchanges : Changes setup h w) : Guarded setup failed (.became w :: h) := by
  intro piece proposal hreturned
  rcases hguarded piece proposal hreturned with hfailed | habsent | hdeal | hstarted
  · exact .inl (hstays _ _ _ hfailed)
  · by_cases hmem : piece ∈ w.pieces.keys
    · rcases hchanges.mem_pieces_or_foreign hmem with hknown | ⟨clientDeals, hlist, hforeign⟩
      · exact absurd hknown habsent
      · rcases (hlisted clientDeals hlist).2 piece proposal hreturned with hfailed | hlive
        · exact .inl (hstays _ _ _ hfailed)
        · cases hforeign.symm.trans hlive
    · exact .inr (.inl hmem)
  · rcases hchanges.find?_deals_or_releases hdeal with hkept | ⟨hpieces, hreleases⟩
    · exact .inr (.inr (.inl hkept))
    · cases hreleases with
      | gone hpart hmem => exact .inr (.inl (show piece ∉ w.pieces.keys from hpieces ▸ hmem))
      | replicated hpart hfollowed hreply hstate hmem =>
        exact .inr (.inl (show piece ∉ w.pieces.keys from hpieces ▸ hmem))
      | failed hpart hfollowed hreply hstate =>
        obtain rfl := Option.some.inj (hdeal.symm.trans hfollowed)
        exact .inl (hstays _ _ _ (failed_of_lastReply? hstays hnode hreply hstate))
  · cases hjust.symm.trans hstarted

/-- The entry of a deal that was just started keeps the started deals guarded. -/
lemma Guarded.entered (hstays : ∀ o h proposal, failed h proposal → failed (o :: h) proposal)
    (hguarded : Guarded setup failed h) {start : Cid × Cid} (hjust : justStarted? h = some start)
    (hpieces : w.pieces = (worker setup.config h).pieces)
    (hentries : w.deals.entries = (deals setup h).entries ++ [start]) :
    Guarded setup failed (.became w :: h) := by
  have hentered : ∀ entry ∈ (deals setup h).entries ++ [start],
      w.deals.find? entry.1 = some entry.2 := by
    intro entry hentry
    exact find?_eq_some_iff.2 (hentries ▸ hentry)
  intro piece proposal hreturned
  rcases hguarded piece proposal hreturned with hfailed | habsent | hdeal | hstarted
  · exact .inl (hstays _ _ _ hfailed)
  · exact .inr (.inl (show piece ∉ w.pieces.keys from hpieces ▸ habsent))
  · have hold := List.mem_append_left [start] (find?_eq_some_iff.1 hdeal)
    exact .inr (.inr (.inl (hentered _ hold)))
  · obtain rfl := Option.some.inj (hjust.symm.trans hstarted)
    exact .inr (.inr (.inl (hentered _ List.mem_concat_self)))

/-- An occurrence that neither changes the worker nor starts a deal keeps the started deals
guarded. -/
lemma Guarded.kept (hstays : ∀ o h proposal, failed h proposal → failed (o :: h) proposal)
    (hguarded : Guarded setup failed h)
    (hreturned : returned (occurrence :: h) = returned h)
    (hworker : worker setup.config (occurrence :: h) = worker setup.config h)
    (hjust : justStarted? h = none ∨ justStarted? (occurrence :: h) = justStarted? h) :
    Guarded setup failed (occurrence :: h) := by
  intro piece proposal hmem
  rw [hreturned] at hmem
  rw [deals, hworker]
  rcases hguarded piece proposal hmem with hfailed | habsent | hdeal | hstarted
  · exact .inl (hstays _ _ _ hfailed)
  · exact .inr (.inl habsent)
  · exact .inr (.inr (.inl hdeal))
  · rcases hjust with hnone | hsame
    · cases hnone.symm.trans hstarted
    · exact .inr (.inr (.inr (hsame.trans hstarted)))

/-- A reply keeps the started deals guarded: a deal that it starts is the one just started. -/
lemma Guarded.answered (hstays : ∀ o h proposal, failed h proposal → failed (o :: h) proposal)
    (hguarded : Guarded setup failed h) {purpose : Purpose} {call : Call} {reply : Reply call}
    (hjust : justStarted? h = none) :
    Guarded setup failed (.answered purpose call reply :: h) := by
  cases hstart : startOf? purpose call reply with
  | none =>
    refine hguarded.kept hstays ?_ rfl (.inl hjust)
    rw [returned, hstart]
    rfl
  | some start =>
    intro piece proposal hmem
    rw [returned, hstart] at hmem
    rcases List.mem_cons.1 hmem with rfl | hmem
    · exact .inr (.inr (.inr hstart))
    · rcases hguarded piece proposal hmem with hfailed | habsent | hdeal | hstarted
      · exact .inl (hstays _ _ _ hfailed)
      · exact .inr (.inl habsent)
      · exact .inr (.inr (.inl hdeal))
      · cases hjust.symm.trans hstarted

/-- Without a listing there is nothing to be listed. -/
lemma listed_of_eq_none (hnone : listed? h = none) : Listed failed h := by
  intro clientDeals hlist
  cases hnone.symm.trans hlist

/-- What starts no deal and leaves the listing and the part leaves the started deals listed. -/
lemma Listed.kept (hstays : ∀ o h proposal, failed h proposal → failed (o :: h) proposal)
    (hlisted : Listed failed h) (hlist : listed? (occurrence :: h) = listed? h)
    (hpart : part? (occurrence :: h) = part? h)
    (hreturned : returned (occurrence :: h) = returned h) : Listed failed (occurrence :: h) := by
  intro clientDeals hsome
  rw [hlist] at hsome
  rw [hpart, hreturned]
  obtain ⟨hindexing, hstarted⟩ := hlisted clientDeals hsome
  refine ⟨hindexing, fun piece proposal hmem => ?_⟩
  exact (hstarted piece proposal hmem).imp_left (hstays _ _ _)

/-- A new listing of a consistent node lists the started deals. -/
lemma Listed.renewed {purpose : Purpose} {clientDeals : List ClientDeal}
    (hpart : part? h = some .indexing)
    (hnode : NodeConsistent failed h (.answered purpose .clientDeals (.ok clientDeals))) :
    Listed failed (.answered purpose .clientDeals (.ok clientDeals) :: h) := by
  rintro clientDeals ⟨rfl⟩
  refine ⟨hpart, fun piece proposal hmem => ?_⟩
  have hreturned : (piece, proposal) ∈ returned h := by
    cases purpose <;> exact hmem
  obtain ⟨deal, hdeal, rfl, rfl⟩ := hnode.lists clientDeals rfl _ hreturned
  by_cases hstate : deal.state.isTerminalFailure
  · exact .inl (hnode.shows (deal.proposal, deal.state) (List.mem_map_of_mem hdeal) hstate)
  · exact .inr (hasLiveDeal_of_mem hdeal hstate)

/-- A reply leaves the started deals listed, since none is started while the chain is indexed. -/
lemma Listed.answered (hstays : ∀ o h proposal, failed h proposal → failed (o :: h) proposal)
    {purpose : Purpose} {call : Call} {reply : Reply call}
    (hlisted : Listed failed (.called purpose call :: h))
    (hcalled : Conduct setup h (.called purpose call))
    (hnode : NodeConsistent failed (.called purpose call :: h) (.answered purpose call reply)) :
    Listed failed (.answered purpose call reply :: .called purpose call :: h) := by
  obtain ⟨-, hasks⟩ := hcalled
  cases hstart : startOf? purpose call reply with
  | none =>
    have hreturned : returned (.answered purpose call reply :: .called purpose call :: h) =
        returned (.called purpose call :: h) := by
      rw [returned, hstart]
      rfl
    cases call with
    | clientDeals =>
      cases reply with
      | ok clientDeals =>
        cases hasks with
        | clientDeals hpart => exact Listed.renewed hpart hnode
      | error failure => exact hlisted.kept hstays rfl rfl hreturned
    | _ => exact hlisted.kept hstays rfl rfl hreturned
  | some start =>
    obtain ⟨terms, rfl, rfl⟩ := dealScan_of_startOf? hstart
    cases hasks with
    | startDeal hpart hpayload hmay =>
      intro clientDeals hsome
      have hindexing := (hlisted clientDeals hsome).1
      cases hpart.symm.trans hindexing

/-- Along a history of proper conduct and consistent answers the started deals are guarded, and
listed while the chain is indexed. -/
lemma guarded_and_listed (hstays : ∀ o h proposal, failed h proposal → failed (o :: h) proposal)
    (hconduct : Along (Conduct setup) h) (hnode : Along (NodeConsistent failed) h) :
    Guarded setup failed h ∧ Listed failed h := by
  induction h with
  | nil => exact ⟨fun _ _ _ => .inr (.inl List.not_mem_nil), listed_of_eq_none rfl⟩
  | cons occurrence earlier ih =>
    obtain ⟨hguarded, hlisted⟩ := ih hconduct.2 hnode.2
    obtain ⟨hoccurrence, hearlier⟩ := hconduct
    cases occurrence with
    | called purpose call =>
      exact ⟨hguarded.kept hstays rfl rfl (.inl hoccurrence.1), hlisted.kept hstays rfl rfl rfl⟩
    | answered purpose call reply =>
      obtain ⟨first, rfl⟩ : ∃ first, earlier = .called purpose call :: first :=
        ⟨earlier.tail, List.eq_cons_of_mem_head? hoccurrence⟩
      exact ⟨hguarded.answered hstays rfl, hlisted.answered hstays hearlier.1 hnode.1⟩
    | became w =>
      refine ⟨?_, hlisted.kept hstays rfl rfl rfl⟩
      cases hjust : justStarted? earlier with
      | none =>
        simp only [Conduct, hjust] at hoccurrence
        exact hguarded.changed hstays hnode.2 hlisted hjust hoccurrence
      | some start =>
        obtain ⟨-, hpieces, hentries⟩ := hoccurrence.entries_of_justStarted hearlier hjust
        exact hguarded.entered hstays hjust hpieces hentries
    | logged event =>
      exact ⟨hguarded.kept hstays rfl rfl (.inr rfl), hlisted.kept hstays rfl rfl rfl⟩
    | counted counter =>
      exact ⟨hguarded.kept hstays rfl rfl (.inr rfl), hlisted.kept hstays rfl rfl rfl⟩
    | published stats =>
      exact ⟨hguarded.kept hstays rfl rfl (.inl hoccurrence.1), listed_of_eq_none rfl⟩
    | chose n choice =>
      exact ⟨hguarded.kept hstays rfl rfl (.inl hoccurrence), hlisted.kept hstays rfl rfl rfl⟩
    | looked answer =>
      exact ⟨hguarded.kept hstays rfl rfl (.inl hoccurrence), hlisted.kept hstays rfl rfl rfl⟩
    | entered part =>
      exact ⟨hguarded.kept hstays rfl rfl (.inl hoccurrence.1), listed_of_eq_none rfl⟩
    | brokeOff => exact ⟨fun _ _ _ => .inr (.inl List.not_mem_nil), listed_of_eq_none rfl⟩

/-- The start of a deal is proper only for a piece whose earlier deals have failed. -/
lemma Guarded.afterFailure (hguarded : Guarded setup failed h)
    (hconduct : Conduct setup h occurrence) : StartsAfterFailure failed h occurrence := by
  unfold StartsAfterFailure
  split
  · next piece terms =>
    intro proposal hreturned
    obtain ⟨hjust, hasks⟩ := hconduct
    cases hasks with
    | startDeal hpart hpayload hmay =>
      rcases hguarded piece proposal hreturned with hfailed | habsent | hdeal | hstarted
      · exact hfailed
      · exact absurd (Worker.mem_keys_of_payload? hpayload) habsent
      · exact absurd (mem_keys_of_find? hdeal) hmay.notMem
      · cases hjust.symm.trans hstarted
  · trivial

/-- **One deal for a piece at a time.**  In each life of a replicator with a node that is consistent
about its own deals, whenever a deal is started for a piece, every deal that was started for it
before has failed. -/
theorem Life.startsAfterFailure {events : List Event} {replicator : Replicator}
    (life : Life setup events replicator)
    (hstays : ∀ o h proposal, failed h proposal → failed (o :: h) proposal)
    (hnode : Along (NodeConsistent failed) (trace events)) :
    Along (StartsAfterFailure failed) (trace events) := by
  refine along_of_forall fun later occurrence earlier htrace => ?_
  have hconduct := life.conduct
  rw [htrace] at hconduct hnode
  obtain ⟨hoccurrence, hearlier⟩ := hconduct.of_append
  exact (guarded_and_listed hstays hearlier hnode.of_append.2).1.afterFailure hoccurrence

/-- Whether a deal of the sample session has failed: the first one fails before the stop. -/
def Sample.HasFailed (h : History) (proposal : Cid) : Prop :=
  proposal = ⟨"first"⟩ ∧ h.any fun occurrence =>
    match occurrence with
    | .looked isStopping => isStopping
    | _ => false

instance (h : History) (proposal : Cid) : Decidable (Sample.HasFailed h proposal) :=
  inferInstanceAs (Decidable (_ ∧ _))

/-- In the sample session the second deal for the piece is started after the first has failed. -/
theorem Life.startsAfterFailure_sample :
    ∃ events, Life Sample.setup events Sample.session.replicator ∧
      returned (trace events) = [(⟨"piece"⟩, ⟨"second"⟩), (⟨"piece"⟩, ⟨"first"⟩)] ∧
      Along (NodeConsistent Sample.HasFailed) (trace events) ∧
      Along (StartsAfterFailure Sample.HasFailed) (trace events) := by
  obtain ⟨events, life, htrace⟩ := Sample.showsLife_session
  have hnode : Along (NodeConsistent Sample.HasFailed) (trace events) := by
    rw [htrace]
    decide +kernel
  refine ⟨events, life, ?_, hnode, life.startsAfterFailure ?_ hnode⟩
  · rw [htrace, Sample.returned_trace_session]
  · intro o h proposal hfailed
    refine ⟨hfailed.1, ?_⟩
    rw [List.any_cons, hfailed.2, Bool.or_true]

end PieceReplication
