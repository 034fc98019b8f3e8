import PieceReplication.Proofs.Retrieval.Tracking

/-!
# Whose payload is retrieved

The payload of a piece is that of its first deal: the sweep of the retrieval phase waits for it, and
so does the scan of the deal phase (`Worker.awaited?`).  The scan of the retrieval phase asks for a
payload too, that of the deal which it has chosen.  The two are the same if all deals of the piece
were published with one payload, and then nothing is asked for that is here
(`RetrievesAwaited`).

Nothing on the chain makes the deals of a piece agree, however.  If the first deal cannot be
retrieved from, and the others are for another payload, the scan asks for a payload that nobody
waits for, even while the awaited one is here (`Life.payloads_disagree`).
-/

namespace PieceReplication

open History

variable {setup : Setup} {h : History} {occurrence : Occurrence} {key root : Cid}

/-- The root of the payload of a piece: that of its first deal. -/
def Worker.awaited? (w : Worker) (key : Cid) : Option Cid :=
  (w.payload? key).map PayloadRef.root

/-- Whether all deals of a piece were published with one payload. -/
def Worker.SharesRoot (w : Worker) (key : Cid) : Prop :=
  ∀ piece, w.pieces.find? key = some piece →
    ∀ record ∈ piece.records, ∀ other ∈ piece.records, record.root = other.root

/-- What the node said last when it was asked whether a payload is here. -/
@[simp] def History.lastLocal? (root : Cid) : History → Option Bool
  | [] => none
  | occurrence :: earlier =>
    match occurrence with
    | .answered _ (.hasLocal asked) (.ok isLocal) =>
      if asked = root then some isLocal else lastLocal? root earlier
    | _ => lastLocal? root earlier

/-! ## What was said last -/

/-- A reply that the driver acts on is what was said last about the payload that it is about. -/
lemma lastLocal?_of_lastReply? {purpose : Purpose} {isLocal : Bool}
    (hreply : lastReply? h = some ⟨purpose, .hasLocal root, .ok isLocal⟩) :
    lastLocal? root h = some isLocal := by
  induction h with
  | nil => cases hreply
  | cons occurrence earlier ih =>
    cases occurrence with
    | answered other call reply =>
      cases hreply
      exact if_pos rfl
    | logged event => exact ih hreply
    | counted counter => exact ih hreply
    | became w => exact ih hreply
    | _ => cases hreply

/-- The reply before that to a query is what was said last about the payload that it is about. -/
lemma lastLocal?_of_previousReply? (hconduct : Along (Conduct setup) h)
    {purpose purpose' : Purpose} {isLocal : Bool} {asked : Cid} {provider : Address}
    {reply : Reply (.query asked provider)}
    (hprevious : previousReply? h = some ⟨purpose, .hasLocal root, .ok isLocal⟩)
    (hreply : lastReply? h = some ⟨purpose', .query asked provider, reply⟩) :
    lastLocal? root h = some isLocal := by
  induction h with
  | nil => cases hprevious
  | cons occurrence earlier ih =>
    obtain ⟨hoccurrence, hearlier⟩ := hconduct
    cases occurrence with
    | answered other call answer =>
      cases hreply
      -- before the reply stands its call, and before that the other reply
      obtain ⟨before, rfl⟩ : ∃ before,
          earlier = .called purpose' (.query asked provider) :: before :=
        ⟨earlier.tail, List.eq_cons_of_mem_head? hoccurrence⟩
      have hbefore : lastLocal? root before = some isLocal := lastLocal?_of_lastReply? hprevious
      exact hbefore
    | logged event => exact ih hearlier hprevious hreply
    | counted counter => exact ih hearlier hprevious hreply
    | became w => exact ih hearlier hprevious hreply
    | _ => cases hprevious

/-- The payload of a deal of a piece whose deals share one is that of the piece. -/
lemma Worker.SharesRoot.awaited?_eq {w : Worker} (hshares : w.SharesRoot key) {index : Nat}
    {record : DealRecord} (hrecord : w.record? key index = some record) :
    w.awaited? key = some record.root := by
  obtain ⟨piece, hpiece, hindex⟩ := Option.bind_eq_some_iff.1 hrecord
  have hmem : record ∈ piece.records := List.mem_of_getElem? hindex
  obtain ⟨first, hfirst⟩ : ∃ first, piece.records.head? = some first :=
    Option.isSome_iff_exists.1 (List.isSome_head?.2 (List.ne_nil_of_mem hmem))
  have hroot : first.root = record.root :=
    hshares piece hpiece first (List.mem_of_mem_head? hfirst) record hmem
  rw [awaited?, payload?, hpiece, Option.bind_some, Piece.payload?, hfirst, Option.map_some,
    Option.map_some, ← hroot]
  rfl

/-! ## What is asked for -/

/-- The requirement that what is asked for a piece, and then waited for, is the payload of the
piece, and that this is not here. -/
structure RetrievesAwaited (setup : Setup) (h : History) (occurrence : Occurrence) (key : Cid) :
    Prop where
  queries : ∀ index root provider,
    occurrence = .called (.retrievalScan key index) (.query root provider) →
      (worker setup.config h).awaited? key = some root ∧ lastLocal? root h = some false
  pends : ∀ w, occurrence = .became w → key ∈ w.retrievals.keys →
    key ∉ (worker setup.config h).retrievals.keys →
      ∃ root, (worker setup.config h).awaited? key = some root ∧ lastLocal? root h = some false

/-- What is asked and waited for, at an occurrence and the history before it. -/
structure RootsAsked (setup : Setup) (h : History) (occurrence : Occurrence) : Prop where
  /-- The sweep and the scan of the deal phase look for the payload of the piece. -/
  awaits : ∀ purpose key root, purpose = .retrievalSweep key ∨ purpose = .dealScan key →
    occurrence = .called purpose (.hasLocal root) →
      (worker setup.config h).awaited? key = some root
  /-- A query is for the payload of a deal that can be retrieved from, goes to the provider of that
  deal, and comes right after the node said that this payload is not here. -/
  queries : ∀ purpose root provider, occurrence = .called purpose (.query root provider) →
    ∃ key index record, purpose = .retrievalScan key index ∧
      (worker setup.config h).record? key index = some record ∧ record.isRetrievable ∧
      record.root = root ∧ record.provider = provider ∧ lastLocal? root h = some false
  /-- A retrieval becomes pending after the payload of such a deal was asked for. -/
  pends : ∀ w key, occurrence = .became w → key ∈ w.retrievals.keys →
    key ∉ (worker setup.config h).retrievals.keys →
      ∃ index record, (worker setup.config h).record? key index = some record ∧
        lastLocal? record.root h = some false
  /-- For a piece whose deals share one payload this is the payload of the piece. -/
  shared : ∀ key, (worker setup.config h).SharesRoot key → RetrievesAwaited setup h occurrence key

/-- A query is for the payload of the chosen deal, which is not here. -/
lemma Conduct.record_of_query {key : Cid} {index : Nat} {root : Cid} {provider : Address}
    (hconduct : Conduct setup h (.called (.retrievalScan key index) (.query root provider))) :
    ∃ record, (worker setup.config h).record? key index = some record ∧ record.isRetrievable ∧
      record.root = root ∧ record.provider = provider ∧ lastLocal? root h = some false := by
  obtain ⟨-, hasks⟩ := hconduct
  cases hasks with
  | query hpart hrecord hretrievable hprobed hpending hsize =>
    exact ⟨_, hrecord, hretrievable, rfl, rfl, lastLocal?_of_lastReply? hprobed⟩

/-- A retrieval that becomes pending is that of the chosen deal, whose payload is not here. -/
lemma Conduct.record_of_pending (hearlier : Along (Conduct setup) h) {w : Worker}
    (hconduct : Conduct setup h (.became w)) (hmem : key ∈ w.retrievals.keys)
    (hnew : key ∉ (worker setup.config h).retrievals.keys) :
    ∃ index record, (worker setup.config h).record? key index = some record ∧
      lastLocal? record.root h = some false := by
  obtain ⟨response, hresponse⟩ := BoundedMap.exists_find? hmem
  have htracked := RetrievalsTracked.of_conduct hearlier hconduct
  rcases htracked.comes key response hresponse with hbefore | ⟨hpends, -⟩
  · exact absurd (BoundedMap.mem_keys_of_find? hbefore) hnew
  · obtain ⟨index, record, hrecord, hprevious, hreply⟩ := hpends.refused
    exact ⟨index, record, hrecord, lastLocal?_of_previousReply? hearlier hprevious hreply⟩

/-- Proper conduct asks for the payloads of deals that are not here. -/
lemma RootsAsked.of_conduct (hearlier : Along (Conduct setup) h)
    (hconduct : Conduct setup h occurrence) : RootsAsked setup h occurrence where
  awaits := by
    rintro purpose key root hpurpose rfl
    obtain ⟨-, hasks⟩ := hconduct
    have hawaited : ∀ {payload : PayloadRef},
        (worker setup.config h).payload? key = some payload →
          (worker setup.config h).awaited? key = some payload.root := by
      intro payload hpayload
      rw [Worker.awaited?, hpayload]
      rfl
    rcases hpurpose with rfl | rfl
    · cases hasks with
      | sweepRetrieval hpart hpayload hpending hnew => exact hawaited hpayload
    · cases hasks with
      | arrival hpart hpayload => exact hawaited hpayload
  queries := by
    rintro purpose root provider rfl
    have htracked := RetrievalsTracked.of_conduct hearlier hconduct
    obtain ⟨key, index, -, rfl, -⟩ := htracked.queries purpose root provider rfl
    obtain ⟨record, hrecord⟩ := hconduct.record_of_query
    exact ⟨key, index, record, rfl, hrecord⟩
  pends := by
    rintro w key rfl hmem hnew
    exact hconduct.record_of_pending hearlier hmem hnew
  shared := by
    intro key hshares
    constructor
    · rintro index root provider rfl
      obtain ⟨record, hrecord, -, rfl, -, hlocal⟩ := hconduct.record_of_query
      exact ⟨hshares.awaited?_eq hrecord, hlocal⟩
    · rintro w rfl hmem hnew
      obtain ⟨index, record, hrecord, hlocal⟩ := hconduct.record_of_pending hearlier hmem hnew
      exact ⟨record.root, hshares.awaited?_eq hrecord, hlocal⟩

/-- **What is retrieved is the payload of the chosen deal.**  In each life of a replicator, whatever
its surroundings supply, a query is for the payload of a deal of the piece that can be retrieved
from, which the node has just said is not here, and so is each retrieval that becomes pending.  For
a piece whose deals share one payload this is the payload that the sweep and the deal phase wait
for. -/
theorem Life.roots_asked {events : List Event} {replicator : Replicator}
    (life : Life setup events replicator) : Along (RootsAsked setup) (trace events) :=
  life.conduct.imp_of_along fun _ _ => RootsAsked.of_conduct

/-- The payloads of deals are asked for in a life in which the deals of three pieces have different
payloads. -/
theorem Life.roots_asked_crowded :
    ∃ events, Life Sample.crowdedSetup events Sample.crowdedSession.replicator ∧
      ((worker Sample.crowdedSetup.config (trace events)).pieces.find? ⟨"first"⟩).map
          (fun piece => piece.records.map DealRecord.root) =
        some [⟨"first, unproved"⟩, ⟨"first, proved"⟩] ∧
      Along (RootsAsked Sample.crowdedSetup) (trace events) := by
  obtain ⟨events, life, htrace⟩ := Sample.showsLife_crowdedSession
  refine ⟨events, life, ?_, life.roots_asked⟩
  rw [htrace]
  decide +kernel

/-- Whether an occurrence is no query for another payload than that of the piece. -/
def queriesAwaited (setup : Setup) (h : History) : Occurrence → Bool
  | .called (.retrievalScan key _) (.query root _) =>
    (worker setup.config h).awaited? key == some root
  | _ => true

/-- A payload may be asked for that is not the payload of the piece: in the crowded session the
first deals of three pieces cannot be retrieved from, and the second ones have other payloads. -/
theorem Life.payloads_disagree :
    ¬ ∀ {setup : Setup} {events : List Event} {replicator : Replicator},
      Life setup events replicator →
        Along (fun h occurrence => ∀ key, RetrievesAwaited setup h occurrence key)
          (trace events) := by
  intro hagree
  obtain ⟨events, life, htrace⟩ := Sample.showsLife_crowdedSession
  have hqueries : Along (fun h occurrence => queriesAwaited Sample.crowdedSetup h occurrence = true)
      (trace events) := by
    refine (hagree life).imp_of_along fun h occurrence _ hawaited => ?_
    unfold queriesAwaited
    split
    · next key index root provider =>
      exact beq_iff_eq.2 ((hawaited key).queries index root provider rfl).1
    · rfl
  rw [htrace] at hqueries
  revert hqueries
  decide +kernel

end PieceReplication
