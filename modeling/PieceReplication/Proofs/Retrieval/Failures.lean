import PieceReplication.Proofs.Conduct.Tally
import PieceReplication.Proofs.Inventory.Keeping
import PieceReplication.Proofs.Inventory.Uncounted
import PieceReplication.Proofs.Inventory.WellFormed

/-!
# The records of a piece and its failed queries

While a piece stays in the inventory, what its records say of their deals never changes, and others
only come after them.  The one thing that changes in a record is the count of the failed queries,
and that is exact: it is the number of queries for this very deal that failed since the deal was
recorded.  It holds although the scan finds the record again by an index that it took before the
query, in a map that is reordered with each use.

The count lags behind while a failed query waits to be counted.  Nothing happens in between but
counts for the metrics.
-/

namespace PieceReplication

open History BoundedMap

variable {setup : Setup} {h : History} {w : Worker} {occurrence : Occurrence} {key : Cid}
  {index : Nat}

/-! ## What is counted -/

/-- How many queries have just failed at an occurrence for the deal of a piece at an index: one or
none. -/
@[simp] def Occurrence.failures (key : Cid) (index : Nat) : Occurrence → Nat
  | .answered purpose call reply =>
    if failureOf? purpose call reply = some (key, index) then 1 else 0
  | _ => 0

/-- How many queries failed for the deal of a piece at an index since the deal was recorded. -/
def History.failures (setup : Setup) (key : Cid) (index : Nat) : History → Nat
  | [] => 0
  | occurrence :: earlier =>
    match (worker setup.config (occurrence :: earlier)).record? key index with
    | none => 0
    | some _ => failures setup key index earlier + occurrence.failures key index

/-- How many queries for the deal of a piece at an index wait to be counted: one or none. -/
def History.uncountedFailures (key : Cid) (index : Nat) (h : History) : Nat :=
  if justFailed? h = some (key, index) then 1 else 0

/-- How failed queries are counted, at an occurrence and the history before it. -/
structure FailuresCounted (setup : Setup) (h : History) (occurrence : Occurrence) : Prop where
  /-- A query is made for a recorded deal. -/
  asked : ∀ purpose root provider, occurrence = .called purpose (.query root provider) →
    ∃ key index record, purpose = .retrievalScan key index ∧
      (worker setup.config h).record? key index = some record ∧
      record.root = root ∧ record.provider = provider
  /-- A failed query is counted right away, in the record of its deal and in no other. -/
  tallied : ∀ key index, justFailed? h = some (key, index) → Tallies setup h key index occurrence
  /-- The deals of a piece that stays are kept, and others come after them. -/
  kept : ∀ key piece later, (pieces setup h).find? key = some piece →
    (pieces setup (occurrence :: h)).find? key = some later → piece.deals <+: later.deals
  /-- A deal is recorded with no failed query. -/
  new : ∀ key index record, (worker setup.config h).record? key index = none →
    (worker setup.config (occurrence :: h)).record? key index = some record → record.tries = 0
  /-- The count changes only right after a query for this very deal has failed. -/
  counted : ∀ key index record later, (worker setup.config h).record? key index = some record →
    (worker setup.config (occurrence :: h)).record? key index = some later →
      justFailed? h ≠ some (key, index) → later.tries = record.tries

/-! ## Changes of the records -/

/-- The deals of a piece do not depend on the count of failed queries. -/
lemma Piece.deals_setTries (piece : Piece) (index : Nat) (tries : UInt64) :
    (piece.setTries index tries).deals = piece.deals :=
  Piece.map_records_setTries (fun _ _ => rfl) piece index tries

/-- The records of a piece do not depend on the other pieces. -/
lemma Worker.record?_congr {w w' : Worker} (hfind : w'.pieces.find? key = w.pieces.find? key)
    (index : Nat) : w'.record? key index = w.record? key index := by
  rw [record?, record?, hfind]

/-- Another count leaves all but the record of that deal as it is. -/
lemma Worker.record?_setTries (w : Worker) (key other : Cid) (index i : Nat) (tries : UInt64) :
    record? { w with pieces := w.pieces.modify other (·.setTries i tries) } key index =
      if key = other ∧ i = index then (w.record? key index).map ({ · with tries })
      else w.record? key index := by
  rw [record?, record?, find?_modify]
  by_cases hkey : key = other
  · subst hkey
    cases w.pieces.find? key with
    | none => simp
    | some piece =>
      by_cases hindex : i = index
      · simp [hindex, Piece.setTries]
      · simp [hindex, Piece.setTries]
  · simp [hkey]

/-- A record that a piece did not have before a deal was added to it is the one of that deal. -/
lemma Piece.eq_of_getElem?_add (piece : Piece) {new record : DealRecord}
    (hunknown : piece.records[index]? = none)
    (hindex : (piece.add new).records[index]? = some record) : record = new := by
  unfold Piece.add at hindex
  split at hindex
  · rw [hunknown] at hindex
    cases hindex
  · rw [List.getElem?_append_right (List.getElem?_eq_none_iff.1 hunknown)] at hindex
    exact List.mem_singleton.1 (List.mem_of_getElem? hindex)

/-- A deal that was not recorded before is recorded with no failed query. -/
lemma Changes.tries_eq_zero (hchanges : Changes setup h w) {record : DealRecord}
    (hnone : (worker setup.config h).record? key index = none)
    (hrecord : w.record? key index = some record) : record.tries = 0 := by
  -- where the piece is as it was, the deal would have been recorded before
  have hsame : w.pieces.find? key = (pieces setup h).find? key → record.tries = 0 := by
    intro hfind
    rw [Worker.record?_congr hfind, hnone] at hrecord
    cases hrecord
  obtain ⟨piece, hpiece, hindex⟩ := Option.bind_eq_some_iff.1 hrecord
  cases hchanges with
  | @addToPiece dealId deal hfinds hmem =>
    by_cases hkey : key = deal.proposal.piece
    · subst hkey
      obtain ⟨old, hold⟩ : ∃ old, (pieces setup h).find? deal.proposal.piece = some old :=
        exists_find? hmem
      have hlater : ((pieces setup h).modify deal.proposal.piece
          (·.add (.ofDeal dealId deal))).find? deal.proposal.piece = some piece := hpiece
      rw [find?_modify, if_pos rfl, hold] at hlater
      obtain rfl := Option.some.inj hlater
      have hunknown : old.records[index]? = none := by
        rw [Worker.record?, Option.bind_eq_none_iff] at hnone
        exact hnone old hold
      rw [old.eq_of_getElem?_add hunknown hindex]
      rfl
    · exact hsame (find?_modify.trans (if_neg hkey))
  | @addPiece dealId deal hfinds hnew =>
    by_cases hkey : key = deal.proposal.piece
    · subst hkey
      obtain rfl := eq_of_find?_insert_self hpiece
      obtain rfl := List.mem_singleton.1 (List.mem_of_getElem? hindex)
      rfl
    · exact hsame (find?_insert_of_ne hkey (mem_keys_of_find? hpiece))
  | touchPiece other hpart hwalk => exact hsame find?_touch
  | countTry hpart hrecorded hreply htries =>
    rw [Worker.record?_setTries, hnone] at hrecord
    split at hrecord
    · cases hrecord
    · cases hrecord
  | @drop other hdrops =>
    by_cases hkey : key = other
    · subst hkey
      exact absurd (mem_keys_of_find? hpiece) fun hmem => (mem_keys_erase.1 hmem).1 rfl
    · exact hsame (find?_erase.trans (if_neg hkey))
  | _ => exact hsame rfl

/-- Where no failed query is left to count, a change only adds records to the pieces that stay. -/
lemma Changes.records_extend (hearlier : Along (Conduct setup) h) (hchanges : Changes setup h w)
    (htallied : Tallied setup h (.became w)) (hcounted : justFailed? h = none) {piece later : Piece}
    (hpiece : (pieces setup h).find? key = some piece)
    (hlater : w.pieces.find? key = some later) : piece.records <+: later.records := by
  by_cases hpart : part? h = some .retrievalScan
  · have hfind := htallied.unchanged hcounted hpart w rfl key
    obtain rfl := Option.some.inj (hlater.symm.trans (hfind.trans hpiece))
    exact List.prefix_refl _
  · cases hchanges.recordsKept hpiece hlater with
    | all hextends => exact hextends
    | counted hreply => exact absurd (part?_of_lastReply? hearlier hreply) hpart

/-! ## The accounts -/

/-- What does not change the inventory leaves the counts as they are. -/
lemma FailuresCounted.of_eq (hearlier : Along (Conduct setup) h)
    (hconduct : Conduct setup h occurrence) (htallied : Tallied setup h occurrence)
    (heq : pieces setup (occurrence :: h) = pieces setup h) :
    FailuresCounted setup h occurrence where
  asked := by
    rintro purpose root provider rfl
    obtain ⟨key, index, record, hpurpose, hrecord, hroot, hprovider, -⟩ :=
      QueriesForeign.of_conduct hearlier hconduct purpose root provider rfl
    exact ⟨key, index, record, hpurpose, hrecord, hroot, hprovider⟩
  tallied := htallied.failed
  kept key piece later hpiece hlater := by
    rw [heq] at hlater
    obtain rfl := Option.some.inj (hpiece.symm.trans hlater)
    exact List.prefix_refl _
  new key index record hnone hrecord := by
    rw [Worker.record?_congr (congrArg (BoundedMap.find? · key) heq), hnone] at hrecord
    cases hrecord
  counted key index record later hrecord hlater _ := by
    rw [Worker.record?_congr (congrArg (BoundedMap.find? · key) heq)] at hlater
    obtain rfl := Option.some.inj (hrecord.symm.trans hlater)
    rfl

/-- A change of the worker leaves the counts as they are, unless a query has just failed. -/
lemma FailuresCounted.of_changes (hearlier : Along (Conduct setup) h)
    (hchanges : Changes setup h w) (htallied : Tallied setup h (.became w))
    (hcounted : justFailed? h = none) : FailuresCounted setup h (.became w) where
  asked := by rintro purpose root provider ⟨⟩
  tallied := htallied.failed
  kept key piece later hpiece hlater := by
    have hextends := hchanges.records_extend hearlier htallied hcounted hpiece hlater
    exact hextends.map _
  new key index record hnone hrecord := hchanges.tries_eq_zero hnone hrecord
  counted key index record later hrecord hlater _ := by
    obtain ⟨piece, hpiece, hold⟩ := Option.bind_eq_some_iff.1 hrecord
    obtain ⟨piece', hpiece', hnew⟩ := Option.bind_eq_some_iff.1 hlater
    obtain ⟨others, hothers⟩ := hchanges.records_extend hearlier htallied hcounted hpiece hpiece'
    obtain ⟨hlt, -⟩ := List.getElem?_eq_some_iff.1 hold
    rw [← hothers, List.getElem?_append_left hlt, hold] at hnew
    obtain rfl := Option.some.inj hnew
    rfl

/-- The tally of a failed query leaves the other counts as they are. -/
lemma FailuresCounted.of_tried {other : Cid} {i : Nat} {tries : UInt64}
    (htallied : Tallied setup h (.became { worker setup.config h with
      pieces := (worker setup.config h).pieces.modify other (·.setTries i tries) }))
    (hfailed : justFailed? h = some (other, i)) :
    FailuresCounted setup h (.became { worker setup.config h with
      pieces := (worker setup.config h).pieces.modify other (·.setTries i tries) }) where
  asked := by rintro purpose root provider ⟨⟩
  tallied := htallied.failed
  kept key piece later hpiece hlater := by
    have hfound : ((pieces setup h).modify other (·.setTries i tries)).find? key = some later :=
      hlater
    rw [find?_modify] at hfound
    split at hfound
    · next heq =>
      rw [← heq, hpiece] at hfound
      obtain rfl := Option.some.inj hfound
      exact (piece.deals_setTries i tries).symm ▸ List.prefix_refl _
    · rw [hpiece] at hfound
      obtain rfl := Option.some.inj hfound
      exact List.prefix_refl _
  new key index record hnone hrecord := by
    rw [worker, Worker.record?_setTries, hnone] at hrecord
    split at hrecord <;> cases hrecord
  counted key index record later hrecord hlater hne := by
    have hother : ¬ (key = other ∧ i = index) := by
      rintro ⟨rfl, rfl⟩
      exact hne hfailed
    rw [worker, Worker.record?_setTries, if_neg hother, hrecord] at hlater
    obtain rfl := Option.some.inj hlater
    rfl

/-- Proper conduct that tallies the failed queries counts them. -/
lemma FailuresCounted.of_conduct (hearlier : Along (Conduct setup) h)
    (hconduct : Conduct setup h occurrence) (htallied : Tallied setup h occurrence) :
    FailuresCounted setup h occurrence := by
  cases occurrence with
  | became w =>
    cases hfailed : justFailed? h with
    | some failed =>
      obtain ⟨other, i⟩ := failed
      cases htallied.failed other i hfailed with
      | tried hrecord htries => exact .of_tried htallied hfailed
    | none =>
      obtain hchanges | ⟨other, proposal, -, -, rfl⟩ := hconduct.changes_or_starts
      · exact .of_changes hearlier hchanges htallied hfailed
      · exact .of_eq hearlier hconduct htallied rfl
  | brokeOff =>
    refine ⟨?_, htallied.failed, ?_, ?_, ?_⟩
    · rintro purpose root provider ⟨⟩
    · rintro key piece later - ⟨⟩
    · rintro key index record - ⟨⟩
    · rintro key index record later - ⟨⟩
  | _ => exact .of_eq hearlier hconduct htallied rfl

/-- Before a deal is recorded, no query for it has failed. -/
lemma failures_eq_zero (hnone : (worker setup.config h).record? key index = none) :
    failures setup key index h = 0 := by
  cases h with
  | nil => rfl
  | cons occurrence earlier => rw [failures, hnone]

/-- No failed query waits to be counted, if not one for this deal has just failed. -/
lemma uncountedFailures_eq_zero (hne : justFailed? h ≠ some (key, index)) :
    uncountedFailures key index h = 0 :=
  if_neg hne

/-- After a change of the worker the counts are exact, if they were before. -/
lemma tries_eq_of_became {record : DealRecord}
    (hcounted : FailuresCounted setup h (.became w))
    (hexact : ∀ old, (worker setup.config h).record? key index = some old →
      old.tries.toNat + uncountedFailures key index h = failures setup key index h)
    (hrecord : w.record? key index = some record) :
    record.tries.toNat = failures setup key index h := by
  cases hold : (worker setup.config h).record? key index with
  | none =>
    rw [hcounted.new key index record hold hrecord, failures_eq_zero hold]
    rfl
  | some old =>
    rw [← hexact old hold]
    by_cases hfailed : justFailed? h = some (key, index)
    · cases hcounted.tallied key index hfailed with
      | tried hbefore htries =>
        obtain rfl := Option.some.inj (hold.symm.trans hbefore)
        rw [Worker.record?_setTries, if_pos ⟨rfl, rfl⟩, hold] at hrecord
        obtain rfl := Option.some.inj hrecord
        rw [uncountedFailures, if_pos hfailed]
        exact Retrieval.toNat_nextTry htries
    · rw [hcounted.counted key index old record hold hrecord hfailed,
        uncountedFailures_eq_zero hfailed]
      rfl

/-- The count of a record and the failed queries that wait to be counted make up the queries that
failed since the deal was recorded. -/
lemma tries_eq_failures (hconduct : Along (Conduct setup) h) (htallied : Along (Tallied setup) h)
    {record : DealRecord} (hrecord : (worker setup.config h).record? key index = some record) :
    record.tries.toNat + uncountedFailures key index h = failures setup key index h := by
  induction h generalizing record with
  | nil => cases hrecord
  | cons occurrence earlier ih =>
    obtain ⟨hoccurrence, hearlier⟩ := hconduct
    obtain ⟨htally, htallied⟩ := htallied
    -- what is not a count waits for no failed query
    have hsettled : (∀ counter, occurrence ≠ .counted counter) → occurrence ≠ .brokeOff →
        (∀ w, occurrence ≠ .became w) → uncountedFailures key index earlier = 0 := by
      intro hcounter hbroke hbecame
      refine uncountedFailures_eq_zero fun hfailed => ?_
      cases htally.failed key index hfailed with
      | counted counter => exact hcounter counter rfl
      | tried hrecord htries => exact hbecame _ rfl
      | exhausted hrecord hfull => exact hbroke rfl
    rw [failures, hrecord]
    cases occurrence with
    | became w =>
      have hcounted := FailuresCounted.of_conduct hearlier hoccurrence htally
      exact tries_eq_of_became hcounted (fun _ => ih hearlier htallied) hrecord
    | answered purpose call reply =>
      have hexact := ih hearlier htallied hrecord
      have hzero := hsettled (by rintro counter ⟨⟩) (by rintro ⟨⟩) (by rintro w ⟨⟩)
      rw [hzero] at hexact
      rw [← hexact]
      rfl
    | counted counter => exact ih hearlier htallied hrecord
    | brokeOff => cases hrecord
    | _ =>
      have hexact := ih hearlier htallied hrecord
      have hzero := hsettled (by rintro counter ⟨⟩) (by rintro ⟨⟩) (by rintro w ⟨⟩)
      rw [hzero] at hexact
      exact hexact

/-- A piece with a deal at least keeps its payload if it keeps its deals. -/
lemma Piece.payload?_eq_of_extends {piece later : Piece} (hne : piece.records ≠ [])
    (hextends : piece.deals <+: later.deals) : later.payload? = piece.payload? := by
  have hpayload : ∀ piece : Piece, piece.payload? = piece.deals.head?.map DealRecord.payload := by
    intro piece
    rw [payload?, deals, List.head?_map, Option.map_map]
    rfl
  have hdeals : piece.deals ≠ [] := fun hnil => hne (List.map_eq_nil_iff.1 hnil)
  obtain ⟨others, hothers⟩ := hextends
  rw [hpayload, hpayload, ← hothers, List.head?_append_of_ne_nil _ hdeals]

/-- A piece that stays keeps its deals. -/
lemma exists_later_deals (hconduct : Along (Conduct setup) h) (htallied : Along (Tallied setup) h)
    {earlier : History} (hstays : Stays setup key earlier h) {piece : Piece}
    (hpiece : (pieces setup earlier).find? key = some piece) :
    ∃ later, (pieces setup h).find? key = some later ∧ piece.deals <+: later.deals := by
  obtain ⟨hsuffix, hmem⟩ := hstays
  have hstart : ∀ h, earlier = h →
      ∃ later, (pieces setup h).find? key = some later ∧ piece.deals <+: later.deals := by
    rintro h rfl
    exact ⟨piece, hpiece, List.prefix_refl _⟩
  induction h with
  | nil => exact hstart [] (List.suffix_nil.1 hsuffix)
  | cons occurrence before ih =>
    rcases List.suffix_cons_iff.1 hsuffix with heq | hbefore
    · exact hstart _ heq
    · obtain ⟨hoccurrence, hconduct⟩ := hconduct
      obtain ⟨htally, htallied⟩ := htallied
      obtain ⟨middle, hmiddle, hkept⟩ := ih hconduct htallied hbefore fun between hfrom huntil =>
        hmem between hfrom (huntil.trans (List.suffix_cons _ _))
      obtain ⟨later, hlater⟩ := exists_find? (hmem _ hsuffix (List.suffix_refl _))
      have hcounted := FailuresCounted.of_conduct hconduct hoccurrence htally
      exact ⟨later, hlater, hkept.trans (hcounted.kept key middle later hmiddle hlater)⟩

/-- **Failed queries are counted exactly.**  In each life of a replicator, whatever its surroundings
supply, a query is made for a recorded deal, and if it fails it is counted right away in the record
of that deal and in no other; nothing else changes a count.  So at each moment the count of a record
is the number of queries that failed for its deal since the deal was recorded, but for one that is
just being counted.  While a piece stays in the inventory, its deals and its payload stay as they
are, and others only come after them. -/
theorem Life.failures_counted {events : List Event} {replicator : Replicator}
    (life : Life setup events replicator) :
    Along (FailuresCounted setup) (trace events) ∧
      (∀ h, h <:+ trace events → ∀ key index record,
        (worker setup.config h).record? key index = some record →
          record.tries.toNat + uncountedFailures key index h = failures setup key index h) ∧
      ∀ earlier h key, h <:+ trace events → Stays setup key earlier h →
        ∃ piece later, (pieces setup earlier).find? key = some piece ∧
          (pieces setup h).find? key = some later ∧ piece.deals <+: later.deals ∧
          later.payload? = piece.payload? := by
  have hconduct := life.conduct
  have htallied := life.tallied
  have hbefore : ∀ h, h <:+ trace events → Along (Conduct setup) h ∧ Along (Tallied setup) h := by
    rintro h ⟨later, htrace⟩
    rw [← htrace] at hconduct htallied
    exact ⟨hconduct.of_append, htallied.of_append⟩
  refine ⟨along_of_forall fun later occurrence earlier htrace => ?_, ?_, ?_⟩
  · obtain ⟨⟨hoccurrence, hearlier⟩, htally, -⟩ :=
      hbefore (occurrence :: earlier) ⟨later, htrace.symm⟩
    exact .of_conduct hearlier hoccurrence htally
  · intro h hsuffix key index record hrecord
    obtain ⟨hconduct, htallied⟩ := hbefore h hsuffix
    exact tries_eq_failures hconduct htallied hrecord
  · intro earlier h key hsuffix hstays
    obtain ⟨hconduct, htallied⟩ := hbefore h hsuffix
    obtain ⟨piece, hpiece⟩ := exists_find? (hstays.2 earlier (List.suffix_refl _) hstays.1)
    obtain ⟨later, hlater, hdeals⟩ := exists_later_deals hconduct htallied hstays hpiece
    have hne : piece.records ≠ [] := by
      obtain ⟨later, rfl⟩ := hstays.1
      exact documented_of_along hconduct.of_append key piece hpiece
    exact ⟨piece, later, hpiece, hlater, hdeals, Piece.payload?_eq_of_extends hne hdeals⟩

/-! ### Unreachable providers -/

namespace Sample

/-- A node with the deals of the crowded one that reaches no provider. -/
def unreachableNode : Surroundings Unit where
  call _ call :=
    match call with
    | .query _ _ => (.reply (.error ⟨[]⟩), ())
    | call => (.reply (.ok (crowdedAnswer false call)), ())
  release _ call := (.ok (crowdedAnswer false call), ())
  choose _ _ pos := (⟨0, pos⟩, ())

/-- A session in which the replicator is stopped and started again while no provider is reached. -/
def unreachableSession : Session Unit :=
  [.start, .stop .never, .start].foldl (Session.perform unreachableNode) (.new crowdedSetup ())

/-- The unreachable session shows a life. -/
lemma showsLife_unreachableSession : unreachableSession.ShowsLife crowdedSetup :=
  Session.showsLife_of_commands unreachableNode crowdedSetup () _

end Sample

/-- Failed queries are counted in a life in which the provider of the proved deal of a piece is
asked twice: the record of that deal counts two, and that of the unproved deal none. -/
theorem Life.failures_counted_unreachable :
    ∃ events, Life Sample.crowdedSetup events Sample.unreachableSession.replicator ∧
      failures Sample.crowdedSetup ⟨"second"⟩ 1 (trace events) = 2 ∧
      ((worker Sample.crowdedSetup.config (trace events)).pieces.find? ⟨"second"⟩).map
        (·.records.map DealRecord.tries) = some [0, 2] ∧
      Along (FailuresCounted Sample.crowdedSetup) (trace events) := by
  obtain ⟨events, life, htrace⟩ := Sample.showsLife_unreachableSession
  refine ⟨events, life, ?_, ?_, life.failures_counted.1⟩
  · rw [htrace]
    decide +kernel
  · rw [htrace]
    decide +kernel

end PieceReplication
