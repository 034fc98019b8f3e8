import PieceReplication.Proofs.Conduct.Invariant
import PieceReplication.Proofs.Retrieval.Meaning
import PieceReplication.Proofs.Run.Session

/-!
# What the retrieval phase asks

Whatever the node replies and whichever deals are chosen, the retrieval phase makes no call twice
for the same purpose, so in each of its runs the replies are a function of the call and its purpose.
It is given up only if the node does not tell whether a payload is here, and it breaks off only if
a query fails and the failed queries of its deal cannot be counted any further.  In all other runs
the meaning of the phase says which payloads are looked for, which providers are asked, and what is
pending afterwards.
-/

namespace PieceReplication

open History Activity BoundedMap

/-- Whether the node fails to tell whether a payload is here. -/
def Occurrence.isFailedProbe : Occurrence → Bool
  | .answered _ (.hasLocal _) (.error _) => true
  | _ => false

namespace Retrieval

variable {setup : Setup} {w₀ w w' : Worker} {h h' : History} {key : Cid} {rest : List Cid}
  {index : Nat} {record : DealRecord}

/-! ## No call is made twice -/

/-- Whether the query to the provider of some deal has failed, and the failed queries of that deal
cannot be counted any further. -/
def Exhausts (w : Worker) (h : History) : Prop :=
  ∃ key index record failure, w.record? key index = some record ∧
    record.tries.toNat + 1 = UInt64.size ∧
    .answered (.retrievalScan key index) (.query record.root record.provider) (.error failure) ∈ h

/-- The contract that no call is made twice for the same purpose, and that the phase breaks off only
after a failed query of a deal whose failed queries cannot be counted any further. -/
def querying (w : Worker) : Contract where
  rely _ _ := True
  guarantee h occurrence :=
    match occurrence with
    | .called purpose call => (purpose, call) ∉ h.answers
    | .brokeOff => Exhausts w h
    | _ => True

/-- In a sweep, with some keys left: nothing was asked for them, nothing was asked that a scan asks,
and no piece was changed. -/
structure Presweep (w₀ : Worker) (rest : List Cid) (w : Worker) (h : History) : Prop where
  nodup : rest.Nodup
  new : ∀ key ∈ rest, h.Untouched (.retrievalSweep key)
  scanNew : ∀ key index, h.Untouched (.retrievalScan key index)
  find?_eq : ∀ key, w.pieces.find? key = w₀.pieces.find? key

/-- In a scan, with some keys left: nothing was asked for them, and their pieces were not
changed. -/
structure Asking (w₀ : Worker) (rest : List Cid) (w : Worker) (h : History) : Prop where
  nodup : rest.Nodup
  new : ∀ key ∈ rest, ∀ index, h.Untouched (.retrievalScan key index)
  find?_eq : ∀ key ∈ rest, w.pieces.find? key = w₀.pieces.find? key

/-- Why the phase is given up: the node did not tell whether a payload is here. -/
def ErrorDue (_ : PhaseError) (_ : Worker) (h : History) : Prop :=
  ∃ occurrence ∈ h, occurrence.isFailedProbe = true

/-- The review of a pending retrieval. -/
lemma meets_sweepKey_querying (key : Cid) (rest : List Cid) (w : Worker) (h : History)
    (hs : Presweep w₀ (key :: rest) w h) :
    Meets (querying w₀) (sweepKey key) w h (fun _ => Presweep w₀ rest) ErrorDue := by
  obtain ⟨hnodup, hnew, hscan, hfind⟩ := hs
  obtain ⟨hkey, hnodup⟩ := List.nodup_cons.1 hnodup
  obtain ⟨hkeyNew, hrestNew⟩ := List.forall_mem_cons.1 hnew
  have htouched : ∀ other, (w.pieces.touch key).find? other = w₀.pieces.find? other := fun other =>
    find?_touch.trans (hfind other)
  simp only [sweepKey, findPiece, dropRetrieval, meets_bind, meets_get, meets_update, meets_pure]
  refine ⟨trivial, ?_⟩
  split
  · exact meets_update.2 ⟨trivial, hnodup, hrestNew, hscan, htouched⟩
  · next payload hpayload =>
    rw [meets_bind]
    refine meets_request.2 ⟨hkeyNew _, fun isLocal _ => ?_, fun failure _ => ?_⟩
    · have hreviewed : ∀ other ∈ rest, Untouched
          (.answered (.retrievalSweep key) (.hasLocal payload.root) (.ok isLocal) :: h)
          (.retrievalSweep other) := by
        intro other hother
        refine (hrestNew other hother).answered ?_
        rintro ⟨⟩
        exact hkey hother
      have hscanned : ∀ other index, Untouched
          (.answered (.retrievalSweep key) (.hasLocal payload.root) (.ok isLocal) :: h)
          (.retrievalScan other index) := fun other index =>
        (hscan other index).answered (by rintro ⟨⟩)
      split
      · exact meets_update.2 ⟨trivial, hnodup, hreviewed, hscanned, htouched⟩
      · exact meets_pure.2 ⟨hnodup, hreviewed, hscanned, htouched⟩
    · exact ⟨_, List.mem_cons_self, rfl⟩

/-- Whether a call is made for a try of a deal of a piece. -/
def IsTryOf (key : Cid) (purpose : Purpose) : Prop :=
  ∃ index, purpose = .retrievalScan key index

/-- The visit of a piece asks nothing for the pieces that are left, and leaves them as they are. -/
lemma Asking.visited (hs : Asking w₀ (key :: rest) w h)
    (hanswers : AnsweredFor (IsTryOf key) h h')
    (hfind : ∀ other, other ≠ key → w'.pieces.find? other = w.pieces.find? other) :
    Asking w₀ rest w' h' := by
  obtain ⟨hnodup, hnew, hsame⟩ := hs
  obtain ⟨hkey, hnodup⟩ := List.nodup_cons.1 hnodup
  refine ⟨hnodup, fun other hother i => ?_, fun other hother => ?_⟩
  · refine (hnew other (List.mem_cons_of_mem _ hother) i).of_answeredFor hanswers ?_
    rintro ⟨_, hself⟩
    obtain ⟨rfl, -⟩ := Purpose.retrievalScan.inj hself
    exact hkey hother
  · have hne : other ≠ key := fun heq => hkey (heq ▸ hother)
    rw [hfind other hne, hsame other (List.mem_cons_of_mem _ hother)]

/-- What asks nothing and changes no piece leaves the scan where it is. -/
lemma Asking.same {left : List Cid} (hs : Asking w₀ left w h) (hanswers : h'.answers = h.answers)
    (hfind : ∀ other, w'.pieces.find? other = w.pieces.find? other) : Asking w₀ left w' h' := by
  refine ⟨hs.nodup, fun key hkey i call => ?_, fun key hkey => ?_⟩
  · rw [hanswers]
    exact hs.new key hkey i call
  · rw [hfind, hs.find?_eq key hkey]

/-- The count of a failed query breaks off only if it is at its end. -/
lemma eq_of_nextTry {tries : UInt64} {cause : Overflow} (hnext : nextTry tries = .error cause) :
    tries.toNat + 1 = UInt64.size := by
  rw [nextTry] at hnext
  split at hnext
  · cases hnext
  · next hfits =>
    have hlt : tries.toNat < UInt64.size := tries.toNat_lt
    omega

/-- The rule of looks at the cap. -/
lemma meets_isFull_querying {post : Bool → Worker → History → Prop}
    {given : PhaseError → Worker → History → Prop}
    (hpost : ∀ isFull h', h'.answers = h.answers → post isFull w h') :
    Meets (querying w₀) (isFull setup) w h post given :=
  meets_isFull trivial (fun _ => hpost true _ rfl) fun _ => hpost false _ rfl

/-- The rule of the choice of a deal. -/
lemma meets_chooseRecord_querying {piece : Piece}
    {post : Option (Fin piece.records.length) → Worker → History → Prop}
    {given : PhaseError → Worker → History → Prop}
    (hpost : ∀ index? h', h'.answers = h.answers → post index? w h') :
    Meets (querying w₀) (chooseRecord setup piece) w h post given := by
  refine meets_chooseRecord_of_reported (fun _ => trivial) (fun _ => hpost none h rfl)
    fun h' hreported choice _ => ?_
  rcases hreported with rfl | ⟨event, rfl⟩
  · exact ⟨trivial, hpost _ _ rfl⟩
  · exact ⟨trivial, hpost _ _ rfl⟩

/-- The count of a failed query changes no other piece. -/
lemma meets_takeFailure_querying (hs : Asking w₀ (key :: rest) w h)
    (hrecord : w₀.record? key index = some record) (hanswers : AnsweredFor (IsTryOf key) h h')
    {failure : Failure} (hfailed : .answered (.retrievalScan key index)
      (.query record.root record.provider) (.error failure) ∈ h') :
    Meets (querying w₀) (takeFailure setup key index record failure) w h' (fun _ => Asking w₀ rest)
      ErrorDue := by
  simp only [takeFailure, meets_bind, meets_count, meets_checked, meets_update, meets_log]
  refine ⟨trivial, fun tries _ => ⟨trivial, trivial, ?_⟩, fun cause hcause =>
    ⟨key, index, record, failure, hrecord, eq_of_nextTry hcause, List.mem_cons_of_mem _ hfailed⟩⟩
  have hcounted : ∀ other, other ≠ key →
      (w.pieces.modify key (·.setTries index tries)).find? other = w.pieces.find? other := by
    intro other hne
    rw [find?_modify, if_neg hne]
  split
  · exact meets_log.2 ⟨trivial, hs.visited hanswers hcounted⟩
  · exact meets_pure.2 (hs.visited hanswers hcounted)

/-- The try of the chosen deal of a piece. -/
lemma meets_tryRecord_querying (hs : Asking w₀ (key :: rest) w h)
    (hrecord : w₀.record? key index = some record) :
    Meets (querying w₀) (tryRecord setup key index record) w h (fun _ => Asking w₀ rest)
      ErrorDue := by
  have hnew : ∀ call, (.retrievalScan key index, call) ∉ h.answers :=
    hs.new key List.mem_cons_self index
  have hsame : ∀ other, other ≠ key → w.pieces.find? other = w.pieces.find? other :=
    fun _ _ => rfl
  simp only [tryRecord, isPending, dropRetrieval, meets_bind]
  refine meets_request.2 ⟨hnew _, fun isLocal _ => ?_, fun failure _ => ?_⟩
  · have hprobed : AnsweredFor (IsTryOf key) h
        (.answered (.retrievalScan key index) (.hasLocal record.root) (.ok isLocal) :: h) :=
      AnsweredFor.refl.answered ⟨index, rfl⟩
    cases isLocal with
    | true =>
      simp only [↓reduceIte, meets_bind, meets_update, meets_pure]
      exact ⟨trivial, hs.visited hprobed hsame⟩
    | false =>
      simp only [Bool.false_eq_true, ↓reduceIte, meets_bind, meets_get, meets_pure]
      split
      · exact meets_pure.2 (hs.visited hprobed hsame)
      · rw [meets_bind, meets_attempt]
        refine ⟨List.not_mem_cons_of_ne_of_not_mem (by rintro ⟨⟩) (hnew _), fun reply _ => ?_⟩
        have hqueried : AnsweredFor (IsTryOf key) h
            (.answered (.retrievalScan key index) (.query record.root record.provider) reply ::
              .answered (.retrievalScan key index) (.hasLocal record.root) (.ok false) :: h) :=
          hprobed.answered ⟨index, rfl⟩
        cases reply with
        | ok response =>
          simp only [takeResponse, dropRetrieval, meets_bind, meets_log]
          refine ⟨trivial, ?_⟩
          split
          · refine meets_update.2 ⟨trivial, meets_isFull_querying fun isFull h' hlater => ?_⟩
            exact hs.visited (hqueried.of_answers_eq hlater) hsame
          · refine meets_update.2 ⟨trivial, meets_isFull_querying fun isFull h' hlater => ?_⟩
            exact hs.visited (hqueried.of_answers_eq hlater) hsame
        | error failure =>
          simp only [meets_bind, meets_pure]
          refine meets_takeFailure_querying hs hrecord ?_ (List.mem_cons_self ..)
          exact hqueried
  · exact ⟨_, List.mem_cons_self, rfl⟩

/-- The visit of a piece. -/
lemma meets_visit_querying (hs : Asking w₀ (key :: rest) w h) :
    Meets (querying w₀) (visit setup key) w h (fun _ => Asking w₀ rest) ErrorDue := by
  have hfound : w.pieces.find? key = w₀.pieces.find? key := hs.find?_eq key List.mem_cons_self
  have hused : ∀ h', h'.answers = h.answers →
      Asking w₀ (key :: rest) { w with pieces := w.pieces.touch key } h' := fun h' hanswers =>
    hs.same hanswers fun _ => find?_touch
  have hpassed : ∀ h', h'.answers = h.answers →
      Asking w₀ rest { w with pieces := w.pieces.touch key } h' := fun h' hanswers =>
    (hused h' hanswers).visited (fun _ => .inl) fun _ _ => rfl
  simp only [visit, findPiece, meets_bind, meets_get, meets_update, meets_pure]
  refine ⟨trivial, ?_⟩
  split
  · next piece hpiece =>
    rw [meets_bind]
    refine meets_chooseRecord_querying fun index? h' hanswers => ?_
    split
    · next index =>
      refine meets_tryRecord_querying (hused h' hanswers) ?_
      rw [Worker.record?, ← hfound, hpiece, Option.bind_some]
      exact List.getElem?_eq_getElem index.isLt
    · exact meets_pure.2 (hpassed h' hanswers)
  · exact meets_pure.2 (hpassed _ rfl)

/-- A scan of pieces. -/
lemma meets_scan_querying (keys : List Cid) (hs : Asking w₀ keys w h) :
    Meets (querying w₀) (scan setup keys) w h (fun _ _ _ => True) ErrorDue := by
  induction keys generalizing w h with
  | nil => trivial
  | cons key rest ih =>
    rw [scan, meets_bind]
    refine (meets_visit_querying hs).mono (fun isFull w' h' hvisited => ?_) fun _ _ _ => id
    cases isFull with
    | true => trivial
    | false => exact ih hvisited

/-- The retrieval phase makes each call once. -/
lemma meets_run_querying (setup : Setup) (w : Worker) :
    Meets (querying w) (run setup) w [] (fun _ _ _ => True) ErrorDue := by
  simp only [run, meets_bind, meets_get, meets_enter]
  have hbefore : Presweep w w.retrievals.keys w [.entered .retrievalSweep] := by
    refine ⟨w.retrievals.nodup_keys, fun key _ call => ?_, fun key index call => ?_, fun _ => rfl⟩
    · exact List.not_mem_nil
    · exact List.not_mem_nil
  refine ⟨trivial, (meets_forM (Presweep w) meets_sweepKey_querying hbefore).mono
    (fun _ w' h' hs => ?_) fun _ _ _ => id⟩
  refine meets_isFull_querying fun isFull h₂ hanswers => ?_
  cases isFull with
  | true => trivial
  | false =>
    simp only [Bool.false_eq_true, ↓reduceIte, meets_bind, meets_get, meets_enter]
    have hscanNew : ∀ key index, Untouched (.entered .retrievalScan :: h₂)
        (.retrievalScan key index) := by
      intro key index call hmem
      have hbefore : (.retrievalScan key index, call) ∈ h'.answers := hanswers ▸ hmem
      exact hs.scanNew key index call hbefore
    exact ⟨trivial, meets_scan_querying _ ⟨w'.pieces.nodup_keys, fun key _ => hscanNew key,
      fun key _ => hs.find?_eq key⟩⟩

variable {σ : Type} {surroundings : Surroundings σ} {isStopping : Bool} {state : σ}

/-- In each run of the retrieval phase the replies are a function of the call and its purpose. -/
lemma exists_repliedBy_run (surroundings : Surroundings σ) (isStopping : Bool) (state : σ)
    (setup : Setup) (w : Worker) :
    ∃ node, RepliedBy node ((run setup).execute surroundings isStopping state w).trace := by
  refine exists_repliedBy (Program.Meets.along_execute (meets_run_querying setup w)
    (fun _ _ => trivial) ?_ (fun _ _ _ _ => id) (fun _ => trivial) state trivial)
  intro h occurrence hreply hguarantee
  cases occurrence with
  | called purpose call => exact hguarantee
  | answered purpose call reply => cases hreply
  | _ => trivial

/-! ## What is asked -/

/-- **What the retrieval phase asks.**  If each call is replied to, the phase ends, unless it breaks
off because a query failed and the failed queries of its deal cannot be counted any further, and its
replies are those of some replier.  For any such, suppose that the node tells of each payload
whether it is here, so that the sweep comes to its end, and that it leaves no more retrievals than
the cap allows.  Then the phase is not given up.  It is a walk that visits the inventory in its
order, with a deal chosen for each piece, until more retrievals are pending than the cap allows: its
calls, the retrievals that are pending afterwards and what is left of the pieces are those of its
steps.  No piece is dropped, and no deal and no epoch is touched. -/
theorem run_asks (surroundings : Surroundings σ) (hreplies : surroundings.Replies)
    (isStopping : Bool) (state : σ) (hbounded : w.Bounded setup) :
    let progress := (run setup).execute surroundings isStopping state w
    (∃ node, RepliedBy node progress.trace) ∧
      ((∃ result w', progress.halt = .done (result, w') ∧
        ∀ node, RepliedBy node progress.trace →
          (∀ occurrence ∈ progress.trace, occurrence.isFailedProbe = false) →
          (swept node w).retrievals.size ≤ setup.config.retrieveParallel.toNat →
          result = .ok () ∧
            (∃ pick visited,
              StopsAt (fun part => Enough node setup (swept node w) (walkOf pick part))
                (swept node w).pieces.keys visited ∧
              Walked node (walkOf pick visited) (swept node w) [] w' progress.trace) ∧
            (∀ key, key ∈ w'.pieces.keys ↔ key ∈ w.pieces.keys) ∧ w'.deals = w.deals ∧
            w'.cursor = w.cursor) ∨
        progress.halt = .broken ∧ Exhausts w progress.trace) := by
  intro progress
  refine ⟨exists_repliedBy_run surroundings isStopping state setup w, ?_⟩
  have hends : (∃ result, progress.halt = .done result ∧ _) ∨
      (progress.halt = .broken ∧
        ∃ h, progress.trace = .brokeOff :: h ∧ (querying w).guarantee h .brokeOff) :=
    Program.Meets.halts (meets_run_querying setup w) (fun _ _ => trivial) hreplies state
  rcases hends with ⟨⟨result, w'⟩, hdone, hpost⟩ | ⟨hbroken, h, htrace, hexhausts⟩
  · refine .inl ⟨result, w', hdone, fun node hnode htold hfew => ?_⟩
    have hmeaning : Meets (replying node) (run setup) w [] (fun _ => Completes node setup w)
        fun _ _ _ => True :=
      meets_run_replying (hbounded.retrievals.trans hbounded.pieces.symm) ⟨rfl, rfl⟩
    cases result with
    | ok value =>
      cases hmeaning.post_of_repliedBy hdone hnode with
      | crowded hcrowded => exact absurd (of_decide_eq_true hcrowded) (Nat.not_lt.2 hfew)
      | scanned hends =>
        obtain ⟨pick, visited, hstops, hwalked⟩ := hends
        refine ⟨rfl, ⟨pick, visited, hstops, hwalked⟩, fun key => ?_, hwalked.deals,
          hwalked.cursor⟩
        rw [hwalked.mem_keys_iff, ← find?_isSome_iff, ← find?_isSome_iff, swept, sweptTo,
          find?_foldl_touch]
    | error error =>
      obtain ⟨occurrence, hmem, hfailed⟩ := hpost
      rw [htold occurrence hmem] at hfailed
      cases hfailed
  · obtain ⟨key, index, record, failure, hrecord, htries, hfailed⟩ := hexhausts
    have hmem := List.mem_cons_of_mem .brokeOff hfailed
    exact .inr ⟨hbroken, key, index, record, failure, hrecord, htries, htrace ▸ hmem⟩

end Retrieval

namespace Sample

/-- A setup with room for eight pieces and a cap of two on the retrievals. -/
def queryingSetup : Setup where
  miner := ⟨"local"⟩
  config := { inventoryCapacity := capacity, retrieveParallel := 2 }
  seed := none

/-- A worker that knows some pieces and waits for some retrievals. -/
def queryingWorker (pieces pending : List Cid) : Worker where
  cursor := 0
  pieces := inventory queryingSetup.config.inventoryCapacity pieces
  retrievals := pending.foldl (fun m key => m.insert key ⟨.unavailable, "", 0⟩)
    (.empty queryingSetup.config.inventoryCapacity)
  deals := .empty queryingSetup.config.inventoryCapacity

/-- The replies of a node to which the names of payloads tell whether they are here and what their
providers reply. -/
def queryingReply : (call : Call) → Reply call
  | .hasLocal root => .ok (root = ⟨"here"⟩)
  | .query root _ =>
    if root = ⟨"lost"⟩ then .error ⟨["lost"]⟩
    else .ok ⟨if root = ⟨"served"⟩ then .success else .unavailable, "", 0⟩
  | call => .ok (answer [] call)

/-- A worker that knows two pieces and waits for no retrieval.  The failed queries of the deal of
the first piece cannot be counted any further. -/
def exhaustedWorker : Worker :=
  let w := queryingWorker [⟨"lost"⟩, ⟨"first"⟩] []
  let counted := w.pieces.modify ⟨"lost"⟩ (·.setTries 0 18446744073709551615)
  { w with pieces := counted.touch ⟨"first"⟩ }

/-- A node that breaks the driver off in each query, and else replies as before. -/
def breaking : Surroundings Unit where
  call
    | _, .query _ _ => (.panic "lost", ())
    | _, call => (.reply (queryingReply call), ())
  release _ call := (queryingReply call, ())
  choose _ _ pos := (⟨0, pos⟩, ())

end Sample

namespace Retrieval

/-- A sample worker waits for one retrieval and may wait for two.  It asks no provider for a piece
that is here, asks one in vain and one that serves, and waits for the next two.  One piece is not
visited, and neither is the one that was pending, since it was used in the sweep. -/
theorem run_asks_crowding :
    let w := Sample.queryingWorker [⟨"pending"⟩, ⟨"here"⟩, ⟨"lost"⟩, ⟨"served"⟩, ⟨"first"⟩,
      ⟨"second"⟩, ⟨"third"⟩] [⟨"pending"⟩]
    let node : Replier := fun _ => Sample.queryingReply
    let progress := (run Sample.queryingSetup).execute (.replying Sample.queryingReply) false () w
    ∃ w' pick visited, progress.halt = .done (.ok (), w') ∧
      StopsAt (fun part => Enough node Sample.queryingSetup (swept node w) (walkOf pick part))
        (swept node w).pieces.keys visited ∧
      Walked node (walkOf pick visited) (swept node w) [] w' progress.trace ∧
      (probes progress.trace).map Prod.snd = .hasLocal ⟨"here"⟩ ::
        [⟨"lost"⟩, ⟨"served"⟩, ⟨"first"⟩, ⟨"second"⟩].flatMap fun piece =>
          [.hasLocal piece, .query piece ⟨"provider"⟩] := by
  intro w node progress
  obtain ⟨-, hends⟩ := run_asks (w := w) (.replying Sample.queryingReply)
    (Surroundings.replies_replying _) false () ⟨rfl, rfl, rfl⟩
  have hresult : progress.result?.isSome := by decide +kernel
  have hnode : RepliedBy node progress.trace :=
    Program.repliedBy_execute (Surroundings.answersBy_replying _) _ () (by rintro _ _ _ ⟨⟩)
  have htold : ∀ occurrence ∈ progress.trace, occurrence.isFailedProbe = false := by
    decide +kernel
  have hfew : (swept node w).retrievals.size ≤
      Sample.queryingSetup.config.retrieveParallel.toNat := by decide +kernel
  rcases hends with ⟨result, w', hdone, hasks⟩ | ⟨hbroken, -⟩
  · obtain ⟨rfl, ⟨pick, visited, hstops, hwalked⟩, -⟩ := hasks node hnode htold hfew
    exact ⟨w', pick, visited, hdone, hstops, hwalked, by decide +kernel⟩
  · -- the run has a result
    obtain ⟨result, hsome⟩ := Option.isSome_iff_exists.1 hresult
    have hdone := Progress.halt_of_result? hsome
    rw [hbroken] at hdone
    cases hdone

/-- A sample worker waits for no retrieval and knows two pieces, and the node tells of neither that
it is here.  The worker asks about the first piece and never about the second: the query fails and
cannot be counted any further, or the node breaks the driver off in it. -/
theorem run_asks_exhausted :
    let w := Sample.exhaustedWorker
    w.Bounded Sample.queryingSetup ∧ w.retrievals.size = 0 ∧
      w.pieces.keys = [⟨"lost"⟩, ⟨"first"⟩] ∧
      (w.record? ⟨"lost"⟩ 0).map DealRecord.tries = some 18446744073709551615 ∧
      (w.record? ⟨"first"⟩ 0).map DealRecord.isRetrievable = some true ∧
      (∀ key ∈ w.pieces.keys, Sample.queryingReply (.hasLocal key) = .ok false) ∧
      ∀ surroundings ∈ [Surroundings.replying Sample.queryingReply, Sample.breaking],
        let progress := (run Sample.queryingSetup).execute surroundings false () w
        progress.halt = .broken ∧
        (∀ occurrence ∈ progress.trace, occurrence.isFailedProbe = false) ∧
        (probes progress.trace).map Prod.snd =
          [.hasLocal ⟨"lost"⟩, .query ⟨"lost"⟩ ⟨"provider"⟩] := by
  refine ⟨⟨rfl, rfl, rfl⟩, rfl, by decide +kernel, by decide +kernel, by decide +kernel, ?_, ?_⟩
  · decide +kernel
  · intro surroundings hmem
    simp only [List.mem_cons, List.not_mem_nil, or_false] at hmem
    rcases hmem with rfl | rfl
    · exact ⟨rfl, by decide +kernel, by decide +kernel⟩
    · exact ⟨rfl, by decide +kernel, by decide +kernel⟩

end Retrieval

end PieceReplication
