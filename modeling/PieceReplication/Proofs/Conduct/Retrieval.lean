import PieceReplication.Proofs.Conduct.Basic

/-!
# The conduct of the retrieval phase

The sweep forgets the retrievals whose payload is here or whose piece is gone, so that each one that
is still pending is one of an inventory piece.  The scan keeps this.  It asks a provider only for a
piece without a pending retrieval, while no more are pending than the cap allows, and right after it
learnt that the payload of the chosen deal is not here.
-/

namespace PieceReplication.Retrieval

open History Activity BoundedMap

variable {setup : Setup} {w : Worker} {h : History} {key : Cid}

/-- In the sweep, with some keys left: the other retrievals were reviewed, and their pieces are in
the inventory. -/
structure Sweeping (setup : Setup) (rest : List Cid) (w : Worker) (h : History) : Prop where
  settled : Settled setup w h
  part : part? h = some .retrievalSweep
  nodup : rest.Nodup
  pending : ∀ key ∈ rest, key ∈ w.retrievals.keys
  new : ∀ key ∈ rest, key ∉ reviewed h
  left : ∀ key ∈ w.retrievals.keys, key ∈ rest ∨ key ∈ reviewed h ∧ key ∈ w.pieces.keys

/-- In the scan: each pending retrieval is one of an inventory piece, and no more are pending than
the cap allows. -/
structure Scanning (setup : Setup) (w : Worker) (h : History) : Prop where
  settled : Settled setup w h
  part : part? h = some .retrievalScan
  within : ∀ key ∈ w.retrievals.keys, key ∈ w.pieces.keys
  size_le : w.retrievals.size ≤ setup.config.retrieveParallel.toNat

/-! ## The sweep -/

/-- The review of a pending retrieval conducts itself properly. -/
lemma meets_sweepKey (key : Cid) (rest : List Cid) (w : Worker) (h : History)
    (hs : Sweeping setup (key :: rest) w h) :
    Meets (conduct setup) (sweepKey key) w h (fun _ => Sweeping setup rest)
      fun _ => Settled setup := by
  obtain ⟨hset, hpart, hnodup, hpending, hnew, hleft⟩ := hs
  obtain rfl := hset.worker_eq
  obtain ⟨hkey, hnodup⟩ := List.nodup_cons.1 hnodup
  obtain ⟨hkeyNew, hrestNew⟩ := List.forall_mem_cons.1 hnew
  obtain ⟨hkeyPending, hrestPending⟩ := List.forall_mem_cons.1 hpending
  have htouched := hset.became { worker setup.config h with
    pieces := (worker setup.config h).pieces.touch key } capacity_touch rfl rfl
  -- what is known of the other retrievals once the one under the key is reviewed
  have hothers : ∀ other ∈ (worker setup.config h).retrievals.keys, other ≠ key →
      other ∈ rest ∨ other ∈ reviewed h ∧ other ∈ (worker setup.config h).pieces.keys := by
    intro other hother hne
    rcases hleft other hother with hrest | hreviewed
    · exact .inl ((List.mem_cons.1 hrest).resolve_left hne)
    · exact .inr hreviewed
  have hrestNe : ∀ other ∈ rest, other ≠ key := fun other hother heq => hkey (heq ▸ hother)
  have hrestNew' : ∀ other ∈ rest, other ∉ key :: reviewed h := fun other hother =>
    List.not_mem_cons_of_ne_of_not_mem (hrestNe other hother) (hrestNew other hother)
  have hrestErased : ∀ other ∈ rest,
      other ∈ ((worker setup.config h).retrievals.erase key).keys := fun other hother =>
    mem_keys_erase.2 ⟨hrestNe other hother, hrestPending other hother⟩
  simp only [sweepKey, findPiece, dropRetrieval, meets_bind, meets_get, meets_update, meets_pure]
  refine ⟨hset.conduct_became (.touchPiece key hpart (.inl rfl)), ?_⟩
  have hpayload : Worker.payload? { worker setup.config h with
      pieces := (worker setup.config h).pieces.touch key } key =
      ((worker setup.config h).pieces.find? key).bind Piece.payload? := by
    rw [Worker.payload?, find?_touch]
  split
  · next hnone =>
    refine meets_update.2 ⟨htouched.conduct_became (.forget (.gone hpart (hpayload.trans hnone))),
      htouched.became _ rfl rfl rfl, hpart, hnodup, hrestErased, hrestNew, fun other hother => ?_⟩
    rw [mem_keys_erase] at hother
    exact (hothers other hother.2 hother.1).imp_right fun hreviewed =>
      ⟨hreviewed.1, mem_keys_touch.2 hreviewed.2⟩
  · next payload hsome =>
    have hmem : key ∈ (worker setup.config h).pieces.keys := Worker.mem_keys_of_payload? hsome
    rw [meets_bind]
    refine meets_request.2 ⟨htouched.conduct_called
      (.sweepRetrieval hpart (hpayload.trans hsome) hkeyPending hkeyNew), fun isLocal _ => ?_,
      fun failure _ => htouched.failed _ _ _⟩
    have hanswered := htouched.answered (.retrievalSweep key) (.hasLocal payload.root)
      (.ok isLocal) rfl rfl
    have hkept : ∀ other ∈ (worker setup.config h).retrievals.keys, other ≠ key →
        other ∈ rest ∨ other ∈ key :: reviewed h ∧
          other ∈ ((worker setup.config h).pieces.touch key).keys := fun other hother hne =>
      (hothers other hother hne).imp_right fun hreviewed =>
        ⟨List.mem_cons_of_mem _ hreviewed.1, mem_keys_touch.2 hreviewed.2⟩
    cases isLocal with
    | true =>
      refine meets_update.2 ⟨hanswered.conduct_became
        (.forget (.swept hpart (hpayload.trans hsome) rfl)), hanswered.became _ rfl rfl rfl, hpart,
        hnodup, hrestErased, hrestNew', fun other hother => ?_⟩
      rw [mem_keys_erase] at hother
      exact hkept other hother.2 hother.1
    | false =>
      refine meets_pure.2 ⟨hanswered, hpart, hnodup, hrestPending, hrestNew',
        fun other hother => ?_⟩
      by_cases hne : other = key
      · subst hne
        exact .inr ⟨List.mem_cons_self, mem_keys_touch.2 hmem⟩
      · exact hkept other hother hne

/-! ## The scan -/

/-- A call of the scan and its reply keep the bounds of the scan. -/
lemma Scanning.answered (hs : Scanning setup w h) (purpose : Purpose) (call : Call)
    (reply : Reply call) (hreply : startOf? purpose call reply = none)
    (hcall : opens? call = none) :
    Scanning setup w (.answered purpose call reply :: .called purpose call :: h) :=
  ⟨hs.settled.answered _ _ _ hreply hcall, hs.part, hs.within, hs.size_le⟩

/-- A report keeps the bounds of the scan. -/
lemma Scanning.logged (hs : Scanning setup w h) (event : LogEvent) :
    Scanning setup w (.logged event :: h) :=
  ⟨hs.settled.logged event, hs.part, hs.within, hs.size_le⟩

/-- A use of a piece keeps the bounds of the scan. -/
lemma Scanning.modified (hs : Scanning setup w h) (key : Cid) (f : Piece → Piece) :
    Scanning setup { w with pieces := w.pieces.modify key f }
      (.became { w with pieces := w.pieces.modify key f } :: h) := by
  refine ⟨hs.settled.became _ capacity_modify rfl rfl, hs.part, fun other hother => ?_, hs.size_le⟩
  exact mem_keys_modify.2 (hs.within other hother)

/-- The end of the wait for a retrieval keeps the bounds of the scan. -/
lemma Scanning.forgot (hs : Scanning setup w h) (key : Cid) :
    Scanning setup { w with retrievals := w.retrievals.erase key }
      (.became { w with retrievals := w.retrievals.erase key } :: h) := by
  refine ⟨hs.settled.became _ rfl rfl rfl, hs.part, fun other hother => ?_, ?_⟩
  · exact hs.within other (mem_keys_erase.1 hother).2
  · exact Nat.le_trans (length_others_le _ _) hs.size_le

/-- The rule of looks at the cap, for any contract. -/
lemma meets_isFull {c : Contract} {post : Bool → Worker → History → Prop}
    {given : PhaseError → Worker → History → Prop}
    (hlogged : c.guarantee h (.logged (.retrievalsFull w.retrievals.size)))
    (hfull : setup.config.retrieveParallel.toNat < w.retrievals.size →
      post true w (.logged (.retrievalsFull w.retrievals.size) :: h))
    (hroom : w.retrievals.size ≤ setup.config.retrieveParallel.toNat → post false w h) :
    Meets c (isFull setup) w h post given := by
  simp only [isFull, meets_bind, meets_get]
  split
  · next hsize =>
    simp only [meets_bind, meets_log, meets_pure]
    exact ⟨hlogged, hfull hsize⟩
  · next hsize => exact meets_pure.2 (hroom (Nat.le_of_not_lt hsize))

/-- The rule of the choice of a deal, for any contract.  How the choice is seeded may be reported
before it. -/
lemma meets_chooseRecord_of_reported {c : Contract} {piece : Piece}
    {post : Option (Fin piece.records.length) → Worker → History → Prop}
    {given : PhaseError → Worker → History → Prop}
    (hlogged : ∀ event, c.guarantee h (.logged event))
    (hnone : piece.retrievable = [] → post none w h)
    (hsome : ∀ h', h' = h ∨ (∃ event, h' = .logged event :: h) →
      ∀ choice : Fin piece.retrievable.length, c.rely h' (.chose _ choice) →
        c.guarantee h' (.chose _ choice) ∧
          post (some (piece.retrievable.get choice)) w (.chose _ choice :: h')) :
    Meets c (chooseRecord setup piece) w h post given := by
  rw [chooseRecord]
  split
  · simp only [reportSeed, meets_bind, meets_pure]
    split
    · exact meets_pure.2 (hsome h (.inl rfl))
    · split
      · exact meets_log.2 ⟨hlogged _, hsome _ (.inr ⟨_, rfl⟩)⟩
      · exact meets_log.2 ⟨hlogged _, hsome _ (.inr ⟨_, rfl⟩)⟩
  · next hpos =>
    have hempty : piece.retrievable = [] :=
      List.eq_nil_of_length_eq_zero (Nat.eq_zero_of_not_pos hpos)
    exact meets_pure.2 (hnone hempty)

/-- The choice of a deal conducts itself properly, and the deal can be retrieved. -/
lemma meets_chooseRecord (hs : Scanning setup w h) {piece : Piece}
    (hpiece : w.pieces.find? key = some piece) :
    Meets (conduct setup) (chooseRecord setup piece) w h
      (fun index? w' h' => w' = w ∧ Scanning setup w h' ∧ ∀ index, index? = some index →
        (piece.records.get index).isRetrievable ∧ Chosen h' w key index)
      fun _ => Settled setup := by
  refine meets_chooseRecord_of_reported (fun _ => trivial) (fun _ => ⟨rfl, hs, ?_⟩)
    fun h' hreported choice _ => ?_
  · rintro index ⟨⟩
  · have hs' : Scanning setup w h' := by
      rcases hreported with rfl | ⟨event, rfl⟩
      · exact hs
      · exact hs.logged event
    refine ⟨hs'.settled.justStarted?_eq, rfl,
      ⟨hs'.settled.chose choice, hs'.part, hs'.within, hs'.size_le⟩, ?_⟩
    rintro index ⟨rfl⟩
    refine ⟨(List.mem_filter.1 (List.getElem_mem choice.isLt)).2, ?_⟩
    exact ⟨piece, choice, hpiece, rfl, rfl⟩

/-- The count of a failed query conducts itself properly. -/
lemma meets_takeFailure (hs : Scanning setup w h) {index : Nat} {record : DealRecord}
    (hrecord : w.record? key index = some record) {failure : Failure}
    (hreply : lastReply? h = some ⟨.retrievalScan key index,
      .query record.root record.provider, .error failure⟩) :
    Meets (conduct setup) (takeFailure setup key index record failure) w h
      (fun _ => Scanning setup) fun _ => Settled setup := by
  obtain rfl := hs.settled.worker_eq
  have hcounted : Scanning setup (worker setup.config h) (.counted .retrievalQueryFailures :: h) :=
    ⟨hs.settled.counted _, hs.part, hs.within, hs.size_le⟩
  simp only [takeFailure, meets_bind, meets_count, meets_checked, meets_update, meets_log]
  refine ⟨trivial, fun tries htries => ?_,
    fun cause _ => ⟨hcounted.settled.justStarted?_eq, .tries hs.part hreply⟩⟩
  refine ⟨hcounted.settled.conduct_became (.countTry hs.part hrecord hreply htries), trivial, ?_⟩
  have hcountedTry := (hcounted.modified key (·.setTries index tries)).logged
    (.queryFailed record.provider record.root tries failure)
  split
  · exact meets_log.2 ⟨trivial, hcountedTry.logged _⟩
  · exact meets_pure.2 hcountedTry

/-- The taking of an answer conducts itself properly, and keeps the bounds of the scan if no more
retrievals are pending than the cap allows. -/
lemma meets_takeResponse (hs : Scanning setup w h) {index : Nat} {record : DealRecord}
    {response : QueryResponse} (hrecord : w.record? key index = some record)
    (hpending : key ∉ w.retrievals.keys)
    (hprobed : previousReply? h = some ⟨.retrievalScan key index, .hasLocal record.root, .ok false⟩)
    (hreply : lastReply? h = some ⟨.retrievalScan key index,
      .query record.root record.provider, .ok response⟩) :
    Meets (conduct setup) (takeResponse key record response) w h
      (fun _ w' h' => Settled setup w' h' ∧
        (w'.retrievals.size ≤ setup.config.retrieveParallel.toNat → Scanning setup w' h'))
      fun _ => Settled setup := by
  obtain rfl := hs.settled.worker_eq
  have hmem := Worker.mem_keys_of_record? hrecord
  have hlogged := hs.logged (.queried record.provider record.root record.tries response.status)
  simp only [takeResponse, dropRetrieval, meets_bind, meets_log]
  refine ⟨trivial, ?_⟩
  split
  · next hstatus =>
    have hforgot := hlogged.forgot key
    exact meets_update.2 ⟨hlogged.settled.conduct_became
      (.forget (.served hs.part hreply hstatus hpending)), hforgot.settled, fun _ => hforgot⟩
  · next hstatus =>
    have hroom : (worker setup.config h).retrievals.size < setup.capacity :=
      hs.settled.capacity_pieces ▸ size_lt_capacity hs.within hmem hpending
    have hpends : ∀ event, Pends setup (.logged event :: h) key response := fun _ =>
      ⟨hs.part, hmem, hpending, hroom, hs.size_le,
        ⟨index, record, hrecord, hprobed, hreply⟩, hstatus⟩
    have hpended : Settled setup _ _ := hlogged.settled.became { worker setup.config h with
      retrievals := (worker setup.config h).retrievals.insert key response } rfl rfl rfl
    refine meets_update.2 ⟨hlogged.settled.conduct_became (.pend (hpends _)), hpended,
      fun hsize => ⟨hpended, hs.part, fun other hother => ?_, hsize⟩⟩
    by_cases hne : other = key
    · exact hne ▸ hmem
    · exact hs.within other (mem_keys_of_mem_keys_insert hother hne)

/-- How a visit of a piece leaves the scan: within its bounds, unless the walk ends. -/
def Visited (setup : Setup) : (isFull : Bool) → Worker → History → Prop
  | true => Settled setup
  | false => Scanning setup

/-- The try of a deal conducts itself properly. -/
lemma meets_tryRecord (hs : Scanning setup w h) {index : Nat} {record : DealRecord}
    (hrecord : w.record? key index = some record) (hretrievable : record.isRetrievable)
    (hchosen : Chosen h w key index) :
    Meets (conduct setup) (tryRecord setup key index record) w h (Visited setup)
      fun _ => Settled setup := by
  obtain rfl := hs.settled.worker_eq
  simp only [tryRecord, isPending, dropRetrieval, meets_bind]
  refine meets_request.2 ⟨hs.settled.conduct_called
    (.probe hs.part hrecord hretrievable hchosen), fun isLocal _ => ?_,
    fun failure _ => hs.settled.failed _ _ _⟩
  have hprobed :=
    hs.answered (.retrievalScan key index) (.hasLocal record.root) (.ok isLocal) rfl rfl
  cases isLocal with
  | true =>
    simp only [↓reduceIte, meets_bind, meets_update, meets_pure]
    exact ⟨hprobed.settled.conduct_became (.forget (.arrived hs.part hrecord rfl)),
      hprobed.forgot key⟩
  | false =>
    simp only [Bool.false_eq_true, ↓reduceIte, meets_bind, meets_get, meets_pure]
    split
    · exact meets_pure.2 hprobed
    · next hpending =>
      replace hpending : key ∉ (worker setup.config h).retrievals.keys := fun hmem =>
        hpending (contains_iff.2 hmem)
      rw [meets_bind, meets_attempt]
      refine ⟨hprobed.settled.conduct_called
        (.query hs.part hrecord hretrievable rfl hpending hs.size_le), fun reply _ => ?_⟩
      have hqueried := hprobed.answered (.retrievalScan key index)
        (.query record.root record.provider) reply rfl rfl
      cases reply with
      | ok response =>
        simp only [meets_bind]
        refine (meets_takeResponse hqueried hrecord hpending rfl rfl).mono ?_ fun _ _ _ => id
        rintro ⟨⟩ w' h' ⟨hsettled, hscanning⟩
        exact meets_isFull trivial (fun _ => hsettled.logged _) hscanning
      | error failure =>
        simp only [meets_bind, meets_pure]
        exact meets_takeFailure hqueried hrecord rfl

/-- The visit of a piece conducts itself properly. -/
lemma meets_visit (hs : Scanning setup w h) (key : Cid) :
    Meets (conduct setup) (visit setup key) w h (Visited setup) fun _ => Settled setup := by
  obtain rfl := hs.settled.worker_eq
  have htouched := hs.modified key id
  simp only [visit, findPiece, meets_bind, meets_get, meets_update, meets_pure]
  refine ⟨hs.settled.conduct_became (.touchPiece key hs.part (.inr (.inl rfl))), ?_⟩
  split
  · next piece hpiece =>
    have hfound : ((worker setup.config h).pieces.touch key).find? key = some piece := by
      rw [find?_touch, hpiece]
    rw [meets_bind]
    refine (meets_chooseRecord htouched hfound).mono ?_ fun _ _ _ => id
    rintro index? w' h' ⟨rfl, hscanning, hchosen⟩
    cases index? with
    | none => exact hscanning
    | some index =>
      obtain ⟨hretrievable, hchosen⟩ := hchosen index rfl
      refine meets_tryRecord hscanning ?_ hretrievable hchosen
      exact Option.bind_eq_some_iff.2 ⟨piece, hfound, List.getElem?_eq_getElem index.isLt⟩
  · exact meets_pure.2 htouched

/-- A scan conducts itself properly. -/
lemma meets_scan (keys : List Cid) (hs : Scanning setup w h) :
    Meets (conduct setup) (scan setup keys) w h (fun _ => Settled setup)
      fun _ => Settled setup := by
  induction keys generalizing w h with
  | nil => exact hs.settled
  | cons key rest ih =>
    rw [scan, meets_bind]
    refine (meets_visit hs key).mono (fun isFull w' h' hvisited => ?_) fun _ _ _ => id
    cases isFull with
    | true => exact hvisited
    | false => exact ih hvisited

/-- **The conduct of the retrieval phase.** -/
theorem meets_run (hs : Settled setup w h) :
    Meets (conduct setup) (run setup) w h (fun _ => Settled setup) fun _ => Settled setup := by
  simp only [run, meets_bind, meets_get, meets_enter]
  refine ⟨⟨hs.justStarted?_eq, .retrievalSweep⟩, ?_⟩
  have hsweeping : Sweeping setup w.retrievals.keys w (.entered .retrievalSweep :: h) :=
    ⟨hs.entered _, rfl, w.retrievals.nodup_keys, fun _ => id, fun _ _ => List.not_mem_nil,
      fun _ => .inl⟩
  refine (meets_forM (Sweeping setup) meets_sweepKey hsweeping).mono (fun _ w' h' hswept => ?_)
    fun _ _ _ => id
  refine meets_isFull trivial (fun _ => hswept.settled.logged _) fun hsize => ?_
  simp only [Bool.false_eq_true, ↓reduceIte, meets_bind, meets_get, meets_enter]
  obtain rfl := hswept.settled.worker_eq
  have hreviewed : Swept setup h' fun w => w.retrievals.keys := fun key hkey =>
    (hswept.left key hkey).resolve_left List.not_mem_nil
  refine ⟨⟨hswept.settled.justStarted?_eq, .retrievalScan hswept.part hreviewed hsize⟩, ?_⟩
  exact meets_scan _ ⟨hswept.settled.entered _, rfl, fun key hkey => (hreviewed key hkey).2, hsize⟩

end PieceReplication.Retrieval
