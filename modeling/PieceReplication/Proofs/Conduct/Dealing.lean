import PieceReplication.Proofs.Conduct.Basic

/-!
# The conduct of the deal phase

The sweep makes the deals that are followed deals of inventory pieces: a deal whose piece left the
inventory is released, and a piece that is dropped has its deal released with it.  The scan keeps
this, since it drops only pieces without a deal and starts deals only for pieces of the inventory.
So the deals never fill their container, and no deal is started for a piece that has one.
-/

namespace PieceReplication.Dealing

open History Activity BoundedMap

variable {setup : Setup} {w : Worker} {h : History} {key : Cid}

/-- In a sweep, with some keys left: the other deals were reviewed, and their pieces are in the
inventory. -/
structure Sweeping (setup : Setup) (rest : List Cid) (w : Worker) (h : History) : Prop where
  settled : Settled setup w h
  part : part? h = some .dealSweep
  nodup : rest.Nodup
  new : ∀ key ∈ rest, key ∉ reviewed h
  left : ∀ key ∈ w.deals.keys, key ∈ rest ∨ key ∈ reviewed h ∧ key ∈ w.pieces.keys

/-- In a scan: each deal is one of an inventory piece, and no more are followed than the cap
allows. -/
structure Scanning (setup : Setup) (w : Worker) (h : History) : Prop where
  settled : Settled setup w h
  part : part? h = some .dealScan
  within : ∀ key ∈ w.deals.keys, key ∈ w.pieces.keys
  size_le : w.deals.size ≤ setup.config.dealParallel.toNat

/-! ## The sweep -/

/-- The review of a deal conducts itself properly. -/
lemma meets_sweepKey (key : Cid) (rest : List Cid) (w : Worker) (h : History)
    (hs : Sweeping setup (key :: rest) w h) :
    Meets (conduct setup) (sweepKey key) w h (fun _ => Sweeping setup rest)
      fun _ => Settled setup := by
  obtain ⟨hset, hpart, hnodup, hnew, hleft⟩ := hs
  obtain rfl := hset.worker_eq
  obtain ⟨hkey, hnodup⟩ := List.nodup_cons.1 hnodup
  obtain ⟨hkeyNew, hrestNew⟩ := List.forall_mem_cons.1 hnew
  -- what is known of the other deals once the deal under the key is reviewed
  have hothers : ∀ other ∈ (worker setup.config h).deals.keys, other ≠ key →
      other ∈ rest ∨ other ∈ reviewed h ∧ other ∈ (worker setup.config h).pieces.keys := by
    intro other hother hne
    rcases hleft other hother with hrest | hreviewed
    · exact .inl ((List.mem_cons.1 hrest).resolve_left hne)
    · exact .inr hreviewed
  have hrestNew' : ∀ other ∈ rest, other ∉ key :: reviewed h := by
    intro other hother
    have hne : other ≠ key := fun heq => hkey (heq ▸ hother)
    exact List.not_mem_cons_of_ne_of_not_mem hne (hrestNew other hother)
  simp only [sweepKey, meets_bind, meets_get, dropDeal, dropPiece]
  split
  · next hcontains =>
    have hmem := contains_iff.1 hcontains
    have htouched := hset.became { worker setup.config h with
      deals := (worker setup.config h).deals.touch key } rfl rfl capacity_touch
    simp only [meets_bind, meets_update]
    refine ⟨hset.conduct_became (.touchDeal key hpart), ?_⟩
    split
    · next proposal hdeal =>
      have hfound : ((worker setup.config h).deals.touch key).find? key = some proposal := by
        rw [find?_touch, hdeal]
      rw [meets_bind]
      refine meets_request.2 ⟨htouched.conduct_called (.sweepDeal hpart hmem hfound hkeyNew),
        fun info _ => ?_, fun failure _ => htouched.failed _ _ _⟩
      have hanswered :=
        htouched.answered (.dealSweep key) (.dealInfo proposal) (.ok info) rfl rfl
      split
      · next hactive =>
        simp only [meets_bind, meets_log, meets_update]
        have hlogged := hanswered.logged (.replicated key proposal)
        refine ⟨trivial, hlogged.conduct_became (.drop (.replicated hpart hfound rfl hactive)), ?_⟩
        have hdropped := hlogged.became { worker setup.config h with
          deals := (worker setup.config h).deals.touch key
          pieces := (worker setup.config h).pieces.erase key } rfl rfl rfl
        have hgone : key ∉ ((worker setup.config h).pieces.erase key).keys := fun hmem =>
          (mem_keys_erase.1 hmem).1 rfl
        refine ⟨hdropped.conduct_became (.release (.replicated hpart hfound rfl hactive hgone)),
          hdropped.became _ rfl rfl rfl, hpart, hnodup, hrestNew', fun other hother => ?_⟩
        rw [mem_keys_erase, mem_keys_touch] at hother
        refine (hothers other hother.2 hother.1).imp_right fun hreviewed => ?_
        exact ⟨List.mem_cons_of_mem _ hreviewed.1, mem_keys_erase.2 ⟨hother.1, hreviewed.2⟩⟩
      · next hactive =>
        split
        · next hfailed =>
          simp only [meets_bind, meets_log, meets_update]
          have hlogged := hanswered.logged (.dealEnded key proposal info.state info.message)
          refine ⟨trivial, hlogged.conduct_became
            (.release (.failed hpart hfound rfl hfailed)),
            hlogged.became _ rfl rfl rfl, hpart, hnodup, hrestNew', fun other hother => ?_⟩
          rw [mem_keys_erase, mem_keys_touch] at hother
          refine (hothers other hother.2 hother.1).imp_right fun hreviewed => ?_
          exact ⟨List.mem_cons_of_mem _ hreviewed.1, hreviewed.2⟩
        · refine meets_pure.2 ⟨hanswered, hpart, hnodup, hrestNew', fun other hother => ?_⟩
          by_cases hne : other = key
          · exact .inr ⟨hne ▸ List.mem_cons_self, hne ▸ hmem⟩
          · refine (hothers other (mem_keys_touch.1 hother) hne).imp_right fun hreviewed => ?_
            exact ⟨List.mem_cons_of_mem _ hreviewed.1, hreviewed.2⟩
    · next hnone =>
      refine meets_pure.2 ⟨htouched, hpart, hnodup, hrestNew, fun other hother => ?_⟩
      have hold := mem_keys_touch.1 hother
      refine hothers other hold fun heq => ?_
      obtain ⟨proposal, hproposal⟩ := exists_find? hold
      exact hnone proposal (heq ▸ hproposal)
  · next hcontains =>
    have hmem : key ∉ (worker setup.config h).pieces.keys := fun hmem =>
      hcontains (contains_iff.2 hmem)
    simp only [meets_bind, meets_update, meets_pure]
    refine ⟨hset.conduct_became (.release (.gone hpart hmem)), hset.became _ rfl rfl rfl, hpart,
      hnodup, hrestNew, fun other hother => ?_⟩
    rw [mem_keys_erase] at hother
    exact hothers other hother.2 hother.1

/-! ## The scan -/

/-- A deal can be started for an inventory piece without one. -/
lemma Scanning.mayStart (hs : Scanning setup w h) (hmem : key ∈ w.pieces.keys)
    (hdeal : key ∉ w.deals.keys) : MayStart setup w key := by
  have hroom : w.deals.size < w.pieces.capacity := size_lt_capacity hs.within hmem hdeal
  exact ⟨hdeal, hs.settled.capacity_pieces ▸ hroom, hs.size_le⟩

/-- A look-up of a piece keeps the bounds of a scan. -/
lemma Scanning.touched (hs : Scanning setup w h) (key : Cid) :
    Scanning setup { w with pieces := w.pieces.touch key }
      (.became { w with pieces := w.pieces.touch key } :: h) := by
  refine ⟨hs.settled.became _ capacity_touch rfl rfl, hs.part, fun other hother => ?_, hs.size_le⟩
  exact mem_keys_touch.2 (hs.within other hother)

/-- A report keeps the bounds of a scan. -/
lemma Scanning.logged (hs : Scanning setup w h) (event : LogEvent) :
    Scanning setup w (.logged event :: h) :=
  ⟨hs.settled.logged event, hs.part, hs.within, hs.size_le⟩

/-- A piece without a deal can be dropped in a scan. -/
lemma Scanning.dropped (hs : Scanning setup w h) (hdeal : key ∉ w.deals.keys) :
    Scanning setup { w with pieces := w.pieces.erase key }
      (.became { w with pieces := w.pieces.erase key } :: h) := by
  refine ⟨hs.settled.became _ rfl rfl rfl, hs.part, fun other hother => ?_, hs.size_le⟩
  have hne : other ≠ key := fun heq => hdeal (heq ▸ hother)
  exact mem_keys_erase.2 ⟨hne, hs.within other hother⟩

/-- A call of a scan and its reply keep the bounds of the scan, unless a deal was started. -/
lemma Scanning.answered (hs : Scanning setup w h) (purpose : Purpose) (call : Call)
    (reply : Reply call) (hreply : startOf? purpose call reply = none)
    (hcall : opens? call = none) :
    Scanning setup w (.answered purpose call reply :: .called purpose call :: h) :=
  ⟨hs.settled.answered _ _ _ hreply hcall, hs.part, hs.within, hs.size_le⟩

/-- The rule of looks at the cap, for any contract. -/
lemma meets_isFull {c : Contract} {post : Bool → Worker → History → Prop}
    {given : PhaseError → Worker → History → Prop}
    (hlogged : c.guarantee h (.logged (.dealsFull w.deals.size)))
    (hfull : setup.config.dealParallel.toNat < w.deals.size →
      post true w (.logged (.dealsFull w.deals.size) :: h))
    (hroom : w.deals.size ≤ setup.config.dealParallel.toNat → post false w h) :
    Meets c (isFull setup) w h post given := by
  simp only [isFull, meets_bind, meets_get]
  split
  · next hsize =>
    simp only [meets_bind, meets_log, meets_pure]
    exact ⟨hlogged, hfull hsize⟩
  · next hsize => exact meets_pure.2 (hroom (Nat.le_of_not_lt hsize))

/-- The check of the miner conducts itself properly. -/
lemma meets_checkMiner {payload : PayloadRef} (hs : Scanning setup w h)
    (hpayload : w.payload? key = some payload) (hstart : MayStart setup w key)
    (isChecked : Bool) :
    Meets (conduct setup) (checkMiner setup key isChecked) w h
      (fun _ w' h' => w' = w ∧ Scanning setup w' h') fun _ => Settled setup := by
  obtain rfl := hs.settled.worker_eq
  cases isChecked with
  | true => exact meets_pure.2 ⟨rfl, hs⟩
  | false =>
    simp only [checkMiner, Bool.false_eq_true, ↓reduceIte, meets_bind]
    refine meets_request.2 ⟨hs.settled.conduct_called (.minerInfo hs.part hpayload hstart),
      fun info _ => ?_, fun failure _ => hs.settled.failed _ _ _⟩
    split
    · exact meets_pure.2 ⟨rfl, hs.answered _ _ _ rfl rfl⟩
    · exact meets_throw.2 (hs.settled.answered _ _ _ rfl rfl)

/-- How a visit of a piece leaves the scan: within its bounds, unless the walk ends. -/
def Visited (setup : Setup) : Visit → Worker → History → Prop
  | .full => Settled setup
  | .passed => Scanning setup
  | .minerChecked => Scanning setup

/-- The start of a deal conducts itself properly. -/
lemma meets_propose {payload : PayloadRef} (hs : Scanning setup w h) (hmem : key ∈ w.pieces.keys)
    (hpayload : w.payload? key = some payload) (hdeal : key ∉ w.deals.keys) :
    Meets (conduct setup) (propose setup key payload) w h (Visited setup)
      fun _ => Settled setup := by
  obtain rfl := hs.settled.worker_eq
  have hstart := hs.mayStart hmem hdeal
  rw [propose, meets_bind, meets_attempt]
  refine ⟨hs.settled.conduct_called (.startDeal hs.part hpayload hstart), fun reply _ => ?_⟩
  cases reply with
  | error failure =>
    have hanswered := hs.answered (.dealScan key) (.startDeal (terms setup payload))
      (.error failure) rfl rfl
    simp only [meets_bind, meets_log, meets_pure]
    exact ⟨trivial, hanswered.logged _⟩
  | ok proposal =>
    simp only [meets_bind, meets_log, meets_count, meets_update]
    refine ⟨trivial, trivial, ⟨hstart, rfl⟩, ?_⟩
    refine meets_isFull trivial (fun _ => ?_) fun hsize => ?_
    · refine meets_pure.2 (Settled.logged ?_ _)
      exact hs.settled.became_after hs.settled.idle rfl rfl rfl
    · refine meets_pure.2 ⟨hs.settled.became_after hs.settled.idle rfl rfl rfl, hs.part,
        fun other hother => ?_, hsize⟩
      by_cases hne : other = key
      · exact hne ▸ hmem
      · exact hs.within other (mem_keys_of_mem_keys_insert hother hne)

/-- The visit of a piece conducts itself properly. -/
lemma meets_visit (hs : Scanning setup w h) (key : Cid) (isChecked : Bool) :
    Meets (conduct setup) (visit setup key isChecked) w h (Visited setup)
      fun _ => Settled setup := by
  obtain rfl := hs.settled.worker_eq
  have htouched := hs.touched key
  simp only [visit, findPiece, isFollowed, dropPiece, meets_bind, meets_get, meets_update,
    meets_pure]
  refine ⟨hs.settled.conduct_became (.touchPiece key hs.part (.inr (.inr rfl))), ?_⟩
  split
  · next payload hpayload =>
    have hpayload' : Worker.payload? { worker setup.config h with
        pieces := (worker setup.config h).pieces.touch key } key = some payload := by
      simpa only [Worker.payload?, find?_touch] using hpayload
    have hmem : key ∈ (worker setup.config h).pieces.keys :=
      Worker.mem_keys_of_payload? hpayload
    rw [meets_bind]
    refine meets_request.2 ⟨htouched.settled.conduct_called (.arrival hs.part hpayload'),
      fun isLocal _ => ?_, fun failure _ => htouched.settled.failed _ _ _⟩
    have harrived :=
      htouched.answered (.dealScan key) (.hasLocal payload.root) (.ok isLocal) rfl rfl
    split
    · next hlocal =>
      subst hlocal
      simp only [meets_bind, meets_get, meets_pure]
      split
      · exact meets_pure.2 harrived
      · next hfollowed =>
        have hdeal : key ∉ (worker setup.config h).deals.keys := fun hdeal =>
          hfollowed (contains_iff.2 hdeal)
        have hstart := harrived.mayStart (mem_keys_touch.2 hmem) hdeal
        rw [meets_bind]
        refine meets_request.2 ⟨harrived.settled.conduct_called
          (.offer hs.part hpayload' rfl hstart), fun offer _ => ?_,
          fun failure _ => harrived.settled.failed _ _ _⟩
        have hoffered := harrived.answered (.dealScan key) (.offer setup.miner payload.root)
          (.ok offer) rfl rfl
        split
        · next hoffer =>
          have hlogged := hoffered.logged (.alreadyServed setup.miner payload.root key)
          simp only [meets_bind, meets_log, meets_update, meets_pure]
          exact ⟨trivial, hlogged.settled.conduct_became
            (.drop (.served hs.part hpayload' hdeal rfl rfl hoffer)), hlogged.dropped hdeal⟩
        · rw [meets_bind]
          refine (meets_checkMiner hoffered hpayload' hstart isChecked).mono ?_ fun _ _ _ => id
          rintro ⟨⟩ w' h' ⟨rfl, hchecked⟩
          exact meets_propose hchecked (mem_keys_touch.2 hmem) hpayload' hdeal
    · exact meets_pure.2 harrived
  · exact meets_pure.2 htouched

/-- A scan conducts itself properly. -/
lemma meets_scan (keys : List Cid) (hs : Scanning setup w h) (isChecked : Bool) :
    Meets (conduct setup) (scan setup isChecked keys) w h (fun _ => Settled setup)
      fun _ => Settled setup := by
  induction keys generalizing isChecked w h with
  | nil => exact hs.settled
  | cons key rest ih =>
    rw [scan, meets_bind]
    refine (meets_visit hs key isChecked).mono (fun result w' h' hvisited => ?_) fun _ _ _ => id
    cases result with
    | passed => exact ih hvisited isChecked
    | minerChecked => exact ih hvisited true
    | full => exact hvisited

/-- **The conduct of the deal phase.** -/
theorem meets_run (hs : Settled setup w h) :
    Meets (conduct setup) (run setup) w h (fun _ => Settled setup) fun _ => Settled setup := by
  simp only [run, meets_bind, meets_get, meets_enter]
  refine ⟨⟨hs.justStarted?_eq, .dealSweep⟩, ?_⟩
  have hsweeping : Sweeping setup w.deals.keys w (.entered .dealSweep :: h) :=
    ⟨hs.entered _, rfl, w.deals.nodup_keys, fun _ _ => List.not_mem_nil, fun _ => .inl⟩
  refine (meets_forM (Sweeping setup) meets_sweepKey hsweeping).mono (fun _ w' h' hswept => ?_)
    fun _ _ _ => id
  refine meets_isFull trivial (fun _ => hswept.settled.logged _) fun hsize => ?_
  simp only [Bool.false_eq_true, ↓reduceIte, meets_bind, meets_get, meets_enter]
  obtain rfl := hswept.settled.worker_eq
  have hreviewed : Swept setup h' fun w => w.deals.keys := fun key hkey =>
    (hswept.left key hkey).resolve_left List.not_mem_nil
  refine ⟨⟨hswept.settled.justStarted?_eq, .dealScan hswept.part hreviewed hsize⟩, ?_⟩
  exact meets_scan _ ⟨hswept.settled.entered _, rfl, fun key hkey => (hreviewed key hkey).2, hsize⟩
    false

end PieceReplication.Dealing
