import PieceReplication.Proofs.Conduct.Invariant
import PieceReplication.Proofs.Conduct.Tick
import PieceReplication.Proofs.Run.Session

/-!
# The caps on pending work

The retrieval and the deal phase admit entries to their containers in the same way: a sweep reviews
the entries that are there, and a scan, which begins only if no more are left than the cap allows,
lets new ones in and stops after the first one above the cap.  So there is at most one entry above
the cap at any time, wherever a phase is given up.

How many entries a scan lets in is a matter of accounting (`History.length_add_goings`): what is
there at the end and what has left make up what was there at the beginning and what has come.  A
scan of the deal phase lets no entry go, so it lets in no more than there is room for.  A scan of
the retrieval phase may let entries go, and what it lets in after that comes on top.
-/

namespace PieceReplication

open History

variable {setup : Setup} {h : History} {w : Worker} {occurrence : Occurrence}

/-! ## Comings and goings -/

namespace History

variable {keys : Worker → List Cid}

/-- The state of the worker at the beginning of the present part of the tick. -/
@[simp] def opening (config : Config) : History → Worker
  | [] => .fresh config
  | occurrence :: earlier =>
    match occurrence with
    | .entered _ => worker config earlier
    | .published _ => worker config earlier
    | .brokeOff => .fresh config
    | _ => opening config earlier

/-- How many keys came into a container in the present part of the tick. -/
@[simp] def comings (keys : Worker → List Cid) (config : Config) : History → Nat
  | [] => 0
  | occurrence :: earlier =>
    match occurrence with
    | .became w =>
      (keys w).countP (· ∉ keys (worker config earlier)) + comings keys config earlier
    | .entered _ => 0
    | .published _ => 0
    | .brokeOff => 0
    | _ => comings keys config earlier

/-- How many keys left a container in the present part of the tick. -/
@[simp] def goings (keys : Worker → List Cid) (config : Config) : History → Nat
  | [] => 0
  | occurrence :: earlier =>
    match occurrence with
    | .became w =>
      (keys (worker config earlier)).countP (· ∉ keys w) + goings keys config earlier
    | .entered _ => 0
    | .published _ => 0
    | .brokeOff => 0
    | _ => goings keys config earlier

/-- Two lists without repetitions differ in length by what only one of them has. -/
lemma length_add_countP_notMem {l l' : List Cid} (hl : l.Nodup) (hl' : l'.Nodup) :
    l'.length + l.countP (· ∉ l') = l.length + l'.countP (· ∉ l) := by
  -- both lists have the common elements, in one order or another
  have hcommon : (l.filter (· ∈ l')).Perm (l'.filter (· ∈ l)) := by
    rw [List.perm_ext_iff_of_nodup (hl.filter _) (hl'.filter _)]
    intro key
    simp [and_comm]
  have hlength := hcommon.length_eq
  rw [← List.countP_eq_length_filter, ← List.countP_eq_length_filter] at hlength
  have hsplit := List.length_eq_countP_add_countP (fun key => decide (key ∈ l')) (l := l)
  have hsplit' := List.length_eq_countP_add_countP (fun key => decide (key ∈ l)) (l := l')
  simp only [decide_eq_true_eq] at hsplit hsplit'
  omega

/-- A list that is part of another one has nothing that the other one lacks. -/
lemma countP_notMem_eq_zero {l l' : List Cid} (hsubset : l' ⊆ l) : l'.countP (· ∉ l) = 0 := by
  rw [List.countP_eq_zero]
  intro key hkey
  simpa using hsubset hkey

/-- **The balance of a part.**  What is there and what has left make up what was there at the
beginning and what has come. -/
lemma length_add_goings (hnodup : ∀ w, (keys w).Nodup) (config : Config) (h : History) :
    (keys (worker config h)).length + goings keys config h =
      (keys (opening config h)).length + comings keys config h := by
  induction h with
  | nil => rfl
  | cons occurrence earlier ih =>
    cases occurrence with
    | became w =>
      have hchange := length_add_countP_notMem (hnodup (worker config earlier)) (hnodup w)
      simp only [worker, opening, comings, goings]
      omega
    | entered part => rfl
    | published stats => rfl
    | brokeOff => rfl
    | _ => exact ih

end History

/-! ## Admission -/

/-- How a phase admits entries to its container: the two parts of the phase, the keys of the
container, and the cap on their number. -/
structure Admission where
  sweep : Part
  scan : Part
  keys : Worker → List Cid
  cap : Nat

/-- The admission of pending retrievals. -/
def Setup.retrieving (setup : Setup) : Admission where
  sweep := .retrievalSweep
  scan := .retrievalScan
  keys w := w.retrievals.keys
  cap := setup.config.retrieveParallel.toNat

/-- The admission of deals. -/
def Setup.dealing (setup : Setup) : Admission where
  sweep := .dealSweep
  scan := .dealScan
  keys w := w.deals.keys
  cap := setup.config.dealParallel.toNat

/-- What a phase has to keep to for its cap to hold. -/
structure Admission.Sound (setup : Setup) (a : Admission) : Prop where
  parts_ne : a.sweep ≠ a.scan
  nodup : ∀ w, (a.keys w).Nodup
  fresh : a.keys (.fresh setup.config) = []
  /-- A change of the worker lets nothing in, or it lets one entry in, in the scan, while there are
  no more than the cap allows. -/
  changes : ∀ h w, Along (Conduct setup) h → Conduct setup h (.became w) →
    a.keys w ⊆ a.keys (worker setup.config h) ∨
      part? h = some a.scan ∧ (a.keys (worker setup.config h)).length ≤ a.cap ∧
        (a.keys w).length ≤ (a.keys (worker setup.config h)).length + 1
  /-- A call in the sweep reviews an entry that was not reviewed before. -/
  reviews : ∀ h purpose call, Conduct setup h (.called purpose call) → part? h = some a.sweep →
    ∃ key ∈ a.keys (worker setup.config h), reviews? purpose = some key ∧ key ∉ reviewed h
  /-- The scan begins after a sweep that left no more entries than the cap allows. -/
  begins : ∀ h, Conduct setup h (.entered a.scan) →
    part? h = some a.sweep ∧ Swept setup h a.keys ∧
      (a.keys (worker setup.config h)).length ≤ a.cap

/-- How entries are admitted, at an occurrence and the history before it. -/
structure Admitted (setup : Setup) (a : Admission) (h : History) (occurrence : Occurrence) :
    Prop where
  /-- There is at most one entry above the cap. -/
  length_le : (a.keys (worker setup.config (occurrence :: h))).length ≤ a.cap + 1
  /-- The sweep lets nothing in. -/
  sweeps : part? (occurrence :: h) = some a.sweep →
    comings a.keys setup.config (occurrence :: h) = 0
  /-- A call in the sweep reviews an entry that was not reviewed before. -/
  reviews : part? h = some a.sweep → ∀ purpose call, occurrence = .called purpose call →
    ∃ key ∈ a.keys (worker setup.config h), reviews? purpose = some key ∧ key ∉ reviewed h
  /-- If the sweep has ended and left more entries than the cap allows, the phase makes no further
  call: none in the sweep, and the scan does not begin. -/
  ends : part? h = some a.sweep → Swept setup h a.keys →
    a.cap < (a.keys (worker setup.config h)).length →
      (∀ purpose call, occurrence ≠ .called purpose call) ∧ occurrence ≠ .entered a.scan
  /-- The scan begins right after a sweep has ended. -/
  begins : occurrence = .entered a.scan → part? h = some a.sweep ∧ Swept setup h a.keys
  /-- The scan lets in no more entries than there was room for at its beginning, up to one above
  the cap, and than have left in it. -/
  scans : part? (occurrence :: h) = some a.scan →
    (a.keys (opening setup.config (occurrence :: h))).length +
        comings a.keys setup.config (occurrence :: h) ≤
      a.cap + 1 + goings a.keys setup.config (occurrence :: h)

namespace Admission.Sound

variable {a : Admission}

/-- There is at most one entry above the cap. -/
lemma length_le (hsound : a.Sound setup) (hconduct : Along (Conduct setup) h) :
    (a.keys (worker setup.config h)).length ≤ a.cap + 1 := by
  induction h with
  | nil =>
    rw [worker, hsound.fresh]
    exact Nat.zero_le _
  | cons occurrence earlier ih =>
    obtain ⟨hoccurrence, hearlier⟩ := hconduct
    cases occurrence with
    | became w =>
      rcases hsound.changes earlier w hearlier hoccurrence with hsubset | ⟨-, hcap, hlength⟩
      · have hlength := (List.subperm_of_subset (hsound.nodup w) hsubset).length_le
        exact Nat.le_trans hlength (ih hearlier)
      · exact Nat.le_trans hlength (Nat.succ_le_succ hcap)
    | brokeOff =>
      rw [worker, hsound.fresh]
      exact Nat.zero_le _
    | _ => exact ih hearlier

/-- The sweep lets nothing in. -/
lemma comings_eq_zero (hsound : a.Sound setup) (hconduct : Along (Conduct setup) h)
    (hpart : part? h = some a.sweep) : comings a.keys setup.config h = 0 := by
  induction h with
  | nil => rfl
  | cons occurrence earlier ih =>
    obtain ⟨hoccurrence, hearlier⟩ := hconduct
    cases occurrence with
    | became w =>
      have hsubset : a.keys w ⊆ a.keys (worker setup.config earlier) := by
        refine (hsound.changes earlier w hearlier hoccurrence).resolve_right ?_
        rintro ⟨hscan, -, -⟩
        exact hsound.parts_ne (Option.some.inj (hpart.symm.trans hscan))
      rw [comings, countP_notMem_eq_zero hsubset, ih hearlier hpart]
    | entered part => rfl
    | published stats => rfl
    | brokeOff => rfl
    | _ => exact ih hearlier hpart

/-- A phase that keeps to what its cap needs admits its entries within the cap. -/
lemma admitted (hsound : a.Sound setup) (hearlier : Along (Conduct setup) h)
    (hconduct : Conduct setup h occurrence) : Admitted setup a h occurrence where
  length_le := hsound.length_le ⟨hconduct, hearlier⟩
  sweeps := hsound.comings_eq_zero ⟨hconduct, hearlier⟩
  reviews := by
    rintro hpart purpose call rfl
    exact hsound.reviews h purpose call hconduct hpart
  ends := by
    intro hpart hswept hlt
    constructor
    · rintro purpose call rfl
      obtain ⟨key, hkey, -, hnew⟩ := hsound.reviews h purpose call hconduct hpart
      exact hnew (hswept key hkey).1
    · rintro rfl
      exact absurd (hsound.begins h hconduct).2.2 (Nat.not_le_of_lt hlt)
  begins := by
    rintro rfl
    exact ⟨(hsound.begins h hconduct).1, (hsound.begins h hconduct).2.1⟩
  scans := by
    intro _
    -- what is there now is bounded, so the balance of the part bounds what has come
    have hbalance := length_add_goings hsound.nodup setup.config (occurrence :: h)
    have hlength := hsound.length_le (h := occurrence :: h) ⟨hconduct, hearlier⟩
    omega

end Admission.Sound

/-! ## The two phases -/

/-- Retrievals are admitted as their cap needs it. -/
lemma sound_retrieving (setup : Setup) : setup.retrieving.Sound setup where
  parts_ne heq := by cases heq
  nodup w := w.retrievals.nodup_keys
  fresh := rfl
  changes := by
    intro h w _ hconduct
    obtain hchanges | ⟨piece, proposal, -, -, rfl⟩ := hconduct.changes_or_starts
    · cases hchanges with
      | forget hforgets => exact .inl fun other hother => (BoundedMap.mem_keys_erase.1 hother).2
      | pend hpends =>
        refine .inr ⟨hpends.part, ?_, BoundedMap.length_keys_insert_le⟩
        exact BoundedMap.size_eq_length_keys ▸ hpends.size_le
      | _ => exact .inl (List.Subset.refl _)
    · exact .inl (List.Subset.refl _)
  reviews := by
    rintro h purpose call ⟨-, hasks⟩ hpart
    have hpurpose := hasks.part?_eq.symm.trans hpart
    cases purpose with
    | retrievalSweep piece =>
      cases hasks with
      | sweepRetrieval _ _ hpending hnew => exact ⟨piece, hpending, rfl, hnew⟩
    | _ => cases hpurpose
  begins := by
    rintro h ⟨-, hbegins⟩
    cases show Begins setup h .retrievalScan from hbegins with
    | retrievalScan hpart hswept hsize =>
      exact ⟨hpart, hswept, BoundedMap.size_eq_length_keys ▸ hsize⟩

/-- A deal that was just started was started in the scan. -/
lemma part?_of_justStarted (hconduct : Along (Conduct setup) h) {start : Cid × Cid}
    (hjust : justStarted? h = some start) : part? h = some .dealScan := by
  induction h with
  | nil => cases hjust
  | cons occurrence earlier ih =>
    obtain ⟨hoccurrence, hearlier⟩ := hconduct
    cases occurrence with
    | answered purpose call reply =>
      obtain ⟨before, rfl⟩ : ∃ before, earlier = .called purpose call :: before :=
        ⟨earlier.tail, List.eq_cons_of_mem_head? hoccurrence⟩
      obtain ⟨⟨-, hasks⟩, -⟩ := hearlier
      obtain ⟨terms, rfl, rfl⟩ := dealScan_of_startOf? hjust
      exact hasks.part?_eq
    | logged event => exact ih hearlier hjust
    | counted counter => exact ih hearlier hjust
    | _ => cases hjust

/-- Deals are admitted as their cap needs it. -/
lemma sound_dealing (setup : Setup) : setup.dealing.Sound setup where
  parts_ne heq := by cases heq
  nodup w := w.deals.nodup_keys
  fresh := rfl
  changes := by
    intro h w hearlier hconduct
    obtain hchanges | ⟨piece, proposal, hjust, hstart, rfl⟩ := hconduct.changes_or_starts
    · cases hchanges with
      | touchDeal key hpart => exact .inl fun other => BoundedMap.mem_keys_touch.1
      | release hreleases => exact .inl fun other hother => (BoundedMap.mem_keys_erase.1 hother).2
      | _ => exact .inl (List.Subset.refl _)
    · refine .inr ⟨part?_of_justStarted hearlier hjust, ?_, BoundedMap.length_keys_insert_le⟩
      exact BoundedMap.size_eq_length_keys ▸ hstart.size_le
  reviews := by
    rintro h purpose call ⟨-, hasks⟩ hpart
    have hpurpose := hasks.part?_eq.symm.trans hpart
    cases purpose with
    | dealSweep piece =>
      cases hasks with
      | sweepDeal _ _ hdeal hnew =>
        exact ⟨piece, BoundedMap.mem_keys_of_find? hdeal, rfl, hnew⟩
    | _ => cases hpurpose
  begins := by
    rintro h ⟨-, hbegins⟩
    cases show Begins setup h .dealScan from hbegins with
    | dealScan hpart hswept hsize =>
      exact ⟨hpart, hswept, BoundedMap.size_eq_length_keys ▸ hsize⟩

/-- A scan of the deal phase lets no entry go. -/
lemma goings_eq_zero_of_dealScan (hconduct : Along (Conduct setup) h)
    (hpart : part? h = some .dealScan) : goings setup.dealing.keys setup.config h = 0 := by
  induction h with
  | nil => rfl
  | cons occurrence earlier ih =>
    obtain ⟨hoccurrence, hearlier⟩ := hconduct
    cases occurrence with
    | became w =>
      have hsubset : setup.dealing.keys (worker setup.config earlier) ⊆ setup.dealing.keys w := by
        obtain hchanges | ⟨piece, proposal, hjust, hstart, rfl⟩ := hoccurrence.changes_or_starts
        · cases hchanges with
          | touchDeal key hsweep => exact fun other => BoundedMap.mem_keys_touch.2
          | release hreleases => cases hpart.symm.trans hreleases.part?_eq
          | _ => exact List.Subset.refl _
        · exact fun other hother =>
            BoundedMap.mem_keys_insert_of_lt hstart.notMem
              ((bounded_of_along hearlier).deals ▸ hstart.size_lt) hother
      rw [goings, countP_notMem_eq_zero hsubset, ih hearlier hpart]
    | entered part => rfl
    | published stats => rfl
    | brokeOff => rfl
    | _ => exact ih hearlier hpart

/-- **The caps on pending work.**  In each life of a replicator, whatever its surroundings supply,
there is at every moment at most one retrieval and at most one deal above its cap.  A phase that
more entries are left to after its sweep than the cap allows makes no further call, and else its
scan lets in no more than there is room for up to one above the cap; beyond that a scan of the
retrieval phase makes up for the entries that leave in it, and none leaves in one of the deal
phase. -/
theorem Life.admission_capped {events : List Event} {replicator : Replicator}
    (life : Life setup events replicator) :
    Along (Admitted setup setup.retrieving) (trace events) ∧
      Along (Admitted setup setup.dealing) (trace events) ∧
      Along (fun h occurrence => part? (occurrence :: h) = some .dealScan →
        goings setup.dealing.keys setup.config (occurrence :: h) = 0) (trace events) :=
  ⟨life.conduct.imp_of_along fun _ _ => (sound_retrieving setup).admitted,
    life.conduct.imp_of_along fun _ _ => (sound_dealing setup).admitted,
    life.conduct.imp_of_along fun _ _ hearlier hconduct =>
      goings_eq_zero_of_dealScan ⟨hconduct, hearlier⟩⟩

/-- The caps hold in a life in which three retrievals are pending at the end, one above the cap. -/
theorem Life.admission_capped_crowded :
    ∃ events, Life Sample.crowdedSetup events Sample.crowdedSession.replicator ∧
      (Sample.crowdedSetup.retrieving.keys
        (worker Sample.crowdedSetup.config (trace events))).length =
          Sample.crowdedSetup.retrieving.cap + 1 ∧
      Along (Admitted Sample.crowdedSetup Sample.crowdedSetup.retrieving) (trace events) ∧
      Along (Admitted Sample.crowdedSetup Sample.crowdedSetup.dealing) (trace events) ∧
      Along (fun h occurrence => part? (occurrence :: h) = some .dealScan →
        goings Sample.crowdedSetup.dealing.keys Sample.crowdedSetup.config (occurrence :: h) = 0)
        (trace events) := by
  obtain ⟨events, life, htrace⟩ := Sample.showsLife_crowdedSession
  refine ⟨events, life, ?_, life.admission_capped⟩
  rw [htrace]
  decide +kernel

/-- A scan of the retrieval phase may let in more entries than there is room for at its beginning,
because others leave in it: in the crowded session one retrieval is left after the second sweep, the
scan lets it go, and three become pending. -/
theorem Life.retrievals_exceed_room :
    ¬ ∀ {setup : Setup} {events : List Event} {replicator : Replicator},
      Life setup events replicator →
        Along (fun h occurrence => part? (occurrence :: h) = some .retrievalScan →
          comings setup.retrieving.keys setup.config (occurrence :: h) ≤
            setup.retrieving.cap + 1 -
              (setup.retrieving.keys (opening setup.config (occurrence :: h))).length)
          (trace events) := by
  intro hroom
  obtain ⟨events, life, htrace⟩ := Sample.showsLife_crowdedSession
  have hsession := hroom life
  rw [htrace] at hsession
  revert hsession
  decide +kernel

end PieceReplication
