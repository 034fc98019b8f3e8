import PieceReplication.Proofs.Conduct.Invariant
import PieceReplication.Proofs.Conduct.Tick
import PieceReplication.Proofs.Indexing.Refinement

/-!
# The cursor

The epochs whose tipsets are requested in the life of a replicator form one sequence: it begins
where the configuration says, and each epoch is followed by the next one, or by itself if its
indexing failed.  No epoch is left out, however often the phase is given up, stopped or resumed with
another head, because the cursor always stands at the epoch that is due (`History.due`): an epoch is
underway at the cursor, or none is underway and the cursor is where the sequence goes on.

A single run of the phase moves the cursor up to the head, or leaves it at the epoch whose indexing
failed.
-/

namespace PieceReplication

open History

variable {setup : Setup} {h : History} {w : Worker} {occurrence : Occurrence}

/-- The cursor after a history. -/
def History.cursor (setup : Setup) (h : History) : Epoch :=
  (worker setup.config h).cursor

/-- The epoch, as a number, with which the sequence of the requested ones goes on: the configured
one at the beginning, the last one again if its indexing failed, and else the one after it. -/
def History.due (setup : Setup) (h : History) : Int :=
  match requested? h with
  | none => setup.config.scanStart.toInt
  | some height => if hasFailed h then height.toInt else height.toInt + 1

/-! ## Where the cursor stands -/

/-- Where the cursor stands: at the epoch that is underway, which is the one that was requested last
and has not failed, and else at the epoch that is due. -/
structure CursorDue (setup : Setup) (h : History) : Prop where
  underway : ∀ height, underway? h = some height →
    requested? h = some height ∧ hasFailed h = false ∧ cursor setup h = height
  idle : underway? h = none → (cursor setup h).toInt = due setup h

/-- What touches neither the cursor nor the indexing of an epoch leaves the cursor where it is
due. -/
lemma CursorDue.of_eq (hdue : CursorDue setup h)
    (hunderway : underway? (occurrence :: h) = underway? h)
    (hrequested : requested? (occurrence :: h) = requested? h)
    (hfailed : hasFailed (occurrence :: h) = hasFailed h)
    (hcursor : cursor setup (occurrence :: h) = cursor setup h) :
    CursorDue setup (occurrence :: h) := by
  obtain ⟨hat, hidle⟩ := hdue
  constructor
  · rwa [hunderway, hrequested, hfailed, hcursor]
  · rwa [hunderway, due, hrequested, hfailed, hcursor]

/-- A change of the worker that does not move the cursor leaves it where it is due. -/
lemma CursorDue.of_cursor_eq (hdue : CursorDue setup h) (hcursor : w.cursor = cursor setup h) :
    CursorDue setup (.became w :: h) := by
  refine hdue.of_eq ?_ rfl rfl hcursor
  rw [underway?]
  cases hunderway : underway? h with
  | none => rfl
  | some height =>
    rw [hcursor, (hdue.underway height hunderway).2.2, Option.filter_some, beq_self_eq_true,
      if_pos rfl]

/-- Only a move past the epoch that is underway, which lies below the head, changes the cursor. -/
lemma Changes.cursor_eq_or_advances (hchanges : Changes setup h w) :
    w.cursor = cursor setup h ∨
      w.cursor = cursor setup h + 1 ∧ underway? h = some (cursor setup h) ∧
        ∃ head, headEpoch? h = some head ∧ cursor setup h < head := by
  cases hchanges with
  | advance hpart hunderway hhead hlt hnext =>
    rw [Epoch.next_of_lt hlt] at hnext
    exact .inr ⟨(Except.ok.inj hnext).symm, hunderway, _, hhead, hlt⟩
  | _ => exact .inl rfl

/-- A change of the worker leaves the cursor where it is due. -/
lemma CursorDue.changes (hdue : CursorDue setup h) (hchanges : Changes setup h w) :
    CursorDue setup (.became w :: h) := by
  rcases hchanges.cursor_eq_or_advances with hcursor | ⟨hcursor, hunderway, head, -, hlt⟩
  · exact hdue.of_cursor_eq hcursor
  · obtain ⟨hrequested, hfailed, -⟩ := hdue.underway _ hunderway
    -- the move ends the indexing of the epoch, since it leads past it
    have hended : underway? (.became w :: h) = none := by
      rw [underway?, hunderway, hcursor, Option.filter_some, if_neg]
      exact fun heq => Epoch.ne_add_one_of_lt hlt (beq_iff_eq.1 heq)
    constructor
    · rw [hended]
      rintro height ⟨⟩
    · intro _
      change w.cursor.toInt = due setup h
      rw [due, hrequested, hfailed, hcursor, Epoch.toInt_add_one hlt]
      rfl

/-- A tipset is requested where the cursor stands, while no epoch is underway. -/
lemma Conduct.eq_cursor_of_tipset {purpose : Purpose} {height : Epoch}
    (hconduct : Conduct setup h (.called purpose (.tipsetAt height))) :
    height = cursor setup h ∧ underway? h = none := by
  obtain ⟨-, hasks⟩ := hconduct
  cases hasks with
  | tipset hpart hidle => exact ⟨rfl, hidle⟩

/-- A call leaves the cursor where it is due. -/
lemma CursorDue.called (hdue : CursorDue setup h) {purpose : Purpose} {call : Call}
    (hconduct : Conduct setup h (.called purpose call)) :
    CursorDue setup (.called purpose call :: h) := by
  cases call with
  | tipsetAt height =>
    obtain ⟨hheight, -⟩ := hconduct.eq_cursor_of_tipset
    refine ⟨?_, ?_⟩
    · rintro _ ⟨rfl⟩
      exact ⟨rfl, rfl, hheight.symm⟩
    · rintro ⟨⟩
  | _ => exact hdue.of_eq rfl rfl rfl rfl

/-- A failed call leaves the cursor at the epoch that was underway, which becomes due again. -/
lemma CursorDue.failed (hdue : CursorDue setup h) (purpose : Purpose) (call : Call)
    (failure : Failure) : CursorDue setup (.answered purpose call (.error failure) :: h) := by
  cases hunderway : underway? h with
  | none =>
    refine hdue.of_eq hunderway.symm rfl ?_ rfl
    rw [hasFailed, hunderway]
    rfl
  | some height =>
    obtain ⟨hrequested, -, hcursor⟩ := hdue.underway height hunderway
    have hlast : requested? (.answered purpose call (.error failure) :: h) = some height :=
      hrequested
    have hfailed : hasFailed (.answered purpose call (.error failure) :: h) = true := by
      rw [hasFailed, hunderway]
      rfl
    refine ⟨?_, fun _ => ?_⟩
    · rintro height ⟨⟩
    · change (cursor setup h).toInt = _
      rw [due, hlast, hfailed, hcursor]
      rfl

/-- After proper conduct the cursor stands where it is due. -/
lemma cursorDue_of_along (hconduct : Along (Conduct setup) h) : CursorDue setup h := by
  induction h with
  | nil =>
    refine ⟨?_, fun _ => rfl⟩
    rintro height ⟨⟩
  | cons occurrence earlier ih =>
    obtain ⟨hoccurrence, hearlier⟩ := hconduct
    have hdue := ih hearlier
    cases occurrence with
    | called purpose call => exact hdue.called hoccurrence
    | answered purpose call reply =>
      cases reply with
      | ok answer => exact hdue.of_eq rfl rfl rfl rfl
      | error failure => exact hdue.failed purpose call failure
    | became w =>
      obtain hchanges | ⟨piece, proposal, -, -, rfl⟩ := hoccurrence.changes_or_starts
      · exact hdue.changes hchanges
      · exact hdue.of_cursor_eq rfl
    | brokeOff =>
      refine ⟨?_, fun _ => rfl⟩
      rintro height ⟨⟩
    | _ => exact hdue.of_eq rfl rfl rfl rfl

/-! ## The bound of the cursor -/

/-- Whether an epoch is bounded by the one where the scan starts or by the head of the chain as it
was read at some time. -/
def CursorBounded (setup : Setup) (h : History) (epoch : Epoch) : Prop :=
  epoch ≤ setup.config.scanStart ∨ ∃ head ∈ heads h, epoch ≤ head

/-- Further occurrences leave an epoch bounded. -/
lemma CursorBounded.cons {epoch : Epoch} (hbounded : CursorBounded setup h epoch)
    (occurrence : Occurrence) : CursorBounded setup (occurrence :: h) epoch := by
  refine hbounded.imp_right ?_
  rintro ⟨head, hmem, hle⟩
  exact ⟨head, mem_heads_cons occurrence hmem, hle⟩

/-- The cursor never exceeds both the epoch where the scan starts and all heads that were read. -/
lemma cursorBounded_of_along (hconduct : Along (Conduct setup) h) :
    CursorBounded setup h (cursor setup h) := by
  induction h with
  | nil => exact .inl (Int64.le_refl _)
  | cons occurrence earlier ih =>
    obtain ⟨hoccurrence, hearlier⟩ := hconduct
    have hbounded := ih hearlier
    cases occurrence with
    | became w =>
      obtain hchanges | ⟨piece, proposal, -, -, rfl⟩ := hoccurrence.changes_or_starts
      · obtain hcursor | ⟨hcursor, -, head, hhead, hlt⟩ := hchanges.cursor_eq_or_advances
        · exact (hcursor ▸ hbounded).cons _
        · refine .inr ⟨head, mem_heads_cons _ (mem_heads_of_headEpoch? hhead), ?_⟩
          change w.cursor ≤ head
          exact hcursor ▸ Epoch.add_one_le_of_lt hlt
      · exact hbounded.cons _
    | brokeOff => exact .inl (Int64.le_refl _)
    | _ => exact hbounded.cons _

/-! ## The tracking of the cursor -/

/-- How the cursor moves, at an occurrence and the history before it. -/
structure CursorTracked (setup : Setup) (h : History) (occurrence : Occurrence) : Prop where
  /-- Before the first request of a tipset the cursor is where the scan starts. -/
  starts : requested? h = none → cursor setup h = setup.config.scanStart
  /-- Unless the driver breaks off, the cursor stays or moves to the next epoch. -/
  moves : occurrence ≠ .brokeOff →
    cursor setup (occurrence :: h) = cursor setup h ∨
      (cursor setup (occurrence :: h)).toInt = (cursor setup h).toInt + 1
  /-- The cursor never exceeds both the epoch where the scan starts and all heads read so far. -/
  bounded : CursorBounded setup (occurrence :: h) (cursor setup (occurrence :: h))
  /-- The tipset that is requested is that of the epoch that is due. -/
  requests : ∀ purpose height, occurrence = .called purpose (.tipsetAt height) →
    height.toInt = due setup h
  /-- The driver breaks off because the node broke a call off, or after a reply to a call that was
  not made for the indexing: no move of the cursor overflows. -/
  unbroken : occurrence = .brokeOff →
    (∃ purpose call, h.head? = some (.called purpose call)) ∨
      ∃ answered, lastReply? h = some answered ∧ answered.purpose ≠ .indexing

/-- Proper conduct tracks the cursor. -/
lemma CursorTracked.of_conduct (hearlier : Along (Conduct setup) h)
    (hconduct : Conduct setup h occurrence) : CursorTracked setup h occurrence where
  starts := by
    intro hrequested
    have hdue := cursorDue_of_along hearlier
    cases hunderway : underway? h with
    | none =>
      have hcursor := hdue.idle hunderway
      rw [due, hrequested] at hcursor
      exact Int64.toInt_inj.1 hcursor
    | some height => cases hrequested.symm.trans (hdue.underway height hunderway).1
  moves := by
    intro hne
    cases occurrence with
    | became w =>
      obtain hchanges | ⟨piece, proposal, -, -, rfl⟩ := hconduct.changes_or_starts
      · refine hchanges.cursor_eq_or_advances.imp_right ?_
        rintro ⟨hcursor, -, head, -, hlt⟩
        exact (congrArg Int64.toInt hcursor).trans (Epoch.toInt_add_one hlt)
      · exact .inl rfl
    | brokeOff => exact absurd rfl hne
    | _ => exact .inl rfl
  bounded := cursorBounded_of_along ⟨hconduct, hearlier⟩
  requests := by
    rintro purpose height rfl
    obtain ⟨rfl, hidle⟩ := hconduct.eq_cursor_of_tipset
    exact (cursorDue_of_along hearlier).idle hidle
  unbroken := by
    rintro rfl
    obtain ⟨-, hbreaks⟩ := hconduct
    cases hbreaks with
    | panic hcalled => exact .inl ⟨_, _, hcalled⟩
    | gap hreply => exact .inr ⟨_, hreply, fun heq => by cases heq⟩
    | tries hpart hreply => exact .inr ⟨_, hreply, fun heq => by cases heq⟩

/-! ## A single run of the phase -/

namespace Indexing

open Activity

variable {clientDeals : List ClientDeal} {head height : Epoch}

/-- No stop is requested, and the program does not break off. -/
def unstopped : Contract where
  rely _ occurrence :=
    match occurrence with
    | .looked isStopping => isStopping = false
    | _ => True
  guarantee _ occurrence :=
    match occurrence with
    | .brokeOff => False
    | _ => True

/-- In the walk over the epochs: the head is read, and the cursor stands at the epoch that was
requested last. -/
structure StandsAt (head height : Epoch) (w : Worker) (h : History) : Prop where
  headed : headEpoch? h = some head
  requested : requested? h = some height
  cursor_eq : w.cursor = height

/-- A call has just failed, and its failure leaves the cursor where it was at the beginning if it
was one of the two calls before the walk, and else at the epoch that was requested last. -/
def GivenUp (start : Epoch) (w : Worker) (h : History) : Prop :=
  ∃ call failure, lastReply? h = some ⟨.indexing, call, .error failure⟩ ∧
    match call with
    | .chainHead => w.cursor = start
    | .clientDeals => w.cursor = start
    | _ => requested? h = some w.cursor

/-- Where a run of the index phase leaves the cursor: at the greater one of its beginning and the
head, or where the phase was given up. -/
def LeavesCursor (w w' : Worker) (h : History) : Except PhaseError Unit → Prop
  | .ok _ => ∃ head, headEpoch? h = some head ∧
      w'.cursor.toInt = max w.cursor.toInt head.toInt
  | .error _ => GivenUp w.cursor w' h

/-- Each step of the indexing of an epoch leaves the cursor where it stands. -/
lemma epochInvariant_standsAt (start : Epoch) :
    EpochInvariant unstopped setup clientDeals (StandsAt head height) fun _ => GivenUp start where
  read w h call hat hcall := by
    refine ⟨trivial, fun answer => ?_, fun failure => ⟨call, failure, rfl, ?_⟩⟩
    · cases call with
      | parentMessages | preCommit | provenSector | marketDeal =>
        exact ⟨hat.headed, hat.requested, hat.cursor_eq⟩
      | _ => cases hcall
    · cases call with
      | parentMessages | preCommit | provenSector | marketDeal =>
        exact hat.cursor_eq ▸ hat.requested
      | _ => cases hcall
  logged w h event hat := ⟨trivial, hat.headed, hat.requested, hat.cursor_eq⟩
  folded w h dealId deal hat _ _ pieces _ := ⟨trivial, hat.headed, hat.requested, hat.cursor_eq⟩

/-- The walk over the epochs that are left below the head moves the cursor up to the head. -/
lemma meets_indexEpochs_cursor (count : Nat) (start : Epoch) (hhead : headEpoch? h = some head)
    (hcount : count = w.cursor.stepsTo head) :
    Meets unstopped (indexEpochs setup clientDeals count) w h
      (fun _ w' h' => headEpoch? h' = some head ∧
        w'.cursor.toInt = max w.cursor.toInt head.toInt)
      fun _ => GivenUp start := by
  induction count generalizing w h with
  | zero =>
    refine meets_pure.2 ⟨hhead, ?_⟩
    rw [Epoch.stepsTo] at hcount
    omega
  | succ count ih =>
    have hlt : w.cursor < head := Epoch.stepsTo_pos_iff.1 (hcount ▸ Nat.succ_pos count)
    have hcursor := Epoch.toInt_add_one hlt
    -- the rest of the walk, once the tipset of the epoch is indexed
    have hrest : ∀ w' h', StandsAt head w.cursor w' h' →
        Meets unstopped (advance >>= fun _ => indexEpochs setup clientDeals count) w' h'
          (fun _ w' h' => headEpoch? h' = some head ∧
            w'.cursor.toInt = max w.cursor.toInt head.toInt) fun _ => GivenUp start := by
      intro w' h' hat
      have hheaded : headEpoch? (.became { w' with cursor := w.cursor + 1 } :: h') = some head :=
        hat.headed
      rw [meets_bind, meets_advance_of_lt (hat.cursor_eq ▸ hlt), hat.cursor_eq]
      refine ⟨trivial, (ih hheaded ?_).mono ?_ fun _ _ _ => id⟩
      · rw [Epoch.stepsTo_add_one hlt, ← hcount, Nat.add_sub_cancel]
      · rintro ⟨⟩ w'' h'' ⟨hheaded', hmoved⟩
        refine ⟨hheaded', ?_⟩
        have hlt' := Int64.lt_iff_toInt_lt.1 hlt
        rw [hmoved, hcursor]
        omega
    simp only [indexEpochs, meets_bind, meets_stopRequested]
    rintro isStopping (rfl : isStopping = false)
    refine ⟨trivial, ?_⟩
    simp only [Bool.false_eq_true, ↓reduceIte, meets_bind, meets_get]
    refine meets_chainRead.2 ⟨trivial, fun tipset _ => ?_, fun failure _ => ⟨_, failure, rfl, rfl⟩⟩
    have hread : StandsAt head w.cursor w
        (.answered .indexing (.tipsetAt w.cursor) (.ok tipset) ::
          .called .indexing (.tipsetAt w.cursor) :: .looked false :: h) :=
      ⟨hhead, rfl, rfl⟩
    split
    · rw [meets_bind]
      exact ((epochInvariant_standsAt start).meets_indexTipset hread _ tipset).mono
        (fun _ => hrest) fun _ _ _ => id
    · exact hrest _ _ hread

/-- The index phase leaves the cursor at the head or where it was given up. -/
lemma meets_run_cursor (setup : Setup) (w : Worker) :
    Meets unstopped (run setup) w [] (fun value w' h' => LeavesCursor w w' h' (.ok value))
      fun error w' h' => LeavesCursor w w' h' (.error error) := by
  simp only [run, meets_bind, meets_enter]
  refine ⟨trivial, meets_chainRead.2 ⟨trivial, fun head _ => ?_,
    fun failure _ => ⟨_, failure, rfl, rfl⟩⟩⟩
  refine meets_chainRead.2 ⟨trivial, fun clientDeals _ => ?_,
    fun failure _ => ⟨_, failure, rfl, rfl⟩⟩
  refine meets_get.2 ((meets_indexEpochs_cursor _ w.cursor rfl rfl).mono ?_ fun _ _ _ => id)
  exact fun _ _ _ hmoved => ⟨head.epoch, hmoved⟩

/-- Where no stop is requested, any surroundings supply what is relied on. -/
lemma supplies_unstopped {σ : Type} (surroundings : Surroundings σ) :
    surroundings.Supplies false unstopped :=
  ⟨fun _ _ _ _ _ _ _ => trivial, fun _ _ _ _ => trivial, fun _ => rfl⟩

end Indexing

/-- **The cursor over a whole life.**  In each life of a replicator, whatever its surroundings
supply, the cursor starts where configured, moves by single epochs that never overflow and never
exceeds the heads that were read, and the tipsets are requested epoch by epoch, one again only if
its indexing failed.  Moreover, whatever the state of the worker, a run of the index phase that is
not stopped moves the cursor up to the head, or leaves it at the epoch whose indexing failed; and it
ends if the node replies. -/
theorem Life.cursor_tracked {events : List Event} {replicator : Replicator}
    (life : Life setup events replicator) :
    Along (CursorTracked setup) (trace events) ∧
      ∀ {σ : Type} (surroundings : Surroundings σ) (state : σ) (w : Worker),
        let run := Indexing.runFrom setup surroundings false state w []
        (∀ result w', run.halt = .done (result, w') →
          Indexing.LeavesCursor w w' run.trace result) ∧
        (surroundings.Replies → ∃ result w', run.halt = .done (result, w')) := by
  refine ⟨life.conduct.imp_of_along fun _ _ => CursorTracked.of_conduct, ?_⟩
  intro σ surroundings state w
  have hmeets := Indexing.meets_run_cursor setup w
  have hsupplies := Indexing.supplies_unstopped surroundings
  refine ⟨fun result w' hdone => ?_, fun hreplies => ?_⟩
  · have hpost := Program.Meets.post_of_execute hmeets hsupplies hdone
    cases result <;> exact hpost
  · obtain ⟨⟨result, w'⟩, hdone⟩ :=
      Program.Meets.exists_done hmeets hsupplies hreplies (fun _ => id) state
    exact ⟨result, w', hdone⟩

/-- The cursor is tracked in a life with two runs of the index phase, and over the same chain a run
of the phase on its own ends where it should. -/
theorem Life.cursor_tracked_crowded :
    ∃ events, Life Sample.crowdedSetup events Sample.crowdedSession.replicator ∧
      requested? (trace events) = some 10 ∧ cursor Sample.crowdedSetup (trace events) = 11 ∧
      Along (CursorTracked Sample.crowdedSetup) (trace events) ∧
      let w := Worker.fresh Sample.crowdedSetup.config
      let run := Indexing.runFrom Sample.crowdedSetup (.answering (Sample.crowdedAnswer true)) false
        () w []
      ∃ result w', run.halt = .done (result, w') ∧
        Indexing.LeavesCursor w w' run.trace result := by
  obtain ⟨events, life, htrace⟩ := Sample.showsLife_crowdedSession
  obtain ⟨htracked, hruns⟩ := life.cursor_tracked
  obtain ⟨hleaves, hends⟩ := hruns (.answering (Sample.crowdedAnswer true)) () (.fresh _)
  obtain ⟨result, w', hdone⟩ := hends (Surroundings.replies_answering _)
  refine ⟨events, life, ?_, ?_, htracked, result, w', hdone, hleaves result w' hdone⟩
  · rw [htrace]
    decide +kernel
  · rw [htrace]
    decide +kernel

end PieceReplication
