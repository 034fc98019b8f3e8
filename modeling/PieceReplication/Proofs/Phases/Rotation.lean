import PieceReplication.Proofs.Conduct.Dealing
import PieceReplication.Proofs.Conduct.Retrieval
import PieceReplication.Proofs.Inventory.Rotation
import PieceReplication.Proofs.Lifecycle.Pace

/-!
# Walks that stop before their end

The sweep of the deals and both scans walk over the keys that a map has at the beginning of the part
(`History.snapshot`).  In the middle of such a walk the keys of the map are turned (`Midway`): those
that are left come first.  One step keeps that, whatever it does to the key that is visited, and so
does the walk.  If it stops early, at a failed call, at a miner that is not initialized or at the
cap, that is at the key for which the last call was made (`StoppedAt`).

The deals are asked about in the order of the walk.  This is said by a contract (`rotation`), since
it has to be said of a sweep that does not come to its end as well.
-/

namespace PieceReplication

open History Activity BoundedMap

/-! ## The contract -/

/-- The keys of the map that a part of a tick walks over. -/
def Part.keys (w : Worker) : Part → List Cid
  | indexing => []
  | retrievalSweep => w.retrievals.keys
  | retrievalScan => w.pieces.keys
  | dealSweep => w.deals.keys
  | dealScan => w.pieces.keys

/-- The piece that calls are made for. -/
def Purpose.piece? : Purpose → Option Cid
  | syncing => none
  | indexing => none
  | retrievalSweep piece => some piece
  | retrievalScan piece _ => some piece
  | dealSweep piece => some piece
  | dealScan piece => some piece

/-- The keys that the present part of the tick walks over, as they were at its beginning. -/
@[simp] def History.snapshot (config : Config) : History → List Cid
  | [] => []
  | occurrence :: earlier =>
    match occurrence with
    | .entered part => part.keys (worker config earlier)
    | .published _ => []
    | .brokeOff => []
    | _ => snapshot config earlier

/-- The pieces whose entries were asked about in the present part of the tick. -/
@[simp] def History.consulted : History → List Cid
  | [] => []
  | occurrence :: earlier =>
    match occurrence with
    | .called purpose _ => (reviews? purpose).toList ++ consulted earlier
    | .entered _ => []
    | .published _ => []
    | .brokeOff => []
    | _ => consulted earlier

/-- No tick has come to its end. -/
def History.Unended (h : History) : Prop :=
  ∀ occurrence ∈ h, occurrence.ends = false

section Rotation

variable (setup : Setup)

/-- In the sweep of the deals the node has told about some keys, or their pieces are gone. -/
def ToldAbout (h : History) (keys : List Cid) : Prop :=
  ∀ key ∈ keys, key ∈ reviewed h ∨ key ∉ (worker setup.config h).pieces.keys

/-- In the sweep of the deals it is the turn of a key: the node has told about all keys before it,
and was asked about no other. -/
structure HasTurn (h : History) (key : Cid) : Prop where
  part_eq : part? h = some .dealSweep
  split : ∃ before after, snapshot setup.config h = before ++ key :: after ∧
    ToldAbout setup h before ∧ consulted h ⊆ before

/-- Whether the deals are asked about in turn, at an occurrence and the history before it.  Once a
worker is taken over, nothing changes outside of the parts of the tick. -/
def Rotates (h : History) : Occurrence → Prop
  | .called purpose (.dealInfo _) => ∃ key, purpose = .dealSweep key ∧ HasTurn setup h key
  | .entered .dealSweep => Unended h
  | .entered .dealScan =>
    part? h = some .dealSweep ∧ ToldAbout setup h (snapshot setup.config h)
  | .became _ => part? h = none → h = []
  | _ => True

/-- The contract that the deals are asked about in turn, whatever the surroundings supply. -/
def rotation : Contract where
  rely _ _ := True
  guarantee := Rotates setup

/-- In a part of a tick that walks over the keys of a map, with some keys visited and some left. -/
structure Midway (part : Part) (visited left : List Cid) (w : Worker) (h : History) : Prop
    extends Shows setup Unended w h where
  part_eq : part? h = some part
  snapshot_eq : snapshot setup.config h = visited ++ left
  rotated : Rotated visited left (part.keys w)

/-- The walk of a part has stopped at a key, the one for which the last call was made: the keys that
it did not get to come first. -/
structure StoppedAt (part : Part) (key : Cid) (w : Worker) (h : History) : Prop where
  asked : ∃ last, lastReply? h = some last ∧ last.purpose.piece? = some key
  rotated : ∃ before after, snapshot setup.config h = before ++ key :: after ∧
    Rotated (before ++ [key]) after (part.keys w)

/-- The walk of a part has stopped at some key. -/
structure Stops (part : Part) (w : Worker) (h : History) : Prop extends
    Shows setup Unended w h where
  part_eq : part? h = some part
  stoppedAt : ∃ key, StoppedAt setup part key w h

/-- In a phase that ends with the walk of a part: if the walk had to stop early, it has stopped at
some key. -/
structure WalkEnds (part : Part) (isEarly : Prop) (w : Worker) (h : History) : Prop extends
    Shows setup Unended w h where
  stoppedAt : part? h = some part → isEarly → ∃ key, StoppedAt setup part key w h

end Rotation

variable {setup : Setup} {w w' : Worker} {h : History} {part : Part} {visited left : List Cid}
  {key : Cid}

/-! ## Steps -/

/-- Whether an occurrence leaves the worker and the part of the tick as they are. -/
def Occurrence.isStill : Occurrence → Bool
  | .entered _ | .published _ | .became _ | .brokeOff => false
  | _ => true

/-- What does not end a tick leaves it without an end. -/
lemma History.Unended.cons (hunended : Unended h) {occurrence : Occurrence}
    (hends : occurrence.ends = false) : Unended (occurrence :: h) :=
  List.forall_mem_cons.2 ⟨hends, hunended⟩

namespace Midway

/-- At its beginning a walk has all keys left. -/
lemma entered (hs : Shows setup Unended w h) (part : Part) :
    Midway setup part [] (part.keys w) w (.entered part :: h) where
  worker_eq := hs.worker_eq
  holds := hs.holds.cons rfl
  part_eq := rfl
  snapshot_eq := by rw [snapshot, hs.worker_eq, List.nil_append]
  rotated := (List.append_nil _).symm

/-- What changes nothing leaves the walk where it is. -/
lemma still (hs : Midway setup part visited left w h) {occurrence : Occurrence}
    (hstill : occurrence.isStill = true) :
    Midway setup part visited left w (occurrence :: h) := by
  cases occurrence with
  | entered | published | became | brokeOff => cases hstill
  | _ => exact ⟨⟨hs.worker_eq, hs.holds.cons rfl⟩, hs.part_eq, hs.snapshot_eq, hs.rotated⟩

/-- A change in a walk may turn its keys further. -/
lemma became (hs : Midway setup part visited left w h) {visited' left' : List Cid}
    (hsplit : visited' ++ left' = visited ++ left)
    (hrotated : Rotated visited' left' (part.keys w')) :
    Rotates setup h (.became w') ∧ Midway setup part visited' left' w' (.became w' :: h) := by
  refine ⟨fun hnone => ?_, ⟨rfl, hs.holds.cons rfl⟩, hs.part_eq,
    hs.snapshot_eq.trans hsplit.symm, hrotated⟩
  rw [hs.part_eq] at hnone
  cases hnone

/-- A change that visits the next key. -/
lemma next (hs : Midway setup part visited (key :: left) w h) (w' : Worker)
    (hrotated : Rotated (visited ++ [key]) left (part.keys w')) :
    Rotates setup h (.became w') ∧
      Midway setup part (visited ++ [key]) left w' (.became w' :: h) :=
  hs.became (by rw [List.append_assoc, List.singleton_append]) hrotated

/-- A change that leaves the place of the walk. -/
lemma changed (hs : Midway setup part visited left w h) (w' : Worker)
    (hrotated : Rotated visited left (part.keys w')) :
    Rotates setup h (.became w') ∧ Midway setup part visited left w' (.became w' :: h) :=
  hs.became rfl hrotated

/-- A walk stops at the key that it visited last. -/
lemma stoppedAt (hs : Midway setup part (visited ++ [key]) left w h) {last : Answered}
    (hlast : lastReply? h = some last) (hpiece : last.purpose.piece? = some key) :
    StoppedAt setup part key w h := by
  refine ⟨⟨last, hlast, hpiece⟩, visited, left, ?_, hs.rotated⟩
  rw [hs.snapshot_eq, List.append_assoc, List.singleton_append]

/-- A walk that stops does so at some key. -/
lemma stops (hs : Midway setup part (visited ++ [key]) left w h) {last : Answered}
    (hlast : lastReply? h = some last) (hpiece : last.purpose.piece? = some key) :
    Stops setup part w h :=
  ⟨hs.toShows, hs.part_eq, key, hs.stoppedAt hlast hpiece⟩

end Midway

/-- In a part of a tick, no tick having come to its end. -/
structure Amid (part : Part) (h : History) : Prop where
  part_eq : part? h = some part
  unended : Unended h

/-- A part begins. -/
lemma Amid.entered (hs : Shows setup Unended w h) (part : Part) :
    Shows setup (Amid part) w (.entered part :: h) :=
  ⟨hs.worker_eq, rfl, hs.holds.cons rfl⟩

/-- In a part no tick has come to its end. -/
lemma Amid.shows (hs : Shows setup (Amid part) w h) : Shows setup Unended w h :=
  ⟨hs.worker_eq, hs.holds.unended⟩

/-- What is done in a part that asks about no deal is as in a rotation. -/
lemma Part.keeps_amid (hpart : part ≠ .dealSweep) : part.Keeps (rotation setup) (Amid part) where
  step h occurrence hs hallowed := by
    cases occurrence with
    | called purpose call =>
      refine ⟨?_, hs.part_eq, hs.unended.cons rfl⟩
      cases call with
      | dealInfo proposal =>
        cases part with
        | dealSweep => exact absurd rfl hpart
        | _ => cases hallowed
      | _ => trivial
    | became w =>
      refine ⟨fun hnone => ?_, hs.part_eq, hs.unended.cons rfl⟩
      rw [hs.part_eq] at hnone
      cases hnone
    | entered | published | brokeOff | looked => cases hallowed
    | _ => exact ⟨trivial, hs.part_eq, hs.unended.cons rfl⟩
  broke _ _ := trivial

/-- In another part than the one of the walk there is nothing to be said. -/
lemma Amid.walkEnds {walk : Part} {isEarly : Prop} (hs : Shows setup (Amid part) w h)
    (hne : part ≠ walk) : WalkEnds setup walk isEarly w h :=
  ⟨Amid.shows hs, fun hwalk => absurd (Option.some.inj (hs.holds.part_eq.symm.trans hwalk)) hne⟩

/-- A walk that stopped somewhere has stopped at some key. -/
lemma Stops.walkEnds {isEarly : Prop} (hs : Stops setup part w h) :
    WalkEnds setup part isEarly w h :=
  ⟨hs.toShows, fun _ _ => hs.stoppedAt⟩

/-! ## The retrieval phase -/

namespace Retrieval

/-- In the scan, within the cap. -/
structure Turning (setup : Setup) (visited left : List Cid) (w : Worker) (h : History) : Prop
    extends Midway setup .retrievalScan visited left w h where
  size_le : w.retrievals.size ≤ setup.config.retrieveParallel.toNat

/-- How the visit of a piece leaves the scan: further on, unless the walk stops. -/
def Turned (setup : Setup) (visited left : List Cid) : (isFull : Bool) → Worker → History → Prop
  | true => Stops setup .retrievalScan
  | false => Turning setup visited left

/-- What changes nothing leaves the scan where it is. -/
lemma Turning.still (hs : Turning setup visited left w h) {occurrence : Occurrence}
    (hstill : occurrence.isStill = true) : Turning setup visited left w (occurrence :: h) :=
  ⟨hs.toMidway.still hstill, hs.size_le⟩

/-- The count of a failed query leaves the scan where it is. -/
lemma rotates_takeFailure (hs : Turning setup (visited ++ [key]) left w h) (index : Nat)
    (record : DealRecord) (failure : Failure) :
    Meets (rotation setup) (takeFailure setup key index record failure) w h
      (fun _ => Turning setup (visited ++ [key]) left) fun _ => Stops setup .retrievalScan := by
  simp only [takeFailure, meets_bind, meets_count, meets_checked, meets_update, meets_log]
  refine ⟨trivial, fun tries _ => ?_, fun _ _ => trivial⟩
  have hcounted : Midway setup .retrievalScan (visited ++ [key]) left w
      (.counted .retrievalQueryFailures :: h) := hs.toMidway.still rfl
  obtain ⟨hbecame, hchanged⟩ := hcounted.changed
    { w with pieces := w.pieces.modify key (·.setTries index tries) } (rotated_modify hs.rotated)
  have htried : Turning setup (visited ++ [key]) left _ _ := ⟨hchanged, hs.size_le⟩
  refine ⟨hbecame, trivial, ?_⟩
  split
  · exact meets_log.2 ⟨trivial, (htried.still rfl).still rfl⟩
  · exact meets_pure.2 (htried.still rfl)

/-- The taking of an answer leaves the walk where it is. -/
lemma rotates_takeResponse (hs : Midway setup .retrievalScan (visited ++ [key]) left w h)
    {last : Answered} (hlast : lastReply? h = some last) (record : DealRecord)
    (response : QueryResponse) :
    Meets (rotation setup) (takeResponse key record response) w h
      (fun _ w' h' => Midway setup .retrievalScan (visited ++ [key]) left w' h' ∧
        lastReply? h' = some last)
      fun _ => Stops setup .retrievalScan := by
  have hlogged : Midway setup .retrievalScan (visited ++ [key]) left w (.logged
      (.queried record.provider record.root record.tries response.status) :: h) := hs.still rfl
  simp only [takeResponse, dropRetrieval, meets_bind, meets_log]
  refine ⟨trivial, ?_⟩
  split
  · obtain ⟨hbecame, hchanged⟩ := hlogged.changed
      { w with retrievals := w.retrievals.erase key } hs.rotated
    exact meets_update.2 ⟨hbecame, hchanged, hlast⟩
  · obtain ⟨hbecame, hchanged⟩ := hlogged.changed
      { w with retrievals := w.retrievals.insert key response } hs.rotated
    exact meets_update.2 ⟨hbecame, hchanged, hlast⟩

/-- The try of a deal of the piece that is visited leaves the scan where it is. -/
lemma rotates_tryRecord (hs : Turning setup (visited ++ [key]) left w h) (index : Nat)
    (record : DealRecord) :
    Meets (rotation setup) (tryRecord setup key index record) w h
      (Turned setup (visited ++ [key]) left) fun _ => Stops setup .retrievalScan := by
  have hanswered : ∀ {h}, Turning setup (visited ++ [key]) left w h →
      ∀ (call : Call) (reply : Reply call), Turning setup (visited ++ [key]) left w
        (.answered (.retrievalScan key index) call reply ::
          .called (.retrievalScan key index) call :: h) :=
    fun hs call reply => (hs.still rfl).still rfl
  simp only [tryRecord, isPending, dropRetrieval, meets_bind]
  refine meets_request.2 ⟨trivial, fun isLocal _ => ?_,
    fun failure _ => (hanswered hs _ _).stops rfl rfl⟩
  have hprobed := hanswered hs (.hasLocal record.root) (.ok isLocal)
  cases isLocal with
  | true =>
    simp only [↓reduceIte, meets_bind, meets_update, meets_pure]
    obtain ⟨hbecame, hchanged⟩ := hprobed.changed
      { w with retrievals := w.retrievals.erase key } hs.rotated
    exact ⟨hbecame, hchanged, Nat.le_trans size_erase_le hs.size_le⟩
  | false =>
    simp only [Bool.false_eq_true, ↓reduceIte, meets_bind, meets_get, meets_pure]
    split
    · exact meets_pure.2 hprobed
    · rw [meets_bind, meets_attempt]
      refine ⟨trivial, fun reply _ => ?_⟩
      have hqueried := hanswered hprobed (.query record.root record.provider) reply
      cases reply with
      | ok response =>
        simp only [meets_bind]
        refine (rotates_takeResponse hqueried.toMidway rfl record response).mono ?_ fun _ _ _ => id
        rintro ⟨⟩ w' h' ⟨hmidway, hlast⟩
        exact meets_isFull trivial (fun _ => (hmidway.still rfl).stops hlast rfl)
          fun hsize => ⟨hmidway, hsize⟩
      | error failure =>
        simp only [meets_bind, meets_pure]
        exact rotates_takeFailure hqueried index record failure

/-- The visit of the next piece leads the scan further on. -/
lemma rotates_visit (hs : Turning setup visited (key :: left) w h) :
    Meets (rotation setup) (visit setup key) w h (Turned setup (visited ++ [key]) left)
      fun _ => Stops setup .retrievalScan := by
  obtain ⟨hbecame, hnext⟩ :=
    hs.next { w with pieces := w.pieces.touch key } (rotated_touch hs.rotated)
  have htouched : Turning setup (visited ++ [key]) left _ _ := ⟨hnext, hs.size_le⟩
  simp only [visit, findPiece, meets_bind, meets_get, meets_update, meets_pure]
  refine ⟨hbecame, ?_⟩
  split
  · next piece _ =>
    rw [meets_bind]
    refine meets_chooseRecord_of_reported (fun _ => trivial) (fun _ => htouched)
      fun h' hreported choice _ => ⟨trivial, ?_⟩
    have hreported : Turning setup (visited ++ [key]) left
        { w with pieces := w.pieces.touch key } h' := by
      rcases hreported with rfl | ⟨event, rfl⟩
      · exact htouched
      · exact htouched.still rfl
    exact rotates_tryRecord (hreported.still rfl) _ _
  · exact meets_pure.2 htouched

/-- The scan goes through all keys, unless it stops at one. -/
lemma rotates_scan (hs : Turning setup visited left w h) :
    Meets (rotation setup) (scan setup left) w h
      (fun _ w' h' => (∃ visited, Turning setup visited [] w' h') ∨
        Stops setup .retrievalScan w' h')
      fun _ => Stops setup .retrievalScan := by
  induction left generalizing visited w h with
  | nil => exact .inl ⟨visited, hs⟩
  | cons key rest ih =>
    rw [scan, meets_bind]
    refine (rotates_visit hs).mono (fun isFull w' h' hturned => ?_) fun _ _ _ => id
    cases isFull with
    | true => exact .inr hturned
    | false => exact ih hturned

/-- The retrieval phase turns the inventory, if its scan has to stop early. -/
lemma rotates_run (hs : Shows setup Unended w h) :
    Meets (rotation setup) (run setup) w h
      (fun _ w' =>
        WalkEnds setup .retrievalScan (setup.config.retrieveParallel.toNat < w'.retrievals.size) w')
      fun _ => WalkEnds setup .retrievalScan True := by
  have hne : Part.retrievalSweep ≠ .retrievalScan := by decide
  have hkeeps : Part.retrievalSweep.Keeps (rotation setup) (Amid .retrievalSweep) :=
    Part.keeps_amid (by decide)
  simp only [run, meets_bind, meets_get, meets_enter]
  refine ⟨trivial, ?_⟩
  refine ((Confined.forM confined_sweepKey _).meets hkeeps (Amid.entered hs _)).mono
    (fun _ w₁ h₁ hswept => ?_) fun _ _ _ hgiven => Amid.walkEnds hgiven hne
  refine meets_isFull trivial (fun _ => ?_) fun hsize => ?_
  · have hlogged := hkeeps.step h₁ (.logged (.retrievalsFull w₁.retrievals.size)) hswept.holds
      trivial
    exact Amid.walkEnds ⟨hswept.worker_eq, hlogged.2⟩ hne
  · simp only [Bool.false_eq_true, ↓reduceIte, meets_bind, meets_get, meets_enter]
    refine ⟨trivial, ?_⟩
    have hscan : Turning setup [] w₁.pieces.keys w₁ (.entered .retrievalScan :: h₁) :=
      ⟨Midway.entered (Amid.shows hswept) .retrievalScan, hsize⟩
    refine (rotates_scan hscan).mono ?_ fun _ _ _ => Stops.walkEnds
    rintro ⟨⟩ w' h' (⟨visited, hdone⟩ | hstops)
    · exact ⟨hdone.toShows, fun _ hfull => absurd hfull (Nat.not_lt.2 hdone.size_le)⟩
    · exact hstops.walkEnds

end Retrieval

/-! ## The deal phase -/

namespace Dealing

/-- In the sweep: the node has told about the keys that were visited, and was asked about no
others. -/
structure Reviewing (setup : Setup) (visited left : List Cid) (w : Worker) (h : History) : Prop
    extends Midway setup .dealSweep visited left w h where
  told : ToldAbout setup h visited
  consulted_subset : consulted h ⊆ visited

/-- The sweep has stopped at the deal of a key: the node failed to tell about it, and it is still
followed. -/
structure FailsAt (setup : Setup) (key : Cid) (w : Worker) (h : History) : Prop extends
    StoppedAt setup .dealSweep key w h where
  failed : ∃ proposal failure, w.deals.find? key = some proposal ∧
    lastReply? h = some ⟨.dealSweep key, .dealInfo proposal, .error failure⟩

/-- The sweep has stopped at some deal. -/
structure SweepStops (setup : Setup) (w : Worker) (h : History) : Prop where
  part_eq : part? h = some .dealSweep
  failsAt : ∃ key, FailsAt setup key w h

/-- The phase has been given up, in the sweep or in the scan. -/
structure StopsEarly (setup : Setup) (w : Worker) (h : History) : Prop where
  sweep : part? h = some .dealSweep → ∃ key, FailsAt setup key w h
  scan : part? h = some .dealScan → ∃ key, StoppedAt setup .dealScan key w h

/-- A report leaves the sweep where it is. -/
lemma Reviewing.logged (hs : Reviewing setup visited left w h) (event : LogEvent) :
    Reviewing setup visited left w (.logged event :: h) :=
  ⟨hs.toMidway.still rfl, hs.told, hs.consulted_subset⟩

/-- A change that leaves the place of the sweep and brings in no piece. -/
lemma Reviewing.changed (hs : Reviewing setup visited left w h) (w' : Worker)
    (hrotated : Rotated visited left w'.deals.keys)
    (hpieces : ∀ other ∈ w'.pieces.keys, other ∈ w.pieces.keys) :
    Rotates setup h (.became w') ∧ Reviewing setup visited left w' (.became w' :: h) := by
  obtain ⟨hbecame, hchanged⟩ := hs.toMidway.changed w' hrotated
  refine ⟨hbecame, hchanged, fun other hother => ?_, hs.consulted_subset⟩
  refine (hs.told other hother).imp_right fun hgone hmem => hgone ?_
  rw [hs.worker_eq]
  exact hpieces other hmem

/-- The next key is visited as one whose piece is gone. -/
lemma Reviewing.gone (hs : Reviewing setup visited (key :: left) w h)
    (hmem : key ∉ w.pieces.keys) :
    Rotates setup h (.became { w with deals := w.deals.erase key }) ∧
      Reviewing setup (visited ++ [key]) left { w with deals := w.deals.erase key }
        (.became { w with deals := w.deals.erase key } :: h) := by
  obtain ⟨hbecame, hnext⟩ :=
    hs.toMidway.next { w with deals := w.deals.erase key } (rotated_erase_next hs.rotated)
  refine ⟨hbecame, hnext, fun other hother => ?_, fun other hother => ?_⟩
  · rcases List.mem_append.1 hother with hvisited | hkey
    · exact hs.worker_eq ▸ hs.told other hvisited
    · rw [List.mem_singleton.1 hkey]
      exact .inr hmem
  · exact List.mem_append_left _ (hs.consulted_subset hother)

/-- After the look-up of the next key the node still has told about those before it. -/
lemma Reviewing.toldAbout (hs : Reviewing setup visited left w h) (key : Cid) :
    ToldAbout setup (.became { w with deals := w.deals.touch key } :: h) visited :=
  fun other hother => hs.worker_eq ▸ hs.told other hother

/-- After its look-up it is the turn of the next key. -/
lemma Reviewing.hasTurn (hs : Reviewing setup visited (key :: left) w h) :
    HasTurn setup (.became { w with deals := w.deals.touch key } :: h) key :=
  ⟨hs.part_eq, visited, left, hs.snapshot_eq, hs.toldAbout key, hs.consulted_subset⟩

/-- The next key is visited once its deal is told about. -/
lemma Reviewing.answered (hs : Reviewing setup visited (key :: left) w h) (proposal : Cid)
    (info : (Call.dealInfo proposal).Answer) :
    Reviewing setup (visited ++ [key]) left { w with deals := w.deals.touch key }
      (.answered (.dealSweep key) (.dealInfo proposal) (.ok info) ::
        .called (.dealSweep key) (.dealInfo proposal) ::
        .became { w with deals := w.deals.touch key } :: h) := by
  obtain ⟨-, hnext⟩ :=
    hs.toMidway.next { w with deals := w.deals.touch key } (rotated_touch hs.rotated)
  refine ⟨(hnext.still rfl).still rfl, fun other hother => ?_, ?_⟩
  · rcases List.mem_append.1 hother with hvisited | hkey
    · exact (hs.toldAbout key other hvisited).imp_left (List.mem_cons_of_mem _)
    · rw [List.mem_singleton.1 hkey]
      exact .inl List.mem_cons_self
  · refine List.cons_subset.2 ⟨List.mem_concat_self, fun other hother => ?_⟩
    exact List.mem_append_left _ (hs.consulted_subset hother)

/-- The review of the next deal leads the sweep further on. -/
lemma rotates_sweepKey (hs : Reviewing setup visited (key :: left) w h) :
    Meets (rotation setup) (sweepKey key) w h (fun _ => Reviewing setup (visited ++ [key]) left)
      fun _ => SweepStops setup := by
  have hmem : key ∈ w.deals.keys := mem_keys_of_rotated hs.rotated
  simp only [sweepKey, dropPiece, dropDeal, meets_bind, meets_get]
  split
  · obtain ⟨hbecame, htouched⟩ :=
      hs.toMidway.next { w with deals := w.deals.touch key } (rotated_touch hs.rotated)
    simp only [meets_bind, meets_update]
    refine ⟨hbecame, ?_⟩
    split
    · next proposal hproposal =>
      rw [meets_bind]
      refine meets_request.2 ⟨⟨key, rfl, hs.hasTurn⟩, fun info _ => ?_, fun failure _ => ?_⟩
      · have hanswered := hs.answered proposal info
        split
        · simp only [meets_bind, meets_log, meets_update]
          obtain ⟨hdropped, hs₁⟩ := (hanswered.logged (.replicated key proposal)).changed
            { w with
              pieces := w.pieces.erase key
              deals := w.deals.touch key } hanswered.rotated
            fun other hother => (mem_keys_erase.1 hother).2
          obtain ⟨hreleased, hs₂⟩ := hs₁.changed
            { w with
              pieces := w.pieces.erase key
              deals := (w.deals.touch key).erase key } (rotated_erase hanswered.rotated)
            fun _ => id
          exact ⟨trivial, hdropped, hreleased, hs₂⟩
        · split
          · simp only [meets_bind, meets_log, meets_update]
            have hlogged := hanswered.logged (.dealEnded key proposal info.state info.message)
            obtain ⟨hreleased, hs'⟩ := hlogged.changed
              { w with deals := (w.deals.touch key).erase key } (rotated_erase hanswered.rotated)
              fun _ => id
            exact ⟨trivial, hreleased, hs'⟩
          · exact meets_pure.2 hanswered
      · have hfailed : Midway setup .dealSweep (visited ++ [key]) left _
            (.answered (.dealSweep key) (.dealInfo proposal) (.error failure) ::
              .called (.dealSweep key) (.dealInfo proposal) :: _) := (htouched.still rfl).still rfl
        exact ⟨hfailed.part_eq, key, hfailed.stoppedAt rfl rfl, proposal, failure,
          find?_touch.trans hproposal, rfl⟩
    · next hnone =>
      obtain ⟨proposal, hproposal⟩ := exists_find? hmem
      exact absurd hproposal (hnone proposal)
  · next hcontains =>
    simp only [meets_bind, meets_update, meets_pure]
    exact hs.gone fun hmem => hcontains (contains_iff.2 hmem)

/-- In the scan, within the cap. -/
structure Turning (setup : Setup) (visited left : List Cid) (w : Worker) (h : History) : Prop
    extends Midway setup .dealScan visited left w h where
  size_le : w.deals.size ≤ setup.config.dealParallel.toNat

/-- How the visit of a piece leaves the scan: further on, unless the walk stops. -/
def Turned (setup : Setup) (visited left : List Cid) : Visit → Worker → History → Prop
  | .full => Stops setup .dealScan
  | .passed => Turning setup visited left
  | .minerChecked => Turning setup visited left

/-- What changes nothing leaves the scan where it is. -/
lemma Turning.still (hs : Turning setup visited left w h) {occurrence : Occurrence}
    (hstill : occurrence.isStill = true) : Turning setup visited left w (occurrence :: h) :=
  ⟨hs.toMidway.still hstill, hs.size_le⟩

/-- A call for the piece that is visited leaves the scan where it is. -/
lemma Turning.answered (hs : Turning setup (visited ++ [key]) left w h) (call : Call)
    (reply : Reply call) :
    Turning setup (visited ++ [key]) left w
      (.answered (.dealScan key) call reply :: .called (.dealScan key) call :: h) :=
  (hs.still rfl).still rfl

/-- The check of the miner leaves the scan where it is. -/
lemma rotates_checkMiner (hs : Turning setup (visited ++ [key]) left w h) (isChecked : Bool) :
    Meets (rotation setup) (checkMiner setup key isChecked) w h
      (fun _ => Turning setup (visited ++ [key]) left) fun _ => Stops setup .dealScan := by
  cases isChecked with
  | true => exact meets_pure.2 hs
  | false =>
    simp only [checkMiner, Bool.false_eq_true, ↓reduceIte, meets_bind]
    refine meets_request.2
      ⟨trivial, fun info _ => ?_, fun failure _ => (hs.answered _ _).stops rfl rfl⟩
    split
    · exact meets_pure.2 (hs.answered _ _)
    · exact meets_throw.2 ((hs.answered _ _).stops rfl rfl)

/-- The start of a deal leaves the walk where it is. -/
lemma rotates_propose (hs : Turning setup (visited ++ [key]) left w h) (payload : PayloadRef) :
    Meets (rotation setup) (propose setup key payload) w h (Turned setup (visited ++ [key]) left)
      fun _ => Stops setup .dealScan := by
  rw [propose, meets_bind, meets_attempt]
  refine ⟨trivial, fun reply _ => ?_⟩
  have hanswered := hs.answered (.startDeal (terms setup payload)) reply
  cases reply with
  | error failure =>
    simp only [meets_bind, meets_log, meets_pure]
    exact ⟨trivial, hanswered.still rfl⟩
  | ok proposal =>
    simp only [meets_bind, meets_log, meets_count, meets_update]
    have hcounted : Midway setup .dealScan (visited ++ [key]) left w (.counted .dealsStarted ::
        .logged (.dealStarted setup.miner key proposal) ::
        .answered (.dealScan key) (.startDeal (terms setup payload)) (.ok proposal) ::
        .called (.dealScan key) (.startDeal (terms setup payload)) :: h) :=
      (hanswered.still rfl).toMidway.still rfl
    obtain ⟨hbecame, hchanged⟩ :=
      hcounted.changed { w with deals := w.deals.insert key proposal } hs.rotated
    refine ⟨trivial, trivial, hbecame, ?_⟩
    exact meets_isFull trivial (fun _ => meets_pure.2 ((hchanged.still rfl).stops rfl rfl))
      fun hsize => meets_pure.2 ⟨hchanged, hsize⟩

/-- The visit of the next piece leads the scan further on. -/
lemma rotates_visit (hs : Turning setup visited (key :: left) w h) (isChecked : Bool) :
    Meets (rotation setup) (visit setup key isChecked) w h
      (Turned setup (visited ++ [key]) left) fun _ => Stops setup .dealScan := by
  obtain ⟨hbecame, hnext⟩ :=
    hs.next { w with pieces := w.pieces.touch key } (rotated_touch hs.rotated)
  have htouched : Turning setup (visited ++ [key]) left _ _ := ⟨hnext, hs.size_le⟩
  simp only [visit, findPiece, isFollowed, dropPiece, meets_bind, meets_get, meets_update,
    meets_pure]
  refine ⟨hbecame, ?_⟩
  split
  · next payload _ =>
    rw [meets_bind]
    refine meets_request.2
      ⟨trivial, fun isLocal _ => ?_, fun failure _ => (htouched.answered _ _).stops rfl rfl⟩
    have harrived := htouched.answered (.hasLocal payload.root) (.ok isLocal)
    split
    · simp only [meets_bind, meets_get, meets_pure]
      split
      · exact meets_pure.2 harrived
      · rw [meets_bind]
        refine meets_request.2
          ⟨trivial, fun offer _ => ?_, fun failure _ => (harrived.answered _ _).stops rfl rfl⟩
        have hoffered := harrived.answered (.offer setup.miner payload.root) (.ok offer)
        split
        · have hlogged : Midway setup .dealScan (visited ++ [key]) left _ (.logged
              (.alreadyServed setup.miner payload.root key) :: _) := hoffered.toMidway.still rfl
          obtain ⟨hdropped, hchanged⟩ := hlogged.changed
            { w with pieces := (w.pieces.touch key).erase key } (rotated_erase htouched.rotated)
          simp only [meets_bind, meets_log, meets_update, meets_pure]
          exact ⟨trivial, hdropped, hchanged, hs.size_le⟩
        · rw [meets_bind]
          exact (rotates_checkMiner hoffered isChecked).mono
            (fun _ _ _ hchecked => rotates_propose hchecked payload) fun _ _ _ => id
    · exact meets_pure.2 harrived
  · exact meets_pure.2 htouched

/-- The scan goes through all keys, unless it stops at one. -/
lemma rotates_scan (hs : Turning setup visited left w h) (isChecked : Bool) :
    Meets (rotation setup) (scan setup isChecked left) w h
      (fun _ w' h' => (∃ visited, Turning setup visited [] w' h') ∨ Stops setup .dealScan w' h')
      fun _ => Stops setup .dealScan := by
  induction left generalizing visited isChecked w h with
  | nil => exact .inl ⟨visited, hs⟩
  | cons key rest ih =>
    rw [scan, meets_bind]
    refine (rotates_visit hs isChecked).mono (fun result w' h' hturned => ?_) fun _ _ _ => id
    cases result with
    | passed => exact ih hturned isChecked
    | minerChecked => exact ih hturned true
    | full => exact .inr hturned

/-- The deal phase turns the inventory, if its scan has to stop early, and the deals, if the sweep
has to. -/
lemma rotates_run (hs : Shows setup Unended w h) :
    Meets (rotation setup) (run setup) w h
      (fun _ w' => WalkEnds setup .dealScan (setup.config.dealParallel.toNat < w'.deals.size) w')
      fun _ => StopsEarly setup := by
  have hsweeps : ∀ (_ : PhaseError) w h, SweepStops setup w h → StopsEarly setup w h := by
    refine fun _ w h hstops => ⟨fun _ => hstops.failsAt, fun hscan => ?_⟩
    rw [hstops.part_eq] at hscan
    cases hscan
  have hscans : ∀ (_ : PhaseError) w h, Stops setup .dealScan w h → StopsEarly setup w h := by
    refine fun _ w h hstops => ⟨fun hsweep => ?_, fun _ => hstops.stoppedAt⟩
    rw [hstops.part_eq] at hsweep
    cases hsweep
  simp only [run, meets_bind, meets_get, meets_enter]
  refine ⟨hs.holds, ?_⟩
  have hbegun : Reviewing setup [] w.deals.keys w (.entered .dealSweep :: h) :=
    ⟨Midway.entered hs .dealSweep, fun _ hmem => absurd hmem List.not_mem_nil,
      List.nil_subset _⟩
  refine (meets_forM (fun left w h => ∃ visited, Reviewing setup visited left w h)
    (fun key left w h hreviewing => ?_) ⟨[], hbegun⟩).mono ?_ hsweeps
  · obtain ⟨visited, hreviewing⟩ := hreviewing
    exact (rotates_sweepKey hreviewing).mono (fun _ _ _ hnext => ⟨_, hnext⟩) fun _ _ _ => id
  · rintro ⟨⟩ w₁ h₁ ⟨visited, hswept⟩
    refine meets_isFull trivial (fun _ => ⟨(hswept.logged _).toShows, fun hscan => ?_⟩)
      fun hsize => ?_
    · cases hswept.part_eq.symm.trans hscan
    · simp only [Bool.false_eq_true, ↓reduceIte, meets_bind, meets_get, meets_enter]
      have hall : ToldAbout setup h₁ (snapshot setup.config h₁) := by
        rw [hswept.snapshot_eq, List.append_nil]
        exact hswept.told
      refine ⟨⟨hswept.part_eq, hall⟩, ?_⟩
      have hscan : Turning setup [] w₁.pieces.keys w₁ (.entered .dealScan :: h₁) :=
        ⟨Midway.entered hswept.toShows .dealScan, hsize⟩
      refine (rotates_scan hscan false).mono ?_ hscans
      rintro ⟨⟩ w' h' (⟨visited, hdone⟩ | hstops)
      · exact ⟨hdone.toShows, fun _ hfull => absurd hfull (Nat.not_lt.2 hdone.size_le)⟩
      · exact hstops.walkEnds

end Dealing

end PieceReplication
