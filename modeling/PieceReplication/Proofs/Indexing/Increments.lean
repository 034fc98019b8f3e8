import Mathlib.Logic.Relation
import PieceReplication.Proofs.Indexing.Refinement

/-!
# Indexing in increments

A scan of the chain may be cut into any number of runs of the index phase.  Each of them ends
because it has reached the head that it was told, because it saw a stop request between two epochs,
or because a tipset or its messages could not be read (`CutRun`).  All of them find the same chain
and the same deals of the node; only the head may be another one each time.

Wherever a run is cut, the inventory has taken in all deals of the epochs below the cursor and none
of the others, since nothing of an epoch is folded in before its messages are read.  So the next run
begins exactly where the uncut scan would be at that moment: each cut run takes the worker through
some epochs of the uncut scan (`CutRun.indexedTowards`), and such passages can be put together
(`IndexedTowards.trans`).  No deal is folded in twice, hence the order of use is the same and the
same pieces are evicted, whatever the capacity.
-/

namespace PieceReplication

open Relation

namespace Indexing

open Activity

variable {read : (call : Call) → Option call.Answer} {miner : Address}
  {clientDeals : List ClientDeal} {setup : Setup} {node : (call : Call) → call.Answer}
  {w w' w₁ w₂ : Worker}

/-! ## Passages of a scan -/

/-- The indexing of some epochs and then of some more is that of all of them. -/
lemma Indexed.trans {done more : Nat} (hfirst : Indexed read miner clientDeals done w w₁)
    (hsecond : Indexed read miner clientDeals more w₁ w₂) :
    Indexed read miner clientDeals (done + more) w w₂ := by
  rw [Indexed] at hfirst hsecond ⊢
  rw [hsecond, hfirst, cursor_moved, moved_moved, dealsFrom_add, Int64.add_assoc, Int64.ofNat_add]

/-- The indexing of some epochs leads to one worker only. -/
lemma Indexed.unique {count : Nat} (hfirst : Indexed read miner clientDeals count w w₁)
    (hsecond : Indexed read miner clientDeals count w w₂) : w₁ = w₂ :=
  Eq.trans hfirst hsecond.symm

/-- Whether the indexing of some of the epochs from the cursor up to a head, with the answers of a
node, leads from one worker to another. -/
def IndexedTowards (setup : Setup) (node : (call : Call) → call.Answer) (head : Epoch)
    (w w' : Worker) : Prop :=
  ∃ done ≤ w.cursor.stepsTo head,
    Indexed (fun call => some (node call)) setup.miner (node .clientDeals) done w w'

namespace IndexedTowards

variable {head : Epoch}

/-- The indexing of no epochs changes nothing. -/
lemma refl : IndexedTowards setup node head w w :=
  ⟨0, Nat.zero_le _, indexed_zero⟩

/-- Passages towards the same head can be put together. -/
lemma trans (hfirst : IndexedTowards setup node head w w₁)
    (hsecond : IndexedTowards setup node head w₁ w₂) : IndexedTowards setup node head w w₂ := by
  obtain ⟨done, hdone, hindexed⟩ := hfirst
  obtain ⟨more, hmore, hindexed'⟩ := hsecond
  rw [hindexed, cursor_moved, Epoch.stepsTo_add_ofNat hdone] at hmore
  exact ⟨done + more, Nat.add_le_of_le_sub' hdone hmore, hindexed.trans hindexed'⟩

/-- A passage towards another head is one towards this head too, if that one is not above this one
or the passage ends before it is past this one. -/
lemma towards {stop : Epoch} (hindexed : IndexedTowards setup node stop w w')
    (hstop : stop ≤ head ∨ w'.cursor ≤ head) : IndexedTowards setup node head w w' := by
  obtain ⟨done, hdone, hindexed⟩ := hindexed
  refine ⟨done, ?_, hindexed⟩
  have hcursor : w'.cursor.toInt = w.cursor.toInt + done := by
    rw [hindexed, cursor_moved, Epoch.toInt_add_ofNat hdone]
  rw [Int64.le_iff_toInt_le, Int64.le_iff_toInt_le] at hstop
  rw [Epoch.stepsTo] at hdone ⊢
  omega

/-- If a passage towards a head is followed by the indexing of all epochs that are left, all epochs
up to the head are indexed. -/
lemma indexed (hfirst : IndexedTowards setup node head w w₁)
    (hrest : Indexed (fun call => some (node call)) setup.miner (node .clientDeals)
      (w₁.cursor.stepsTo head) w₁ w₂) :
    Indexed (fun call => some (node call)) setup.miner (node .clientDeals)
      (w.cursor.stepsTo head) w w₂ := by
  obtain ⟨done, hdone, hindexed⟩ := hfirst
  have hleft : w₁.cursor.stepsTo head = w.cursor.stepsTo head - done := by
    rw [hindexed, cursor_moved, Epoch.stepsTo_add_ofNat hdone]
  have hall := hindexed.trans hrest
  rwa [hleft, Nat.add_sub_cancel' hdone] at hall

end IndexedTowards

/-! ## Cut runs -/

/-- What a cut run can rely on, if it is told a head: the other answers are a function of the call,
and no read of a sector or a deal fails.  Other reads may fail, and a stop may be requested at any
time. -/
def cutting (node : (call : Call) → call.Answer) (head : Epoch) : Contract where
  rely _ occurrence :=
    match occurrence with
    | .answered _ .chainHead (.ok tipset) => tipset.epoch = head
    | .answered _ call (.ok answer) => answer = node call
    | .answered _ call (.error _) => readsSector call = false
    | _ => True
  guarantee _ occurrence := occurrence ≠ .brokeOff

/-- Whether a run of the index phase that may be cut leads from one worker to another.  The head
that it is told is not above that of the node, or it ends before it is past that one. -/
def CutRun (setup : Setup) (node : (call : Call) → call.Answer) (w w' : Worker) : Prop :=
  ∃ head h result h', ((run setup).run.run w).Ends (cutting node head) h (result, w') h' ∧
    (head ≤ (node .chainHead).epoch ∨ w'.cursor ≤ (node .chainHead).epoch)

/-- The reads of a cut run answer as a function of the call. -/
lemma reads_cutting (node : (call : Call) → call.Answer) (head : Epoch) :
    Reads (cutting node head) (fun call => some (node call)) True False True where
  answered {h purpose call answer} hanswer hcall := by
    cases call with
    | chainHead => exact absurd rfl hcall
    | _ => exact congrArg some hanswer.symm
  epochFailed _ _ := trivial
  dealFailed {h purpose call failure} hfailure hcall := by
    have hother : readsSector call = false := by
      cases call <;> exact hfailure
    exact absurd hcall (Bool.eq_false_iff.1 hother)
  stopped _ := trivial
  guaranteed _ _ hunbroken := hunbroken

/-- A cut run indexes some epochs towards the head that it is told. -/
lemma meets_run_cutting (setup : Setup) (node : (call : Call) → call.Answer) (head : Epoch)
    (w : Worker) (h : History) :
    Meets (cutting node head) (run setup) w h
      (fun _ w' _ => IndexedTowards setup node head w w')
      fun _ w' _ => IndexedTowards setup node head w w' := by
  simp only [run, meets_bind, meets_enter]
  refine ⟨by rintro ⟨⟩, meets_chainRead.2 ⟨by rintro ⟨⟩, ?_, fun _ _ => .refl⟩⟩
  rintro tipset (rfl : tipset.epoch = head)
  refine meets_chainRead.2 ⟨by rintro ⟨⟩, ?_, fun _ _ => .refl⟩
  rintro clientDeals (rfl : clientDeals = node .clientDeals)
  refine meets_get.2 (((reads_cutting node tipset.epoch).meets_indexEpochs _ w _
    (Nat.le_refl _)).mono ?_ ?_)
  · rintro ⟨⟩ w' h' ⟨done, hdone, hindexed, -⟩
    exact ⟨done, hdone, hindexed⟩
  · rintro error w' h' (⟨-, hgiven⟩ | ⟨hfails, -⟩)
    · exact hgiven
    · exact hfails.elim

/-- A cut run indexes some epochs towards the head of the node. -/
lemma CutRun.indexedTowards (hcut : CutRun setup node w w') :
    IndexedTowards setup node (node .chainHead).epoch w w' := by
  obtain ⟨head, h, result, h', hends, hhead⟩ := hcut
  have hpost := (meets_run_cutting setup node head w h).post_of_ends hends
  have htold : IndexedTowards setup node head w w' := by
    cases result <;> exact hpost
  exact htold.towards hhead

/-- Any number of cut runs index some epochs towards the head of the node. -/
lemma indexedTowards_of_cutRuns (hcuts : ReflTransGen (CutRun setup node) w w₁) :
    IndexedTowards setup node (node .chainHead).epoch w w₁ := by
  induction hcuts with
  | refl => exact .refl
  | tail _ hlast ih => exact ih.trans hlast.indexedTowards

/-- **Indexing in increments is indexing at once.**  Let the answers of the node be a function of
the call, and let any number of cut runs of the index phase lead from a worker to another one.  Then
uninterrupted runs from the two of them end well and lead to the same worker: to the same cursor,
and to an inventory with the same pieces in the same order of use and with the same records. -/
theorem increments_eq_batch (hcuts : ReflTransGen (CutRun setup node) w w₁) {σ : Type}
    {surroundings : Surroundings σ} (hnode : surroundings.AnswersBy fun call => .ok (node call))
    (hreplies : surroundings.Replies) (state state' : σ) (h h' : History) :
    ∃ final, (runFrom setup surroundings false state w h).halt = .done (.ok (), final) ∧
      (runFrom setup surroundings false state' w₁ h').halt = .done (.ok (), final) := by
  obtain ⟨batch, hbatch, hindexed⟩ := exists_runFrom_ok hnode hreplies setup state w h
  obtain ⟨final, hfinal, hrest⟩ := exists_runFrom_ok hnode hreplies setup state' w₁ h'
  have hall := (indexedTowards_of_cutRuns hcuts).indexed hrest
  obtain rfl : batch = final := hindexed.unique hall
  exact ⟨batch, hbatch, hfinal⟩

end Indexing

/-! ### A scan in three cuts -/

namespace Sample

open Indexing

/-- The answers of a node that has the deals of the crowded one at each epoch below its head. -/
def longAnswer (head : Epoch) : (call : Call) → call.Answer
  | .chainHead => ⟨⟨"block"⟩, [], head, ⟨[]⟩⟩
  | call => crowdedAnswer false call

/-- Such a node, which cannot find the tipset of one height. -/
def gappedNode (head missing : Epoch) : Surroundings Unit where
  call _ call :=
    (.reply (if call = .tipsetAt missing then .error ⟨[]⟩ else .ok (longAnswer head call)), ())
  release _ call := (.ok (longAnswer head call), ())
  choose _ _ pos := (⟨0, pos⟩, ())

/-- The worker that a run of the index phase against such a node leaves. -/
def afterRun (head missing : Epoch) (isStopping : Bool) (w : Worker) : Worker :=
  match (runFrom setup (gappedNode head missing) isStopping () w []).halt with
  | .done (_, w') => w'
  | _ => w

/-- Such a node supplies what a cut run relies on. -/
lemma supplies_gappedNode (head missing final : Epoch) (isStopping : Bool) :
    (gappedNode head missing).Supplies isStopping (cutting (longAnswer final) head) := by
  refine ⟨?_, fun _ _ _ _ => trivial, fun _ => trivial⟩
  rintro h ⟨⟩ purpose call reply ⟨⟩ hreply
  obtain rfl := Response.reply.inj (congrArg Prod.fst hreply)
  split
  · next hmissing =>
    subst hmissing
    rfl
  · cases call <;> rfl

/-- A run against such a node whose head is not above the final one is a cut run. -/
lemma cutRun_afterRun {head final : Epoch} (hhead : head ≤ final) (missing : Epoch)
    (isStopping : Bool) (w : Worker) :
    CutRun setup (longAnswer final) w (afterRun head missing isStopping w) := by
  have hsupplies := supplies_gappedNode head missing final isStopping
  have hmeets := meets_run_cutting setup (longAnswer final) head w []
  obtain ⟨⟨result, w'⟩, hdone⟩ :=
    hmeets.exists_done hsupplies (fun _ _ => ⟨_, _, rfl⟩) (fun _ hbroke => hbroke rfl) ()
  have hafter : afterRun head missing isStopping w = w' := by
    rw [afterRun, runFrom, hdone]
  rw [hafter]
  exact ⟨head, [], result, _, Program.ends_of_execute hsupplies hdone, .inl hhead⟩

end Sample

/-- With room for a single piece, a scan that is cut by a lower head, by a stop request and by a
tipset that is not found leads where the uncut scan leads. -/
theorem Indexing.increments_eq_batch_evicting :
    ∃ w₁ final,
      ReflTransGen (CutRun Sample.setup (Sample.longAnswer 13)) (.fresh Sample.setup.config) w₁ ∧
      w₁.cursor = 12 ∧ w₁.pieces.keys = [⟨"fourth"⟩] ∧
      (runFrom Sample.setup (.answering (Sample.longAnswer 13)) false ()
        (.fresh Sample.setup.config) []).halt = .done (.ok (), final) ∧
      (runFrom Sample.setup (.answering (Sample.longAnswer 13)) false () w₁ []).halt =
        .done (.ok (), final) := by
  have hlower := Sample.cutRun_afterRun (by decide : (11 : Epoch) ≤ 13) 0 false
    (.fresh Sample.setup.config)
  have hstopped := Sample.cutRun_afterRun (by decide : (13 : Epoch) ≤ 13) 0 true
    (Sample.afterRun 11 0 false (.fresh Sample.setup.config))
  have hmissing := Sample.cutRun_afterRun (by decide : (13 : Epoch) ≤ 13) 12 false
    (Sample.afterRun 13 0 true (Sample.afterRun 11 0 false (.fresh Sample.setup.config)))
  have hcuts := ((ReflTransGen.single hlower).tail hstopped).tail hmissing
  obtain ⟨final, hbatch, hrest⟩ :=
    increments_eq_batch hcuts (Surroundings.answersBy_answering (Sample.longAnswer 13))
      (Surroundings.replies_answering _) () () [] []
  exact ⟨_, final, hcuts, by decide +kernel, by decide +kernel, hbatch, hrest⟩

end PieceReplication
