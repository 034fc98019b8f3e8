import Mathlib.Data.List.Basic
import PieceReplication.Schedule.Execution

/-!
# Histories

A history is what happened in a run up to some moment, the latest occurrence first.  It shows the
state of the worker at that moment (`History.worker`), the part of the tick that the run is in
(`History.part?`), the reply that the driver acts on (`History.lastReply?`) and the deals that were
started (`History.returned`).

Statements about whole runs have the form `Along P history`: every occurrence of the history,
together with the history before it, satisfies `P`.
-/

namespace PieceReplication

/-- What happened up to some moment, the latest first. -/
abbrev History := List Occurrence

/-- A reply of the node together with the call that it answers. -/
structure Answered where
  purpose : Purpose
  call : Call
  reply : Reply call

namespace History

/-- The state of the worker: the latest one it was taken to, and a fresh one before the first and
after a break-off. -/
@[simp] def worker (config : Config) : History → Worker
  | [] => .fresh config
  | occurrence :: earlier =>
    match occurrence with
    | .became worker => worker
    | .brokeOff => .fresh config
    | _ => worker config earlier

/-- The part of the tick that was entered last; none between ticks. -/
@[simp] def part? : History → Option Part
  | [] => none
  | occurrence :: earlier =>
    match occurrence with
    | .entered part => some part
    | .published _ => none
    | .brokeOff => none
    | _ => part? earlier

/-- The latest reply, if nothing came after it but reports, counts and changes of the worker. -/
@[simp] def lastReply? : History → Option Answered
  | [] => none
  | occurrence :: earlier =>
    match occurrence with
    | .answered purpose call reply => some ⟨purpose, call, reply⟩
    | .logged _ => lastReply? earlier
    | .counted _ => lastReply? earlier
    | .became _ => lastReply? earlier
    | _ => none

/-- The piece and the proposal of a reply to the start of a deal. -/
@[simp] def startOf? : Purpose → (call : Call) → Reply call → Option (Cid × Cid)
  | .dealScan piece, .startDeal _, .ok proposal => some (piece, proposal)
  | _, _, _ => none

/-- The piece and the proposal of a deal that was just started, if nothing came after the reply but
reports and counts. -/
@[simp] def justStarted? : History → Option (Cid × Cid)
  | [] => none
  | occurrence :: earlier =>
    match occurrence with
    | .answered purpose call reply => startOf? purpose call reply
    | .logged _ => justStarted? earlier
    | .counted _ => justStarted? earlier
    | _ => none

/-- The pieces for which deals were started, each with the proposal that was returned. -/
@[simp] def returned : History → List (Cid × Cid)
  | [] => []
  | occurrence :: earlier =>
    match occurrence with
    | .answered purpose call reply => (startOf? purpose call reply).toList ++ returned earlier
    | _ => returned earlier

/-- The reply that came right before the call of the latest one, if nothing came after the latest
one but reports, counts and changes of the worker. -/
@[simp] def previousReply? : History → Option Answered
  | [] => none
  | occurrence :: earlier =>
    match occurrence with
    | .answered _ _ _ => lastReply? earlier.tail
    | .logged _ => previousReply? earlier
    | .counted _ => previousReply? earlier
    | .became _ => previousReply? earlier
    | _ => none

/-- The epoch of the head of the chain that was read in the present part of the tick. -/
@[simp] def headEpoch? : History → Option Epoch
  | [] => none
  | occurrence :: earlier =>
    match occurrence with
    | .answered _ .chainHead (.ok head) => some head.epoch
    | .entered _ => none
    | .published _ => none
    | .brokeOff => none
    | _ => headEpoch? earlier

/-- The epoch whose indexing begins with a call. -/
@[simp] def opens? : Call → Option Epoch
  | .tipsetAt height => some height
  | _ => none

/-- The epoch whose indexing has begun, with the call for its tipset, and neither failed nor ended
with a move of the cursor. -/
@[simp] def underway? : History → Option Epoch
  | [] => none
  | occurrence :: earlier =>
    match occurrence with
    | .called _ call => (opens? call).or (underway? earlier)
    | .answered _ _ (.error _) => none
    | .became worker => (underway? earlier).filter (· == worker.cursor)
    | .brokeOff => none
    | _ => underway? earlier

/-- The epoch whose tipset was requested last. -/
@[simp] def requested? : History → Option Epoch
  | [] => none
  | occurrence :: earlier =>
    match occurrence with
    | .called _ call => (opens? call).or (requested? earlier)
    | .brokeOff => none
    | _ => requested? earlier

/-- Whether the indexing of the epoch that was requested last has failed. -/
@[simp] def hasFailed : History → Bool
  | [] => false
  | occurrence :: earlier =>
    match occurrence with
    | .called _ call => (opens? call).isNone && hasFailed earlier
    | .answered _ _ (.error _) => (underway? earlier).isSome || hasFailed earlier
    | .brokeOff => false
    | _ => hasFailed earlier

/-- The epochs of the heads of the chain that were read. -/
@[simp] def heads : History → List Epoch
  | [] => []
  | occurrence :: earlier =>
    match occurrence with
    | .answered _ .chainHead (.ok head) => head.epoch :: heads earlier
    | _ => heads earlier

/-- The piece whose entry a call reviews in a sweep. -/
@[simp] def reviews? : Purpose → Option Cid
  | .retrievalSweep piece => some piece
  | .dealSweep piece => some piece
  | _ => none

/-- The pieces whose entries were reviewed in the present part of the tick. -/
@[simp] def reviewed : History → List Cid
  | [] => []
  | occurrence :: earlier =>
    match occurrence with
    | .answered purpose _ (.ok _) => (reviews? purpose).toList ++ reviewed earlier
    | .entered _ => []
    | .published _ => []
    | .brokeOff => []
    | _ => reviewed earlier

/-- The deals of the node that were listed in the present part of the tick. -/
@[simp] def listed? : History → Option (List ClientDeal)
  | [] => none
  | occurrence :: earlier =>
    match occurrence with
    | .answered _ .clientDeals (.ok clientDeals) => some clientDeals
    | .entered _ => none
    | .published _ => none
    | .brokeOff => none
    | _ => listed? earlier

/-- Every occurrence satisfies `P`, seen from the history before it. -/
@[simp] def Along (P : History → Occurrence → Prop) : History → Prop
  | [] => True
  | occurrence :: earlier => P earlier occurrence ∧ Along P earlier

instance decidableAlong (P : History → Occurrence → Prop) [∀ h o, Decidable (P h o)] :
    (history : History) → Decidable (Along P history)
  | [] => inferInstanceAs (Decidable True)
  | occurrence :: earlier =>
    have := decidableAlong P earlier
    inferInstanceAs (Decidable (P earlier occurrence ∧ Along P earlier))

variable {P Q : History → Occurrence → Prop} {history later earlier : History}
  {occurrence : Occurrence}

/-- A statement about a history holds of each of its beginnings. -/
lemma Along.of_append (h : Along P (later ++ earlier)) : Along P earlier := by
  induction later with
  | nil => exact h
  | cons _ _ ih => exact ih h.2

/-- A statement about a history holds of it at each earlier moment. -/
lemma Along.of_suffix (h : Along P history) (hsuffix : earlier <:+ history) : Along P earlier := by
  obtain ⟨later, rfl⟩ := hsuffix
  exact h.of_append

/-- What holds at each occurrence of a history holds along it. -/
lemma along_of_forall
    (h : ∀ later occurrence earlier, history = later ++ occurrence :: earlier →
      P earlier occurrence) : Along P history := by
  induction history with
  | nil => trivial
  | cons occurrence earlier ih =>
    refine ⟨h [] occurrence earlier rfl, ih fun later o e heq => ?_⟩
    exact h (occurrence :: later) o e (by rw [heq]; rfl)

/-- What holds along a history holds at each of its occurrences. -/
lemma Along.exists_of_mem (h : Along P history) (hmem : occurrence ∈ history) :
    ∃ earlier, P earlier occurrence := by
  induction history with
  | nil => cases hmem
  | cons latest earlier ih =>
    rcases List.mem_cons.1 hmem with rfl | hmem
    · exact ⟨earlier, h.1⟩
    · exact ih h.2 hmem

/-- A head that was read stays among those that were read. -/
lemma mem_heads_cons {head : Epoch} (occurrence : Occurrence) (hmem : head ∈ heads history) :
    head ∈ heads (occurrence :: history) := by
  cases occurrence with
  | answered purpose call reply =>
    cases call with
    | chainHead =>
      cases reply with
      | ok tipset => exact List.mem_cons_of_mem _ hmem
      | error failure => exact hmem
    | _ => exact hmem
  | _ => exact hmem

/-- The head that was read in the present part of the tick is among those that were read. -/
lemma mem_heads_of_headEpoch? {head : Epoch} (hhead : headEpoch? history = some head) :
    head ∈ heads history := by
  induction history with
  | nil => cases hhead
  | cons occurrence earlier ih =>
    cases occurrence with
    | answered purpose call reply =>
      cases call with
      | chainHead =>
        cases reply with
        | ok tipset => exact Option.some.inj hhead ▸ List.mem_cons_self
        | error failure => exact ih hhead
      | _ => exact ih hhead
    | entered part => cases hhead
    | published stats => cases hhead
    | brokeOff => cases hhead
    | _ => exact ih hhead

/-- A history of which each occurrence is something else than a break-off has none. -/
lemma brokeOff_notMem_of_all
    (hall : (history.all fun
      | .brokeOff => false
      | _ => true) = true) : .brokeOff ∉ history := by
  intro hmem
  cases List.all_eq_true.1 hall _ hmem

/-- Along a history a statement can be weakened with what holds along its beginnings. -/
lemma Along.imp_of_along (h : Along P history)
    (himp : ∀ earlier occurrence, Along P earlier → P earlier occurrence → Q earlier occurrence) :
    Along Q history := by
  induction history with
  | nil => trivial
  | cons occurrence earlier ih => exact ⟨himp earlier occurrence h.2 h.1, ih h.2⟩

end History

end PieceReplication
