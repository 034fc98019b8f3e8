import PieceReplication.Proofs.Run.Abreast
import PieceReplication.Proofs.Run.Walks
import PieceReplication.Schedule.Trace

/-!
# What is seen of a history

What happens in a run is seen but for the counts of failed queries: no report and no count of a
failed query is seen, of a state of the worker all but the counts of failed queries, and of the
reply to a query not whether it is a failure or a success.  Whatever else a history tells can be
told from what is seen of it, so that two moments at which the same was seen are alike
(`History.Alike`).
-/

namespace PieceReplication

open History

variable {setup : Setup} {h h' : History} {occurrence : Occurrence}

/-- What is seen of an occurrence: no report and no count of a failed query, no counts of failed
queries in a state of the worker, and not whether a query failed or was answered with a success. -/
def Occurrence.seen? : Occurrence → Option Occurrence
  | .logged _ => none
  | .counted .retrievalQueryFailures => none
  | .answered purpose call reply => some (.answered purpose call (Reply.swallowed call reply))
  | .became w => some (.became w.uncounted)
  | occurrence => some occurrence

/-- What is seen of an occurrence that is supplied is supplied. -/
lemma Occurrence.isSupplied_of_seen? {sight : Occurrence} (hseen : occurrence.seen? = some sight) :
    sight.isSupplied = occurrence.isSupplied := by
  cases occurrence with
  | counted counter =>
    cases counter with
    | retrievalQueryFailures => cases hseen
    | _ => cases hseen; rfl
  | logged event => cases hseen
  | _ => cases hseen; rfl

/-- An occurrence of which nothing is seen is not supplied. -/
lemma Occurrence.isSupplied_of_seen?_eq_none (hseen : occurrence.seen? = none) :
    occurrence.isSupplied = false := by
  cases occurrence with
  | counted counter => rfl
  | logged event => rfl
  | _ => cases hseen

/-- What is seen of a history. -/
def History.seen (h : History) : History :=
  h.filterMap Occurrence.seen?

/-! ## What is supplied -/

/-- What surroundings supply, as a function of what was seen before. -/
structure Supply where
  /-- The reply to a call. -/
  reply : History → (call : Call) → Reply call
  /-- The number of the candidate that is chosen among some. -/
  choice : History → Nat → Nat
  /-- Whether a stop is requested. -/
  isStopping : History → Bool

/-- Whether surroundings supply an occurrence, if it is one that is supplied, after something was
seen.  Where they let a query fail or answer it with a success, either may happen. -/
def Supply.Provides (supply : Supply) (sights : History) : Occurrence → Prop
  | .answered _ call reply => Reply.Level reply (supply.reply sights call)
  | .chose n choice => choice.val = supply.choice sights n
  | .looked answer => answer = supply.isStopping sights
  | _ => True

/-- Whether surroundings supplied whatever was supplied in a history. -/
def Supply.Serves (supply : Supply) (h : History) : Prop :=
  Along (fun earlier occurrence => supply.Provides (seen earlier) occurrence) h

/-- Whether two occurrences supply the same thing, perhaps in different ways. -/
inductive Occurrence.Rivals : Occurrence → Occurrence → Prop
  | answered {purpose call} (reply reply' : Reply call) :
    Rivals (.answered purpose call reply) (.answered purpose call reply')
  | chose {n} (choice choice' : Fin n) : Rivals (.chose n choice) (.chose n choice')
  | looked (answer answer' : Bool) : Rivals (.looked answer) (.looked answer')

/-- What surroundings supply after the same was seen is seen as the same. -/
lemma Supply.Provides.seen?_eq {supply : Supply} {sights : History} {occurrence' : Occurrence}
    (hprovides : supply.Provides sights occurrence)
    (hprovides' : supply.Provides sights occurrence')
    (hrivals : occurrence.Rivals occurrence') : occurrence.seen? = occurrence'.seen? := by
  cases hrivals with
  | answered reply reply' =>
    have hlevel : Reply.Level reply reply' := hprovides.trans hprovides'.symm
    exact congrArg (fun reply => some (Occurrence.answered _ _ reply)) hlevel
  | chose choice choice' =>
    have heq : choice = choice' := Fin.ext (hprovides.trans hprovides'.symm)
    rw [heq]
  | looked answer answer' =>
    have heq : answer = answer' := hprovides.trans hprovides'.symm
    rw [heq]

/-! ## Moments that are alike -/

namespace History

/-- Two moments at which the same was seen, and what is the same at both. -/
structure Alike (setup : Setup) (h h' : History) : Prop where
  /-- What happened differs in reports and in counts of failed queries at most. -/
  seen : seen h = seen h'
  /-- The calls, in the order in which they were made. -/
  calls : Trace.calls h.reverse = Trace.calls h'.reverse
  cursor : (worker setup.config h).cursor = (worker setup.config h').cursor
  /-- The pieces of the inventory, the one used the longest ago first. -/
  keys : (worker setup.config h).pieces.keys = (worker setup.config h').pieces.keys
  retrievals : (worker setup.config h).retrievals = (worker setup.config h').retrievals
  deals : (worker setup.config h).deals = (worker setup.config h').deals
  /-- The records of the pieces differ in their counts of failed queries at most. -/
  level : (worker setup.config h).Level (worker setup.config h')
  stats : Trace.lastStats? h.reverse = Trace.lastStats? h'.reverse
  tally : ∀ counter, counter ≠ .retrievalQueryFailures →
    Trace.tally h.reverse counter = Trace.tally h'.reverse counter

/-- What can be told from what is seen of each occurrence can be told from what is seen of a
history. -/
lemma filterMap_seen {β : Type} {f : Occurrence → Option β}
    (hf : ∀ occurrence, occurrence.seen?.bind f = f occurrence) (h : History) :
    (seen h).filterMap f = h.filterMap f := by
  rw [seen, List.filterMap_filterMap]
  exact congrArg (List.filterMap · h) (funext hf)

/-- The calls are seen. -/
lemma calls_seen (h : History) : Trace.calls (seen h).reverse = Trace.calls h.reverse := by
  rw [Trace.calls, Trace.calls, List.filterMap_reverse, List.filterMap_reverse]
  refine congrArg List.reverse (filterMap_seen (fun occurrence => ?_) h)
  cases occurrence with
  | counted counter => cases counter <;> rfl
  | _ => rfl

/-- The figures that are published are seen. -/
lemma lastStats?_seen (h : History) :
    Trace.lastStats? (seen h).reverse = Trace.lastStats? h.reverse := by
  rw [Trace.lastStats?, Trace.lastStats?, List.reverse_reverse, List.reverse_reverse,
    ← List.head?_filterMap, ← List.head?_filterMap]
  refine congrArg List.head? (filterMap_seen (fun occurrence => ?_) h)
  cases occurrence with
  | counted counter => cases counter <;> rfl
  | _ => rfl

/-- The counts are seen, apart from those of failed queries. -/
lemma tally_seen {counter : Counter} (hne : counter ≠ .retrievalQueryFailures) (h : History) :
    Trace.tally (seen h).reverse counter = Trace.tally h.reverse counter := by
  have hreverse (h : History) : Trace.tally h.reverse counter = Trace.tally h counter := by
    rw [Trace.tally, List.filterMap_reverse, List.count_reverse, Trace.tally]
  have hcons (counted : Counter) (h : History) : Trace.tally (.counted counted :: h) counter =
      Trace.tally h counter + if counted = counter then 1 else 0 := by
    simp [Trace.tally, List.count_cons]
  rw [hreverse, hreverse]
  induction h with
  | nil => rfl
  | cons occurrence earlier ih =>
    cases occurrence with
    | counted counted =>
      cases counted with
      | retrievalQueryFailures =>
        rw [hcons, if_neg (Ne.symm hne), ← ih]
        rfl
      | _ =>
        rw [hcons, ← ih]
        exact hcons _ (seen earlier)
    | _ => exact ih

/-- There is a moment up to which any number of the occurrences that are seen was seen. -/
lemma exists_suffix_length_seen {n : Nat} (hle : n ≤ (seen h).length) :
    ∃ earlier, earlier <:+ h ∧ (seen earlier).length = n := by
  induction h with
  | nil => exact ⟨[], List.suffix_refl _, (Nat.le_zero.1 hle).symm⟩
  | cons occurrence earlier ih =>
    by_cases hearlier : n ≤ (seen earlier).length
    · obtain ⟨moment, hsuffix, hlength⟩ := ih hearlier
      exact ⟨moment, hsuffix.trans (List.suffix_cons _ _), hlength⟩
    · have hone : (seen (occurrence :: earlier)).length ≤ (seen earlier).length + 1 := by
        unfold seen
        cases hseen : occurrence.seen? with
        | none => simp [List.filterMap_cons_none hseen]
        | some sight => simp [List.filterMap_cons_some hseen]
      exact ⟨occurrence :: earlier, List.suffix_refl _, by omega⟩

/-- What is supplied is seen. -/
lemma countP_seen (h : History) :
    (seen h).countP Occurrence.isSupplied = h.countP Occurrence.isSupplied := by
  induction h with
  | nil => rfl
  | cons occurrence earlier ih =>
    cases hseen : occurrence.seen? with
    | none =>
      have hnot := Occurrence.isSupplied_of_seen?_eq_none hseen
      rw [seen, List.filterMap_cons_none hseen, List.countP_cons, hnot]
      exact ih
    | some sight =>
      have hsame := Occurrence.isSupplied_of_seen? hseen
      rw [seen, List.filterMap_cons_some hseen, List.countP_cons, List.countP_cons, hsame, ← ih]
      rfl

/-- The state of the worker is seen without its counts of failed queries. -/
lemma worker_seen (config : Config) (h : History) :
    worker config (seen h) = (worker config h).uncounted := by
  induction h with
  | nil => rfl
  | cons occurrence earlier ih =>
    cases occurrence with
    | counted counter => cases counter <;> exact ih
    | became w => rfl
    | brokeOff => rfl
    | _ => exact ih

/-- Moments at which the same was seen are alike. -/
lemma alike_of_seen_eq (setup : Setup) (hseen : seen h = seen h') : Alike setup h h' := by
  have hlevel : (worker setup.config h).Level (worker setup.config h') := by
    rw [Worker.Level, ← worker_seen, hseen, worker_seen]
  refine ⟨hseen, ?_, hlevel.cursor_eq, hlevel.keys_eq, hlevel.retrievals_eq, hlevel.deals_eq,
    hlevel, ?_, fun counter hne => ?_⟩
  · rw [← calls_seen, hseen, calls_seen]
  · rw [← lastStats?_seen, hseen, lastStats?_seen]
  · rw [← tally_seen hne, hseen, tally_seen hne]

end History

end PieceReplication
