import PieceReplication.Proofs.Run.Execution
import PieceReplication.Proofs.Run.Session

/-!
# Where a driver comes to stand

`Driver.Reaches` tells where a driver can come to stand from any start on, and what it did on the
way, with everything open that its surroundings decide: whether and what the node replies, which
candidates are chosen, and when a stop is requested.  A life of a replicator goes through such
stretches, but begins with a fresh worker; here a driver may begin with any worker.

What a contract guarantees holds along all that a driver does that keeps to it
(`Driver.Reaches.along_and_keeps`).  The runs of its program in given surroundings are among what it
may do (`Driver.Reaches.execute`), and if these reply to each call, the program ends or breaks off
at a sum that does not fit (`Driver.Reaches.done_or_overflow`).
-/

namespace PieceReplication

open History

/-- Where a driver can come to stand from a start on, and what it did on the way. -/
inductive Driver.Reaches (start : Driver) : History → Driver → Prop where
  | refl : Reaches start [] start
  | step {h driver} (hreaches : Reaches start h driver) (isStopping : Bool) {occurrence driver'}
    (hstep : Driver.Step isStopping driver occurrence driver') :
    Reaches start (occurrence :: h) driver'

namespace Driver.Reaches

variable {σ : Type} {c : Contract} {inv : Worker → History → Prop} {start driver : Driver}
  {h : History} {program : Program TurnEnd} {surroundings : Surroundings σ}

/-- A driver that keeps to a contract on top of a history does what is guaranteed, as long as it is
supplied with what is relied on. -/
lemma along_and_keeps_append {base : History}
    (answered : ∀ h purpose call reply,
      c.guarantee (.called purpose call :: h) (.answered purpose call reply))
    (panic : ∀ h purpose call, c.guarantee (.called purpose call :: h) .brokeOff)
    (hkeeps : start.Keeps c inv base) (hbase : Along c.guarantee base)
    (hreaches : start.Reaches h driver) (relied : Along c.rely (h ++ base)) :
    Along c.guarantee (h ++ base) ∧ driver.Keeps c inv (h ++ base) := by
  induction hreaches with
  | refl => exact ⟨hbase, hkeeps⟩
  | step hreaches isStopping hstep ih =>
    obtain ⟨halong, hkeeps'⟩ := ih relied.2
    obtain ⟨hguarantee, hkeeps''⟩ :=
      Life.guarantee_and_keeps_of_step answered panic hkeeps' hstep relied.1
    exact ⟨⟨hguarantee, halong⟩, hkeeps''⟩

/-- A driver that keeps to a contract does what is guaranteed, as long as it is supplied with what
is relied on. -/
lemma along_and_keeps
    (answered : ∀ h purpose call reply,
      c.guarantee (.called purpose call :: h) (.answered purpose call reply))
    (panic : ∀ h purpose call, c.guarantee (.called purpose call :: h) .brokeOff)
    (hkeeps : start.Keeps c inv []) (hreaches : start.Reaches h driver) (relied : Along c.rely h) :
    Along c.guarantee h ∧ driver.Keeps c inv h := by
  rw [← List.append_nil h] at relied ⊢
  exact hreaches.along_and_keeps_append answered panic hkeeps trivial relied

/-- A driver that has a program to go on with has not just made a call. -/
lemma head?_ne_called (hreaches : start.Reaches h (.active program)) (purpose : Purpose)
    (call : Call) : h.head? ≠ some (.called purpose call) := by
  cases hreaches with
  | refl => rintro ⟨⟩
  | step hreaches isStopping hstep => cases hstep <;> rintro ⟨⟩

/-- What a driver may do goes on with each run of its program. -/
lemma execute (hreaches : start.Reaches h (.active program)) (surroundings : Surroundings σ)
    (isStopping : Bool) (state : σ) :
    start.Reaches (program.execute surroundings isStopping state h).trace
      (.atHalt (program.execute surroundings isStopping state h).halt) := by
  induction program generalizing state h with
  | done turnEnd => exact hreaches
  | perform effect resume ih =>
    cases effect with
    | call purpose call =>
      have hcalled := hreaches.step isStopping .call
      rw [Program.execute]
      split
      · next reply state' hreply =>
        exact ih reply (hcalled.step isStopping (.answer reply)) state'
      · exact hcalled
      · exact hcalled.step isStopping .panic
    | choose n pos => exact ih _ (hreaches.step isStopping (.choose _)) _
    | stopRequested => exact ih _ (hreaches.step isStopping .look) _
    | overflow cause => exact hreaches.step isStopping .overflow
    | enter part => exact ih _ (hreaches.step isStopping .enter) _
    | log event => exact ih _ (hreaches.step isStopping .log) _
    | count counter => exact ih _ (hreaches.step isStopping .count) _
    | become worker => exact ih _ (hreaches.step isStopping .become) _
    | publish stats => exact ih _ (hreaches.step isStopping .publish) _

/-- A run of the driver's program in surroundings that reply to each call ends, or breaks off where
a sum does not fit. -/
lemma done_or_overflow (hreaches : start.Reaches h (.active program))
    (hreplies : surroundings.Replies) (isStopping : Bool) (state : σ) :
    (∃ turnEnd,
      (program.execute surroundings isStopping state h).halt = .done turnEnd) ∨
    ∃ earlier cause resume,
      start.Reaches earlier (.active (.perform (.overflow cause) resume)) ∧
      (program.execute surroundings isStopping state h).trace = .brokeOff :: earlier := by
  induction program generalizing state h with
  | done turnEnd => exact .inl ⟨turnEnd, rfl⟩
  | perform effect resume ih =>
    cases effect with
    | call purpose call =>
      obtain ⟨reply, state', hreply⟩ := hreplies state call
      have hanswered := (hreaches.step isStopping .call).step isStopping (.answer reply)
      rw [Program.execute, hreply]
      exact ih reply hanswered state'
    | choose n pos => exact ih _ (hreaches.step isStopping (.choose _)) _
    | stopRequested => exact ih _ (hreaches.step isStopping .look) _
    | overflow cause => exact .inr ⟨h, cause, resume, hreaches, rfl⟩
    | enter part => exact ih _ (hreaches.step isStopping .enter) _
    | log event => exact ih _ (hreaches.step isStopping .log) _
    | count counter => exact ih _ (hreaches.step isStopping .count) _
    | become worker => exact ih _ (hreaches.step isStopping .become) _
    | publish stats => exact ih _ (hreaches.step isStopping .publish) _

end Driver.Reaches

end PieceReplication
