import PieceReplication.Proofs.Phases.Turns
import PieceReplication.Proofs.Run.Session

/-!
# What the counters count

The counters are to count the deals that the node took, the queries that failed, and for each phase
the ticks in which it failed (`History.occasions`).  Since what has to be counted is counted before
anything else is done, the counts of a life are, in their order, what its replies called for, but
for the last one while it is left to count (`uncounted_append_counted`).  Since a phase that has
failed makes no more calls in its tick, it fails in as many ticks as it fails by replies.

So each counter shows at each moment what it is to count, with whatever happened in between: phases
that were given up, ticks in which the driver broke off, restarts.
-/

namespace PieceReplication

open History

/-! ## What is to be counted -/

/-- Whether the node takes a deal that is proposed to it. -/
def Occurrence.isProposal : Occurrence → Bool
  | .answered _ (.startDeal _) (.ok _) => true
  | _ => false

/-- Whether a query fails. -/
def Occurrence.isFailedQuery : Occurrence → Bool
  | .answered _ (.query _ _) (.error _) => true
  | _ => false

/-- What happened between the ends of the ticks, each tick for itself. -/
def History.courses (h : History) : List History :=
  h.splitOnP Occurrence.ends

/-- How often that happened which a counter is to count. -/
def History.occasions (h : History) : Counter → Nat
  | .dealsStarted => h.countP Occurrence.isProposal
  | .retrievalQueryFailures => h.countP Occurrence.isFailedQuery
  | .phaseErrors phase => (courses h).countP fun course => course.any (Occurrence.fails phase)

/-- What has to be counted after an occurrence. -/
def Occurrence.due? : Occurrence → Option Counter
  | .answered purpose call reply => dueOf? purpose call reply
  | _ => none

/-- What is counted by an occurrence. -/
def Occurrence.counter? : Occurrence → Option Counter
  | .counted counter => some counter
  | _ => none

variable {setup : Setup} {h walked base : History} {occurrence : Occurrence} {counter : Counter}
  {phase : Phase} {events : List Event} {replicator : Replicator}

/-! ## The counts in their order -/

/-- Each step counts what was left to count, and leaves what it calls for. -/
lemma Isolated.uncounted_append (hisolated : Isolated setup h occurrence) :
    (uncounted? (occurrence :: h)).toList ++ occurrence.counter?.toList =
      occurrence.due?.toList ++ (uncounted? h).toList := by
  cases occurrence with
  | answered purpose call reply =>
    obtain ⟨earlier, rfl⟩ := List.head?_eq_some_iff.1 hisolated
    rfl
  | logged event => exact List.append_nil _
  | counted counter =>
    have hdue : uncounted? h = some counter := hisolated
    rw [hdue]
    rfl
  | chose | looked =>
    have hnone : uncounted? h = none := hisolated
    rw [hnone]
    rfl
  | called | entered | became | published | brokeOff =>
    rw [hisolated.1]
    rfl

/-- **The counts are what the replies called for**, in their order: over any stretch of a history
those that were left to count before it, but not those that are left to count after it, come in
addition. -/
lemma uncounted_append_counted (walked base : History)
    (hisolated : Along (Isolated setup) (walked ++ base)) :
    (uncounted? (walked ++ base)).toList ++ walked.filterMap Occurrence.counter? =
      walked.filterMap Occurrence.due? ++ (uncounted? base).toList := by
  rw [List.filterMap_eq_flatMap_toList, List.filterMap_eq_flatMap_toList]
  induction walked with
  | nil => exact List.append_nil _
  | cons occurrence earlier ih =>
    rw [List.cons_append] at hisolated ⊢
    rw [List.flatMap_cons, List.flatMap_cons, List.append_assoc, ← ih hisolated.2,
      ← List.append_assoc, ← List.append_assoc, hisolated.1.uncounted_append]

/-- What a counter shows. -/
lemma tally_reverse (h : History) (counter : Counter) :
    Trace.tally h.reverse counter = (h.filterMap Occurrence.counter?).count counter := by
  have hsame : Trace.tally h.reverse counter =
      (h.reverse.filterMap Occurrence.counter?).count counter := by
    refine congrArg (List.count counter) (List.filterMap_congr fun occurrence _ => ?_)
    cases occurrence <;> rfl
  rw [hsame, List.filterMap_reverse, List.count_reverse]

/-! ## Deals and queries -/

/-- Deals and queries are to be counted exactly if the node takes the deal and the query fails. -/
lemma due?_beq_dealsStarted_and_queries :
    (occurrence.due? == some .dealsStarted) = occurrence.isProposal ∧
      (occurrence.due? == some .retrievalQueryFailures) = occurrence.isFailedQuery := by
  have hfault : ∀ fault : Option Phase,
      (fault.map Counter.phaseErrors == some .dealsStarted) = false ∧
        (fault.map Counter.phaseErrors == some .retrievalQueryFailures) = false := by
    intro fault
    cases fault <;> exact ⟨rfl, rfl⟩
  cases occurrence with
  | answered purpose call reply =>
    cases call with
    | startDeal terms =>
      cases reply with
      | ok proposal => exact ⟨rfl, rfl⟩
      | error failure => exact hfault _
    | query root provider =>
      cases reply with
      | ok response => exact hfault _
      | error failure => exact ⟨rfl, rfl⟩
    | _ => exact hfault _
  | _ => exact ⟨rfl, rfl⟩

/-! ## Phases that fail -/

/-- A phase fails by a reply to one of its own calls. -/
lemma phase_eq_of_faultOf? {purpose : Purpose} {call : Call} {reply : Reply call}
    (hfault : faultOf? purpose call reply = some phase) : purpose.phase = phase := by
  unfold faultOf? at hfault
  split at hfault
  · next hphase => exact hphase.trans (Option.some.inj hfault)
  · next hphase => exact hphase.trans (Option.some.inj hfault)
  · cases hfault
  · next hphase =>
    split at hfault
    · cases hfault
    · exact hphase.trans (Option.some.inj hfault)
  · next hphase _ => exact hphase.trans (Option.some.inj hfault)
  · cases hfault

/-- If a phase fails by a reply to a call that is made for its purpose, that is to be counted. -/
lemma dueOf?_of_faultOf? {purpose : Purpose} {call : Call} {reply : Reply call}
    (hasks : purpose.asks call = true) (hfault : faultOf? purpose call reply = some phase) :
    dueOf? purpose call reply = some (.phaseErrors phase) := by
  unfold dueOf?
  split
  · -- no phase fails by a deal that is taken
    cases purpose <;> cases hfault
  · -- only the retrieval phase makes queries, and does not fail by them
    cases purpose with
    | retrievalScan => cases hfault
    | _ => cases hasks
  · rw [hfault]
    rfl

/-- The failure of a phase is to be counted exactly if the phase fails. -/
lemma due?_beq_phaseErrors (hisolated : Along (Isolated setup) (occurrence :: h)) :
    (occurrence.due? == some (.phaseErrors phase)) = occurrence.fails phase := by
  cases occurrence with
  | answered purpose call reply =>
    obtain ⟨earlier, rfl, hcall⟩ := Isolated.exists_mayCall hisolated
    refine Bool.eq_iff_iff.2 ?_
    rw [Occurrence.due?, Occurrence.fails, beq_iff_eq, beq_iff_eq]
    exact ⟨faultOf?_of_dueOf?_phaseErrors, dueOf?_of_faultOf? hcall.asks⟩
  | _ => rfl

/-- Over any stretch of a history the failures of a phase that are to be counted are those by which
it fails. -/
lemma count_due_phaseErrors (hisolated : Along (Isolated setup) (walked ++ base)) :
    (walked.filterMap Occurrence.due?).count (.phaseErrors phase) =
      walked.countP (Occurrence.fails phase) := by
  rw [List.count_filterMap]
  induction walked with
  | nil => rfl
  | cons occurrence earlier ih =>
    rw [List.cons_append] at hisolated
    rw [List.countP_cons, List.countP_cons, ih hisolated.2, due?_beq_phaseErrors hisolated]

/-- A phase that fails has not failed before in its tick. -/
lemma unfailed_of_fails (hisolated : Along (Isolated setup) (occurrence :: h))
    (hfails : occurrence.fails phase = true) : failed phase h = false := by
  cases occurrence with
  | answered purpose call reply =>
    obtain ⟨earlier, rfl, hcall⟩ := Isolated.exists_mayCall hisolated
    obtain rfl := phase_eq_of_faultOf? (beq_iff_eq.1 hfails)
    exact hcall.unfailed
  | _ => cases hfails

/-- What ends a tick is the failure of no phase. -/
lemma fails_of_ends (hends : occurrence.ends = true) : occurrence.fails phase = false := by
  cases occurrence with
  | published | brokeOff => rfl
  | _ => cases hends

/-- What ends a tick is followed by a new course. -/
lemma courses_cons_of_ends (hends : occurrence.ends = true) :
    courses (occurrence :: h) = [] :: courses h := by
  rw [courses, List.splitOnP_cons_eq_if_modifyHead, if_pos hends, courses]

/-- What ends no tick belongs to the present course. -/
lemma courses_cons {course : History} {past : List History} (hends : occurrence.ends = false)
    (hcourses : courses h = course :: past) :
    courses (occurrence :: h) = (occurrence :: course) :: past := by
  rw [courses] at hcourses
  rw [courses, List.splitOnP_cons_eq_if_modifyHead, if_neg (by simp [hends]), hcourses]
  rfl

/-- The present course is one in which a phase has failed exactly if it has failed in the present
tick. -/
lemma exists_courses_eq_cons (phase : Phase) (h : History) :
    ∃ course past, courses h = course :: past ∧
      course.any (Occurrence.fails phase) = failed phase h := by
  induction h with
  | nil => exact ⟨[], [], rfl, rfl⟩
  | cons occurrence earlier ih =>
    obtain ⟨course, past, hcourses, hfailed⟩ := ih
    cases hends : occurrence.ends with
    | true =>
      refine ⟨[], courses earlier, courses_cons_of_ends hends, ?_⟩
      rw [failed, hends]
      rfl
    | false =>
      refine ⟨occurrence :: course, past, courses_cons hends hcourses, ?_⟩
      rw [failed, hends, List.any_cons, hfailed]
      rfl

/-- The ticks in which a phase fails are as many as the replies by which it fails. -/
lemma countP_courses (hisolated : Along (Isolated setup) h) (phase : Phase) :
    ((courses h).countP fun course => course.any (Occurrence.fails phase)) =
      h.countP (Occurrence.fails phase) := by
  induction h with
  | nil => rfl
  | cons occurrence earlier ih =>
    have hbefore := ih hisolated.2
    cases hends : occurrence.ends with
    | true =>
      rw [courses_cons_of_ends hends, List.countP_cons, hbefore, List.countP_cons,
        fails_of_ends hends]
      rfl
    | false =>
      obtain ⟨course, past, hcourses, hfailed⟩ := exists_courses_eq_cons phase earlier
      rw [hcourses, List.countP_cons, hfailed] at hbefore
      rw [courses_cons hends hcourses, List.countP_cons, List.any_cons, hfailed, List.countP_cons,
        ← hbefore]
      cases hfails : occurrence.fails phase with
      | true => simp [unfailed_of_fails hisolated hfails]
      | false => simp

/-- In a stretch of a history in which no tick ends, a phase fails once at most, and not at all if
it has failed in that tick before. -/
lemma countP_fails_add (phase : Phase) (hisolated : Along (Isolated setup) (walked ++ base))
    (hends : ∀ occurrence ∈ walked, occurrence.ends = false) :
    walked.countP (Occurrence.fails phase) + (failed phase base).toNat =
      (failed phase (walked ++ base)).toNat := by
  induction walked with
  | nil => exact Nat.zero_add _
  | cons occurrence earlier ih =>
    obtain ⟨hgoes, hearlier⟩ := List.forall_mem_cons.1 hends
    rw [List.cons_append] at hisolated ⊢
    have hbefore := ih hisolated.2 hearlier
    rw [failed, hgoes, List.countP_cons, Bool.not_false, Bool.true_and]
    cases hfails : occurrence.fails phase with
    | true =>
      rw [unfailed_of_fails hisolated hfails, Bool.toNat_false, Nat.add_eq_zero_iff] at hbefore
      rw [hbefore.1, hbefore.2]
      rfl
    | false => exact hbefore

/-- A phase whose failure is left to count has failed. -/
lemma failed_of_uncounted? (hdue : uncounted? h = some (.phaseErrors phase)) :
    failed phase h = true := by
  induction h with
  | nil => cases hdue
  | cons occurrence earlier ih =>
    cases occurrence with
    | answered purpose call reply =>
      have hfails : Occurrence.fails phase (.answered purpose call reply) = true :=
        beq_iff_eq.2 (faultOf?_of_dueOf?_phaseErrors hdue)
      rw [failed, hfails]
      rfl
    | logged event =>
      have hbefore : failed phase earlier = true := ih hdue
      rw [failed, hbefore]
      rfl
    | _ => cases hdue

/-! ## The counters -/

/-- At each moment a counter shows what it is to count, but for the last occasion while that is left
to count. -/
lemma tally_add_uncounted (hisolated : Along (Isolated setup) h) (counter : Counter) :
    Trace.tally h.reverse counter + (uncounted? h).toList.count counter =
      occasions h counter := by
  have hisolated' : Along (Isolated setup) (h ++ []) := by rwa [List.append_nil]
  have hcounts := congrArg (List.count counter) (uncounted_append_counted h [] hisolated')
  rw [List.append_nil, List.count_append, List.count_append, ← tally_reverse, Nat.add_comm]
    at hcounts
  refine hcounts.trans ?_
  change _ + 0 = _
  rw [Nat.add_zero]
  cases counter with
  | dealsStarted =>
    rw [List.count_filterMap, occasions]
    exact congrArg (List.countP · h) (funext fun _ => due?_beq_dealsStarted_and_queries.1)
  | retrievalQueryFailures =>
    rw [List.count_filterMap, occasions]
    exact congrArg (List.countP · h) (funext fun _ => due?_beq_dealsStarted_and_queries.2)
  | phaseErrors phase =>
    rw [count_due_phaseErrors hisolated', occasions, countP_courses hisolated]

/-- As long as no tick ends, a phase is counted once at most. -/
lemma tally_phaseErrors_le_one (hisolated : Along (Isolated setup) (walked ++ base))
    (hends : ∀ occurrence ∈ walked, occurrence.ends = false) :
    Trace.tally walked.reverse (.phaseErrors phase) ≤ 1 := by
  have hcounts := congrArg (List.count (.phaseErrors phase))
    (uncounted_append_counted walked base hisolated)
  have hfails := countP_fails_add phase hisolated hends
  rw [List.count_append, List.count_append, ← tally_reverse, count_due_phaseErrors hisolated]
    at hcounts
  -- what is left to count before the stretch is a failure in the same tick
  have hleft : (uncounted? base).toList.count (.phaseErrors phase) ≤ (failed phase base).toNat := by
    rcases Nat.eq_zero_or_pos ((uncounted? base).toList.count (.phaseErrors phase)) with hno | hpos
    · rw [hno]
      exact Nat.zero_le _
    · have hdue := Option.mem_toList.1 (List.count_pos_iff.1 hpos)
      rw [hdue, failed_of_uncounted? hdue, Option.toList_some, List.count_singleton_self]
      exact Nat.le_refl 1
  have hle : (failed phase (walked ++ base)).toNat ≤ 1 := Bool.toNat_le _
  omega

/-- While no program of the driver runs, nothing is left to count. -/
lemma Life.uncounted?_eq_none (life : Life setup events replicator)
    (hrests : ¬ replicator.IsActive) : uncounted? (trace events) = none := by
  have hkeeps :=
    (life.along_and_keeps (isolation_upheld setup) (along_of_forall fun _ _ _ _ => trivial)).2
  unfold Replicator.Keeps at hkeeps
  split at hkeeps
  · next running hrunning =>
    obtain ⟨isStopping, driver⟩ := running
    cases driver with
    | active program => exact absurd ⟨isStopping, program, hrunning⟩ hrests
    | hanging purpose call resume =>
      obtain ⟨⟨earlier, heq⟩, -⟩ := hkeeps
      rw [heq]
      rfl
    | asleep worker left => exact hkeeps.uncounted
    | finished worker => exact hkeeps.uncounted
    | broken =>
      obtain ⟨earlier, heq⟩ := hkeeps
      rw [heq]
      rfl
  · exact hkeeps.uncounted

/-- How the counters account for the calls of the node. -/
structure CountersExact (setup : Setup) (events : List Event) (replicator : Replicator) : Prop where
  /-- At each moment a counter shows what it is to count, but for the last occasion while that is
  left to count. -/
  exact : ∀ h, h <:+ trace events → ∀ counter,
    Trace.tally h.reverse counter + (uncounted? h).toList.count counter = occasions h counter
  /-- While no program of the driver runs, nothing is left to count. -/
  settled : ¬ replicator.IsActive → uncounted? (trace events) = none
  /-- As long as no tick ends, a phase is counted once at most. -/
  once : ∀ later walked base, trace events = later ++ (walked ++ base) →
    (∀ occurrence ∈ walked, occurrence.ends = false) → ∀ phase,
      Trace.tally walked.reverse (.phaseErrors phase) ≤ 1
  /-- Each call is made in the phase of its purpose, and is one that is made for it. -/
  placed : ∀ h purpose call, .called purpose call :: h <:+ trace events →
    phase? h = purpose.part?.map Part.phase ∧ purpose.asks call = true

/-- **The counters account exactly for the calls of the node.**  In each life of a replicator, with
restarts, phases that are given up and ticks that break off, each counter shows how often that
happened which it counts: deals that the node took, queries that failed, and for each phase the
ticks in which it failed.  No phase is counted twice in a tick. -/
theorem Life.counters_exact (life : Life setup events replicator) :
    CountersExact setup events replicator where
  exact _ hsuffix counter := tally_add_uncounted (life.isolated.of_suffix hsuffix) counter
  settled := life.uncounted?_eq_none
  once later walked base htrace hends phase := by
    have hisolated := life.isolated
    rw [htrace] at hisolated
    exact tally_phaseErrors_le_one hisolated.of_append hends
  placed h purpose call hsuffix := by
    obtain ⟨⟨-, hcall⟩, -⟩ := life.isolated.of_suffix hsuffix
    exact ⟨hcall.phase, hcall.asks⟩

namespace Sample

/-- A node with the deals of the crowded one that reaches no provider and lets the local miner serve
nothing.  Later it fails the reads of the head of the chain and does not say what it stores. -/
def faultyNode : Surroundings Bool where
  call isFaulty call :=
    (.reply (match isFaulty, call with
      | _, .query _ _ => .error ⟨[]⟩
      | true, .chainHead => .error ⟨[]⟩
      | true, .hasLocal _ => .error ⟨[]⟩
      | _, .offer miner root => .ok ⟨"not served", root, 0, miner⟩
      | _, call => .ok (crowdedAnswer true call)), isFaulty)
  release isFaulty call := (.ok (crowdedAnswer true call), isFaulty)
  choose isFaulty _ pos := (⟨0, pos⟩, isFaulty)

/-- A session in which deals are started and queries fail, and after that all phases of a tick. -/
def faultySession : Session Bool :=
  [.start, .alter fun _ => true, .advance 10000, .stop .never].foldl (Session.perform faultyNode)
    (.new crowdedSetup false)

/-- The faulty session shows a life. -/
lemma showsLife_faultySession : faultySession.ShowsLife crowdedSetup :=
  Session.showsLife_of_commands faultyNode crowdedSetup false _

end Sample

/-- The counters are exact in a life in which all of them count, and all phases fail in one tick. -/
theorem Life.counters_exact_faulty :
    ∃ events, Life Sample.crowdedSetup events Sample.faultySession.replicator ∧
      Counter.all.map (Trace.tally (trace events).reverse) = [2, 3, 1, 1, 1] ∧
      CountersExact Sample.crowdedSetup events Sample.faultySession.replicator := by
  obtain ⟨events, life, htrace⟩ := Sample.showsLife_faultySession
  refine ⟨events, life, ?_, life.counters_exact⟩
  rw [htrace]
  decide +kernel

end PieceReplication
