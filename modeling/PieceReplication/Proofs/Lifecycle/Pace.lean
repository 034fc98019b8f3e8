import PieceReplication.Proofs.Conduct.Work
import PieceReplication.Proofs.Run.Turns
import PieceReplication.Proofs.Run.Walks

/-!
# The pace of the driver

What the driver did since it began the tick in progress is read off the history (`History.tick?`):
a tick begins with a call or a part while none is in progress, and ends when its figures are
published.  The marks of a tick (`Occurrence.mark?`) are what comes at most once in it, numbered in
their order: the read of the sync state, the parts, and in the index phase the reads of the head
and of the deals of the node.

The pace says when the driver looks for a stop request, and what it does in between (`Paced`).  A
tick begins only right after a look that found none, the tipset of an epoch is requested only right
after such a look, the marks come in their order, and what happened in a tick until its figures are
published is a run of the tick from the state in which it began to the state at its end.  Between
two ticks the state of the worker stays as it is.
-/

namespace PieceReplication

open History

/-! ## Ticks in a history -/

/-- What happened in the tick in progress; none between two ticks. -/
@[simp] def History.tick? : History → Option History
  | [] => none
  | occurrence :: earlier =>
    match occurrence with
    | .called _ _ => some (occurrence :: (tick? earlier).getD [])
    | .entered _ => some (occurrence :: (tick? earlier).getD [])
    | .published _ => none
    | .brokeOff => none
    | _ => (tick? earlier).map (occurrence :: ·)

/-- Whether an occurrence begins a tick if none is in progress. -/
def Occurrence.begins : Occurrence → Bool
  | .called _ _ => true
  | .entered _ => true
  | _ => false

/-- Whether an occurrence ends the tick in progress. -/
def Occurrence.ends : Occurrence → Bool
  | .published _ => true
  | .brokeOff => true
  | _ => false

/-- The number of a mark of a tick. -/
def Occurrence.mark? : Occurrence → Option Nat
  | .called _ .syncState => some 0
  | .entered .indexing => some 1
  | .called _ .chainHead => some 2
  | .called _ .clientDeals => some 3
  | .entered .retrievalSweep => some 4
  | .entered .retrievalScan => some 5
  | .entered .dealSweep => some 6
  | .entered .dealScan => some 7
  | _ => none

/-- The marks of some occurrences. -/
def History.marks (h : History) : List Nat :=
  h.filterMap Occurrence.mark?

/-- The driver has just looked for a stop request before a tick or an epoch, and found none. -/
def History.IsCleared (h : History) : Prop :=
  ∃ earlier, h = .looked false :: earlier ∧ ∀ stats, earlier.head? ≠ some (.published stats)

/-- Nothing is relied on, and nothing guaranteed. -/
def unrestricted : Contract where
  rely _ _ := True
  guarantee _ _ := True

section Pace

variable (setup : Setup)

/-- The pace of the driver, at an occurrence and the history before it. -/
structure Paced (h : History) (occurrence : Occurrence) : Prop where
  begun : occurrence.begins = true → tick? h = none → IsCleared h
  ordered : ∀ n, occurrence.mark? = some n → ∀ walked, tick? h = some walked →
    ∀ m ∈ marks walked, m < n
  tipset : ∀ purpose height, occurrence = .called purpose (.tipsetAt height) → IsCleared h
  published : ∀ stats, occurrence = .published stats → ∃ walked base, h = walked ++ base ∧
    tick? h = some walked ∧
    ((Tick.run setup).run (worker setup.config base)).Ends unrestricted []
      ((), worker setup.config h)
      walked
  tookOver : ∀ w, occurrence = .became w → tick? h = none → w = worker setup.config h

/-- The contract that the driver keeps its pace, whatever its surroundings supply. -/
def pace : Contract where
  rely _ _ := True
  guarantee := Paced setup

/-- Between two turns: no tick is in progress, and if one was, the look after it is over. -/
structure Between (w : Worker) (h : History) : Prop where
  worker_eq : worker setup.config h = w
  tick?_eq : tick? h = none
  head_ne : ∀ stats, h.head? ≠ some (.published stats)

end Pace

variable {setup : Setup} {w : Worker} {h base : History} {n : Nat}

/-- In a tick that began on top of a history, with no mark above a number. -/
def Ticking (base : History) (n : Nat) (h : History) : Prop :=
  ∃ walked, h = walked ++ base ∧ tick? h = some walked ∧ ∀ m ∈ marks walked, m ≤ n

/-- What begins nothing and publishes nothing is in the pace. -/
lemma paced_of_not_begins {occurrence : Occurrence} (hbegins : occurrence.begins = false)
    (hends : ∀ stats, occurrence ≠ .published stats)
    (htook : ∀ w, occurrence = .became w → tick? h = none → w = worker setup.config h) :
    Paced setup h occurrence where
  begun hbegun := by
    rw [hbegins] at hbegun
    cases hbegun
  ordered n hmark := by
    cases occurrence with
    | called purpose call => cases hbegins
    | entered part => cases hbegins
    | _ => cases hmark
  tipset purpose height heq := by
    rw [heq] at hbegins
    cases hbegins
  published stats heq := absurd heq (hends stats)
  tookOver := htook

/-- Whether something is in the pace whenever it happens: it begins nothing, publishes nothing and
takes no worker over. -/
def Occurrence.isFree : Occurrence → Bool
  | .called .. | .entered _ | .published _ | .became _ => false
  | _ => true

/-- What is free is in the pace. -/
lemma paced_of_isFree {occurrence : Occurrence} (hfree : occurrence.isFree = true) :
    Paced setup h occurrence := by
  cases occurrence with
  | called | entered | published | became => cases hfree
  | _ => exact paced_of_not_begins rfl (by rintro stats ⟨⟩) (by rintro w ⟨⟩)

/-- A tick in progress goes on with what does not end it. -/
lemma tick?_cons {walked : History} {occurrence : Occurrence} (htick : tick? h = some walked)
    (hends : occurrence.ends = false) : tick? (occurrence :: h) = some (occurrence :: walked) := by
  cases occurrence with
  | published stats => cases hends
  | brokeOff => cases hends
  | _ => simp [htick]

/-- A first call or part begins a tick. -/
lemma tick?_of_begins {occurrence : Occurrence} (htick : tick? h = none)
    (hbegins : occurrence.begins = true) : tick? (occurrence :: h) = some [occurrence] := by
  cases occurrence with
  | called purpose call => simp [htick]
  | entered part => simp [htick]
  | _ => cases hbegins

/-- The first step of a tick. -/
lemma ticking_of_begins {occurrence : Occurrence} (hcleared : IsCleared base)
    (htick : tick? base = none) (hbegins : occurrence.begins = true)
    (hmark : ∀ m, occurrence.mark? = some m → m ≤ n)
    (htipset : ∀ purpose height, occurrence ≠ .called purpose (.tipsetAt height)) :
    Paced setup base occurrence ∧ Ticking base n (occurrence :: base) := by
  refine ⟨⟨fun _ _ => hcleared, fun m _ walked hwalked => ?_, fun purpose height heq =>
    absurd heq (htipset purpose height), ?_, ?_⟩, [occurrence], rfl,
    tick?_of_begins htick hbegins, ?_⟩
  · rw [htick] at hwalked
    cases hwalked
  · rintro stats rfl
    cases hbegins
  · rintro w rfl
    cases hbegins
  · intro m hm
    obtain ⟨other, hother, hmarked⟩ := List.mem_filterMap.1 hm
    obtain rfl := List.mem_singleton.1 hother
    exact hmark m hmarked

/-- A bound on the marks of a tick can be raised. -/
lemma Ticking.mono {n' : Nat} (hticking : Ticking base n h) (hle : n ≤ n') : Ticking base n' h := by
  obtain ⟨walked, hwalked, htick, hmarks⟩ := hticking
  exact ⟨walked, hwalked, htick, fun m hm => Nat.le_trans (hmarks m hm) hle⟩

/-- In a tick, one is in progress. -/
lemma Ticking.absurd (hticking : Ticking base n h) {P : Prop} (hnone : tick? h = none) : P := by
  obtain ⟨walked, -, hwalked, -⟩ := hticking
  rw [hwalked] at hnone
  cases hnone

/-- A step of a tick, with no mark but the next ones. -/
lemma Ticking.step (hticking : Ticking base n h) {occurrence : Occurrence} {n' : Nat}
    (hle : n ≤ n') (hends : occurrence.ends = false)
    (hmark : ∀ m, occurrence.mark? = some m → n < m ∧ m ≤ n')
    (htipset : ∀ purpose height, occurrence = .called purpose (.tipsetAt height) → IsCleared h) :
    Paced setup h occurrence ∧ Ticking base n' (occurrence :: h) := by
  have habsurd : ∀ {P : Prop}, tick? h = none → P := hticking.absurd
  obtain ⟨walked, rfl, hwalked, hmarks⟩ := hticking
  refine ⟨⟨fun _ => habsurd, fun m hm walked' hwalked' m' hm' => ?_, htipset, ?_,
    fun _ _ => habsurd⟩, occurrence :: walked, rfl, tick?_cons hwalked hends, fun m hm => ?_⟩
  · rw [hwalked] at hwalked'
    cases hwalked'
    exact Nat.lt_of_le_of_lt (hmarks m' hm') (hmark m hm).1
  · rintro stats rfl
    cases hends
  · cases hmarked : occurrence.mark? with
    | none =>
      rw [marks, List.filterMap_cons_none hmarked] at hm
      exact Nat.le_trans (hmarks m hm) hle
    | some m' =>
      rw [marks, List.filterMap_cons_some hmarked] at hm
      rcases List.mem_cons.1 hm with rfl | hm
      · exact (hmark m hmarked).2
      · exact Nat.le_trans (hmarks m hm) hle

/-- A step of a tick that begins nothing. -/
lemma Ticking.quiet (hticking : Ticking base n h) {occurrence : Occurrence}
    (hbegins : occurrence.begins = false) (hends : occurrence.ends = false) :
    Ticking base n (occurrence :: h) := by
  obtain ⟨walked, rfl, hwalked, hmarks⟩ := hticking
  refine ⟨occurrence :: walked, rfl, tick?_cons hwalked hends, ?_⟩
  have hmark : occurrence.mark? = none := by
    cases occurrence with
    | called purpose call => cases hbegins
    | entered part => cases hbegins
    | _ => rfl
  rwa [marks, List.filterMap_cons_none hmark]

/-- A look that finds no stop request in a tick clears the next step. -/
lemma Ticking.isCleared (hticking : Ticking base n h) : IsCleared (.looked false :: h) := by
  refine ⟨h, rfl, fun stats hhead => ?_⟩
  obtain ⟨walked, -, htick, -⟩ := hticking
  obtain ⟨earlier, rfl⟩ := List.head?_eq_some_iff.1 hhead
  cases htick

/-- What a part allows goes on with the tick. -/
lemma keeps_ticking (setup : Setup) (part : Part) (base : History) (n : Nat) :
    part.Keeps (pace setup) (Ticking base n) where
  step h occurrence hticking hallowed := by
    cases occurrence with
    | called purpose call =>
      refine hticking.step (Nat.le_refl n) rfl ?_ ?_
      · intro m hmark
        cases part <;> cases call <;> cases hallowed <;> cases hmark
      · intro _ height heq
        cases heq
        cases part <;> cases hallowed
    | looked | entered | published | brokeOff => cases hallowed
    | _ => exact ⟨paced_of_not_begins rfl nofun fun _ _ => hticking.absurd, hticking.quiet rfl rfl⟩
  broke h _ := paced_of_isFree rfl

/-! ## The phases -/

/-- In a tick, with the state of the worker shown by the history. -/
abbrev Paces (setup : Setup) (base : History) (n : Nat) : Worker → History → Prop :=
  Shows setup (Ticking base n)

open Activity

/-- What the walk over the epochs does goes on with the tick. -/
lemma Indexing.keeps_ticking (setup : Setup) (base : History) (n : Nat) :
    Keeps (pace setup) (Ticking base n) where
  toKeeps := PieceReplication.keeps_ticking setup .indexing base n
  looked _ _ hticking := ⟨paced_of_isFree rfl, hticking.quiet rfl rfl⟩
  tipset h height hticking := by
    have hlooked : Ticking base n (.looked false :: h) := hticking.quiet rfl rfl
    obtain ⟨hcalled, hstep⟩ : Paced setup (.looked false :: h)
        (.called .indexing (.tipsetAt height)) ∧ Ticking base n _ :=
      hlooked.step (Nat.le_refl n) rfl (by rintro m ⟨⟩) fun _ _ _ => hticking.isCleared
    exact ⟨hcalled, fun _ => hstep.quiet rfl rfl⟩

/-- The index phase keeps the pace, if it may begin. -/
lemma Indexing.paces_run (hworker : worker setup.config h = w)
    (hbegins : Paced setup h (.entered .indexing) ∧ Ticking base 1 (.entered .indexing :: h)) :
    Meets (pace setup) (run setup) w h (fun _ => Paces setup base 3)
      fun _ => Paces setup base 3 := by
  obtain ⟨hentered, hticking⟩ := hbegins
  subst hworker
  have hanswered : ∀ {n purpose call} {h : History} (reply : Reply call), Ticking base n h →
      Ticking base n (.answered purpose call reply :: h) :=
    fun _ hticking => hticking.quiet rfl rfl
  simp only [run, meets_bind, meets_enter]
  refine ⟨hentered, ?_⟩
  obtain ⟨hhead, hticking⟩ : Paced setup _ (.called .indexing .chainHead) ∧ Ticking base 2 _ :=
    hticking.step (by decide) rfl (by rintro m ⟨⟩; decide) (by rintro purpose height ⟨⟩)
  refine meets_chainRead.2 ⟨hhead, fun head _ => ?_,
    fun failure _ => ⟨rfl, hanswered _ (hticking.mono (by decide))⟩⟩
  obtain ⟨hlist, hticking⟩ : Paced setup _ (.called .indexing .clientDeals) ∧ Ticking base 3 _ :=
    (hanswered _ hticking).step (by decide) rfl (by rintro m ⟨⟩; decide)
      (by rintro purpose height ⟨⟩)
  refine meets_chainRead.2 ⟨hlist, fun clientDeals _ => ?_,
    fun failure _ => ⟨rfl, hanswered _ hticking⟩⟩
  exact meets_indexEpochs_of_keeps (keeps_ticking setup base 3) _ ⟨rfl, hanswered _ hticking⟩

/-- A part of a tick begins. -/
lemma Ticking.entered {n' : Nat} (hticking : Ticking base n h) {part : Part} (hlt : n < n')
    (hmark : Occurrence.mark? (.entered part) = some n') :
    Paced setup h (.entered part) ∧ Ticking base n' (.entered part :: h) := by
  refine hticking.step (Nat.le_of_lt hlt) rfl ?_ nofun
  intro m hm
  rw [hmark] at hm
  cases hm
  exact ⟨hlt, Nat.le_refl n'⟩

/-- The retrieval phase keeps the pace. -/
lemma Retrieval.paces_run (hs : Paces setup base 3 w h) :
    Meets (pace setup) (run setup) w h (fun _ => Paces setup base 5) fun _ => Paces setup base 5 :=
  meets_sweep_scan confined_sweepKey confined_isFull (fun w => confined_scan w.pieces.keys)
    (keeps_ticking setup _ base 4) (keeps_ticking setup _ base 5) hs.worker_eq
    (hs.holds.entered (by decide) rfl) (fun _ hticking => hticking.entered (by decide) rfl)
    fun _ hticking => hticking.mono (by decide)

/-- The deal phase keeps the pace. -/
lemma Dealing.paces_run (hs : Paces setup base 5 w h) :
    Meets (pace setup) (run setup) w h (fun _ => Paces setup base 7) fun _ => Paces setup base 7 :=
  meets_sweep_scan confined_sweepKey confined_isFull (fun w => confined_scan false w.pieces.keys)
    (keeps_ticking setup _ base 6) (keeps_ticking setup _ base 7) hs.worker_eq
    (hs.holds.entered (by decide) rfl) (fun _ hticking => hticking.entered (by decide) rfl)
    fun _ hticking => hticking.mono (by decide)

/-! ## The tick -/

namespace Tick

/-- A phase that is given up is reported and counted in the pace. -/
lemma paces_given (hs : Paces setup base n w h) (phase : Phase) (event : LogEvent) :
    Task.Meets (pace setup) (do Task.log event; Task.count (.phaseErrors phase)) w h
      fun _ => Paces setup base n := by
  have hlogged : Ticking base n (.logged event :: h) := hs.holds.quiet rfl rfl
  simp only [Task.meets_bind, Task.meets_log, Task.meets_count]
  exact ⟨paced_of_isFree rfl, paced_of_isFree rfl, hs.worker_eq,
    hlogged.quiet rfl rfl⟩

/-- A phase keeps the pace together with the report if it is given up. -/
lemma paces_runPhase {activity : Activity Unit}
    (hmeets : Meets (pace setup) activity w h (fun _ => Paces setup base n)
      fun _ => Paces setup base n) (phase : Phase) (report : PhaseError → LogEvent) :
    Task.Meets (pace setup) (runPhase phase report activity) w h fun _ => Paces setup base n := by
  rw [runPhase, Task.meets_bind]
  refine Task.Meets.mono hmeets fun result w' h' hs => ?_
  cases result with
  | ok value => exact hs
  | error error => exact paces_given hs phase _

/-- The index phase keeps the pace, whether it has to pause or not. -/
lemma paces_index (hworker : worker setup.config base = w) (htick : tick? base = none)
    (hcleared : IsCleared base) :
    Task.Meets (pace setup) (index setup) w base fun _ => Paces setup base 3 := by
  rw [index]
  split
  · obtain ⟨hcalled, hticking⟩ :
        Paced setup base (.called .syncing .syncState) ∧ Ticking base 0 _ :=
      ticking_of_begins hcleared htick rfl (by rintro m ⟨⟩; decide)
        (by rintro purpose height ⟨⟩)
    have hanswered : ∀ reply, Paces setup base 0 w
        (.answered .syncing .syncState reply :: .called .syncing .syncState :: base) :=
      fun _ => ⟨hworker, hticking.quiet rfl rfl⟩
    have hquestion : Meets (pace setup) isCatchingUp w base (fun _ => Paces setup base 0)
        fun _ => Paces setup base 0 := by
      simp only [isCatchingUp, meets_bind]
      refine meets_request.2 ⟨hcalled, fun status _ => ?_, fun failure _ => hanswered _⟩
      exact meets_checked.2 ⟨fun _ _ => hanswered _, fun _ _ => paced_of_isFree rfl⟩
    have hlater : ∀ w' h', Paces setup base 0 w' h' → Paces setup base 3 w' h' :=
      fun _ _ hs => ⟨hs.worker_eq, hs.holds.mono (by decide)⟩
    rw [Task.meets_bind]
    refine Task.Meets.mono hquestion fun result w' h' hs => ?_
    cases result with
    | ok isCatchingUp =>
      cases isCatchingUp with
      | true =>
        have hticking : Ticking base 3 h' := (hlater w' h' hs).holds
        exact Task.meets_log.2
          ⟨paced_of_isFree rfl, hs.worker_eq, hticking.quiet rfl rfl⟩
      | false =>
        exact paces_runPhase
          (Indexing.paces_run hs.worker_eq (hs.holds.entered (by decide) rfl)) _ _
    | error error => exact paces_given (hlater w' h' hs) _ _
  · refine paces_runPhase (Indexing.paces_run hworker ?_) _ _
    exact ticking_of_begins hcleared htick rfl (by rintro m ⟨⟩; decide)
      (by rintro purpose height ⟨⟩)

/-- A tick keeps the pace. -/
lemma paces_run (hworker : worker setup.config base = w) (htick : tick? base = none)
    (hcleared : IsCleared base) :
    Task.Meets (pace setup) (run setup) w base fun _ => Paces setup base 7 := by
  simp only [run, Task.meets_bind]
  refine (paces_index hworker htick hcleared).mono fun _ w₁ h₁ hindexed => ?_
  refine (paces_runPhase (Retrieval.paces_run hindexed) _ _).mono fun _ w₂ h₂ hretrieved => ?_
  exact paces_runPhase (Dealing.paces_run hretrieved) _ _

end Tick

/-! ## The turn -/

/-- What begins nothing leaves the driver between two turns. -/
lemma Between.cons (hs : Between setup w h) {occurrence : Occurrence}
    (hbegins : occurrence.begins = false) (hends : occurrence.ends = false)
    (hworker : worker setup.config (occurrence :: h) = w) : Between setup w (occurrence :: h) := by
  refine ⟨hworker, ?_, ?_⟩
  · have htick := hs.tick?_eq
    cases occurrence with
    | called purpose call => cases hbegins
    | entered part => cases hbegins
    | published stats => cases hends
    | brokeOff => cases hends
    | _ => simp [htick]
  · rintro stats ⟨⟩
    cases hends

/-- The figures of a tick are published in the pace. -/
lemma paced_published {w' : Worker} (hbase : worker setup.config base = w)
    (hs : Paces setup base n w' h)
    (hends : ((Tick.run setup).run w).Ends (pace setup) base ((), w') h) (stats : Stats) :
    Paced setup h (.published stats) := by
  refine ⟨nofun, nofun, nofun, fun _ _ => ?_, nofun⟩
  obtain ⟨hworker, walked, hwalked, htick, -⟩ := hs
  obtain ⟨walked', hwalked', hrun⟩ : ∃ walked, h = walked ++ base ∧
      ((Tick.run setup).run w).Ends unrestricted [] ((), w') walked :=
    Program.Ends.exists_walk (fun _ _ _ => trivial) hends
  rw [hwalked] at hwalked'
  obtain rfl := List.append_cancel_right hwalked'
  refine ⟨walked, base, hwalked, htick, ?_⟩
  rw [hbase, hworker]
  exact hrun

/-- The end of the driver is in the pace. -/
lemma paces_finish (hs : Between setup w h) :
    (Turn.finish w).Meets (pace setup) h fun turnEnd => Between setup turnEnd.worker :=
  ⟨paced_of_isFree rfl, hs.cons rfl rfl hs.worker_eq⟩

/-- A turn keeps the pace. -/
lemma paces_turn (hs : Between setup w h) :
    (Turn.run setup w).Meets (pace setup) h fun turnEnd => Between setup turnEnd.worker := by
  rw [Turn.run, Program.meets_bind, Program.meets_effect_stopRequested]
  intro isStopping _
  refine ⟨paced_of_isFree rfl, ?_⟩
  have hlooked : Between setup w (.looked isStopping :: h) := hs.cons rfl rfl hs.worker_eq
  cases isStopping with
  | true => exact paces_finish hlooked
  | false =>
    have hticked := Tick.paces_run hlooked.worker_eq hlooked.tick?_eq ⟨h, rfl, hs.head_ne⟩
    simp only [Bool.false_eq_true, ↓reduceIte, Turn.tick, Program.meets_bind]
    refine (Program.Meets.and_ends hticked).mono ?_
    rintro ⟨⟨⟩, w'⟩ h' ⟨hpaces, hends⟩
    refine ⟨paced_published hlooked.worker_eq hpaces hends _, fun isStopping _ => ?_⟩
    refine ⟨paced_of_isFree rfl, ?_⟩
    have hlooked' : Between setup w' (.looked isStopping :: .published w'.stats :: h') :=
      ⟨hpaces.worker_eq, rfl, by rintro stats ⟨⟩⟩
    cases isStopping with
    | true => exact paces_finish hlooked'
    | false => exact hlooked'

/-- The driver keeps its pace in each of its turns. -/
lemma pace_upheld (setup : Setup) : (pace setup).Upheld setup (Between setup) where
  fresh := ⟨rfl, rfl, by rintro stats ⟨⟩⟩
  broken _ := ⟨rfl, rfl, by rintro stats ⟨⟩⟩
  first w h hs := by
    have htaken : Between setup w (.became w :: h) := hs.cons rfl rfl rfl
    have hstarted : Between setup w (.logged (.started w.cursor) :: .became w :: h) :=
      htaken.cons rfl rfl rfl
    simp only [Turn.first, Program.meets_bind]
    refine ⟨paced_of_not_begins rfl (by rintro stats ⟨⟩) ?_, paced_of_isFree rfl,
      paces_turn hstarted⟩
    rintro _ ⟨⟩ _
    exact hs.worker_eq.symm
  turn _ _ := paces_turn
  answered _ _ _ _ := paced_of_isFree rfl
  panic _ _ _ := paced_of_isFree rfl

/-- **The pace of the driver.**  In each life of a replicator, whatever its surroundings supply, the
driver keeps its pace. -/
theorem Life.paced {events : List Event} {replicator : Replicator}
    (life : Life setup events replicator) : Along (Paced setup) (trace events) :=
  life.along (pace_upheld setup) (along_of_forall fun _ _ _ _ => trivial)

/-! ## Sleep -/

/-- A program meets the contract that asks for nothing. -/
lemma Program.meets_unrestricted {α : Type} (program : Program α) (h : History) :
    program.Meets unrestricted h fun _ _ => True := by
  induction program generalizing h with
  | done result => trivial
  | perform effect resume ih =>
    cases effect with
    | call purpose call => exact ⟨trivial, fun reply _ => ih reply _⟩
    | choose n pos => exact fun choice _ => ⟨trivial, ih choice _⟩
    | stopRequested => exact fun answer _ => ⟨trivial, ih answer _⟩
    | overflow cause => trivial
    | enter part => exact ⟨trivial, ih () _⟩
    | log event => exact ⟨trivial, ih () _⟩
    | count counter => exact ⟨trivial, ih () _⟩
    | become worker => exact ⟨trivial, ih () _⟩
    | publish stats => exact ⟨trivial, ih () _⟩

/-- How a turn comes to its end: the driver goes to sleep right after a look that found no stop
request, and ends right after a report. -/
def TurnEnd.Closes : TurnEnd → History → Prop
  | asleep _, h => ∃ stats earlier, h = .looked false :: .published stats :: earlier
  | finished worker, h => h.head? = some (.logged (.stopped worker.cursor))

/-- Whether the turn of a driver comes, or has come, to its end so. -/
def Driver.Closes : Driver → History → Prop
  | active program, h => program.Meets unrestricted h TurnEnd.Closes
  | hanging purpose call resume, h => ∀ reply,
      (resume reply).Meets unrestricted (.answered purpose call reply :: h) TurnEnd.Closes
  | asleep worker _, h => TurnEnd.Closes (.asleep worker) h
  | finished worker, h => TurnEnd.Closes (.finished worker) h
  | broken, h => h.head? = some .brokeOff

/-- Whether the turn of the driver of a replicator comes to its end so; if there is no driver, the
last thing that happened is no look. -/
def Replicator.Closes (replicator : Replicator) (h : History) : Prop :=
  match replicator.running with
  | some running => running.driver.Closes h
  | none => ∀ isStopping, h.head? ≠ some (.looked isStopping)

/-- A turn comes to its end with a look or a report. -/
lemma Turn.closes_run (w : Worker) (h : History) :
    (Turn.run setup w).Meets unrestricted h TurnEnd.Closes := by
  have hfinish : ∀ w h, (Turn.finish w).Meets unrestricted h TurnEnd.Closes :=
    fun _ _ => ⟨trivial, rfl⟩
  rw [Turn.run, Program.meets_bind, Program.meets_effect_stopRequested]
  intro isStopping _
  refine ⟨trivial, ?_⟩
  cases isStopping with
  | true => exact hfinish w _
  | false =>
    simp only [Bool.false_eq_true, ↓reduceIte, Turn.tick, Program.meets_bind]
    refine (Program.meets_unrestricted _ _).mono fun result h' _ => ?_
    refine ⟨trivial, fun isStopping _ => ⟨trivial, ?_⟩⟩
    cases isStopping with
    | true => exact hfinish _ _
    | false => exact ⟨_, h', rfl⟩

/-- A driver that does something comes to the end of its turn as before. -/
lemma Driver.Closes.step {isStopping : Bool} {driver driver' : Driver} {occurrence : Occurrence}
    (hcloses : driver.Closes h) (hstep : Driver.Step isStopping driver occurrence driver') :
    driver'.Closes (occurrence :: h) := by
  cases hstep with
  | call => exact fun reply => hcloses.2 reply trivial
  | answer reply => exact hcloses reply
  | panic => rfl
  | choose choice => exact (hcloses choice trivial).2
  | look => exact (hcloses _ trivial).2
  | overflow => rfl
  | enter => exact hcloses.2
  | log => exact hcloses.2
  | count => exact hcloses.2
  | become => exact hcloses.2
  | publish => exact hcloses.2

/-- In each life the turns come to their ends with a look or a report. -/
lemma Life.closes {events : List Event} {replicator : Replicator}
    (life : Life setup events replicator) : replicator.Closes (trace events) := by
  induction life with
  | new => exact nofun
  | start life hstart ih =>
    unfold Replicator.start at hstart
    split at hstart
    · cases hstart
    · cases hstart
      have hsetup := life.setup_eq
      exact ⟨trivial, trivial, hsetup ▸ Turn.closes_run _ _⟩
  | requestStop life hrequest ih =>
    unfold Replicator.requestStop at hrequest
    unfold Replicator.Closes at ih
    split at hrequest
    · cases hrequest
    · next running hrunning =>
      cases hrequest
      rw [hrunning] at ih
      exact ih
  | collect life hcollect ih =>
    unfold Replicator.collect? at hcollect
    unfold Replicator.Closes at ih
    split at hcollect
    · next isStopping worker hrunning =>
      cases hcollect
      rw [hrunning] at ih
      intro isStopping hhead
      cases hhead.symm.trans ih
    · next isStopping hrunning =>
      cases hcollect
      rw [hrunning] at ih
      intro isStopping hhead
      cases hhead.symm.trans ih
    · cases hcollect
  | doze life milliseconds ih =>
    unfold Replicator.doze
    split
    · next isStopping worker left hrunning =>
      unfold Replicator.Closes Replicator.setDriver at *
      rw [hrunning] at ih ⊢
      exact ih
    · exact ih
  | wake life hrunning ih =>
    have hsetup := life.setup_eq
    unfold Replicator.Closes Replicator.wake Replicator.setDriver
    rw [hrunning]
    exact hsetup ▸ Turn.closes_run _ _
  | step life hrunning hstep ih =>
    unfold Replicator.Closes at *
    rw [hrunning] at ih
    rw [running_after hrunning]
    exact ih.step hstep
  | settle life hrunning pause ih =>
    unfold Replicator.Closes Replicator.setDriver at *
    rw [hrunning] at ih ⊢
    cases ‹TurnEnd› <;> exact ih

/-- In each life, the driver that sleeps has just finished a tick and looked for a stop request. -/
lemma Life.exists_of_asleep {events : List Event} {replicator : Replicator}
    (life : Life setup events replicator) {isStopping : Bool} {worker : Worker} {left : Nat}
    (hasleep : replicator.running = some ⟨isStopping, .asleep worker left⟩) :
    ∃ stats earlier, trace events = .looked false :: .published stats :: earlier := by
  have hcloses := life.closes
  rw [Replicator.Closes, hasleep] at hcloses
  exact hcloses

end PieceReplication
