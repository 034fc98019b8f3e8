import PieceReplication.Proofs.Run.Life

/-!
# Contracts of the phases

A turn of the driver is a tick between two looks for a stop request, and a tick is the three phases
one after another, each of which may be given up.  So a contract is upheld in every turn if each of
the phases meets it, and if the little that the driver does around them is as guaranteed
(`Contract.Phased`, `Contract.Phased.upheld`).
-/

namespace PieceReplication

/-- A contract that each phase meets.  The statement `inv` about the worker and the history holds
between the phases of a tick, and the stronger one `rest` between the ticks. -/
structure Contract.Phased (c : Contract) (setup : Setup) (rest inv : Worker → History → Prop) :
    Prop where
  fresh : rest (.fresh setup.config) []
  broken : ∀ h, rest (.fresh setup.config) (.brokeOff :: h)
  answered : ∀ h purpose call reply,
    c.guarantee (.called purpose call :: h) (.answered purpose call reply)
  panic : ∀ h purpose call, c.guarantee (.called purpose call :: h) .brokeOff
  inv_of_rest : ∀ w h, rest w h → inv w h
  tookOver : ∀ w h, rest w h → c.guarantee h (.became w) ∧ rest w (.became w :: h)
  reported : ∀ w h event, rest w h → c.guarantee h (.logged event) ∧ rest w (.logged event :: h)
  looked : ∀ w h answer, rest w h → c.guarantee h (.looked answer) ∧ rest w (.looked answer :: h)
  logged : ∀ w h event, inv w h → c.guarantee h (.logged event) ∧ inv w (.logged event :: h)
  counted : ∀ w h counter, inv w h →
    c.guarantee h (.counted counter) ∧ inv w (.counted counter :: h)
  published : ∀ w h, inv w h →
    c.guarantee h (.published w.stats) ∧ rest w (.published w.stats :: h)
  synced : ∀ w h, rest w h →
    Activity.Meets c Tick.isCatchingUp w h (fun _ => inv) fun _ => inv
  indexed : ∀ w h, inv w h →
    Activity.Meets c (Indexing.run setup) w h (fun _ => inv) fun _ => inv
  retrieved : ∀ w h, inv w h →
    Activity.Meets c (Retrieval.run setup) w h (fun _ => inv) fun _ => inv
  dealt : ∀ w h, inv w h →
    Activity.Meets c (Dealing.run setup) w h (fun _ => inv) fun _ => inv

namespace Contract.Phased

variable {c : Contract} {setup : Setup} {rest inv : Worker → History → Prop} {w : Worker}
  {h : History}

/-- A phase that is given up is reported and counted. -/
lemma meets_given (phased : c.Phased setup rest inv) (hw : inv w h) (phase : Phase)
    (event : LogEvent) :
    Task.Meets c (do Task.log event; Task.count (.phaseErrors phase)) w h fun _ => inv := by
  obtain ⟨hlogged, hw⟩ := phased.logged w h event hw
  obtain ⟨hcounted, hw⟩ := phased.counted w _ (.phaseErrors phase) hw
  simp only [Task.meets_bind, Task.meets_log, Task.meets_count]
  exact ⟨hlogged, hcounted, hw⟩

/-- A phase meets the contract with the report if it is given up. -/
lemma meets_runPhase (phased : c.Phased setup rest inv) {activity : Activity Unit}
    (hmeets : Activity.Meets c activity w h (fun _ => inv) fun _ => inv) (phase : Phase)
    (report : PhaseError → LogEvent) :
    Task.Meets c (Tick.runPhase phase report activity) w h fun _ => inv := by
  rw [Tick.runPhase, Task.meets_bind]
  refine Task.Meets.mono hmeets fun result w' h' hw => ?_
  cases result with
  | ok value => exact hw
  | error error => exact phased.meets_given hw phase _

/-- The index phase meets the contract, if it has not to pause. -/
lemma meets_index (phased : c.Phased setup rest inv) (hw : rest w h) :
    Task.Meets c (Tick.index setup) w h fun _ => inv := by
  rw [Tick.index]
  split
  · rw [Task.meets_bind]
    refine Task.Meets.mono (phased.synced w h hw) fun result w' h' hw => ?_
    cases result with
    | ok isCatchingUp =>
      cases isCatchingUp with
      | true => exact Task.meets_log.2 (phased.logged w' h' _ hw)
      | false => exact phased.meets_runPhase (phased.indexed w' h' hw) _ _
    | error error => exact phased.meets_given hw _ _
  · exact phased.meets_runPhase (phased.indexed w h (phased.inv_of_rest w h hw)) _ _

/-- A tick meets the contract. -/
lemma meets_tick (phased : c.Phased setup rest inv) (hw : rest w h) :
    Task.Meets c (Tick.run setup) w h fun _ => inv := by
  simp only [Tick.run, Task.meets_bind]
  refine (phased.meets_index hw).mono fun _ w₁ h₁ hindexed => ?_
  refine (phased.meets_runPhase (phased.retrieved w₁ h₁ hindexed) _ _).mono
    fun _ w₂ h₂ hretrieved => ?_
  exact phased.meets_runPhase (phased.dealt w₂ h₂ hretrieved) _ _

/-- The end of the driver meets the contract. -/
lemma meets_finish (phased : c.Phased setup rest inv) (hw : rest w h) :
    (Turn.finish w).Meets c h fun turnEnd => rest turnEnd.worker :=
  phased.reported w h _ hw

/-- A turn meets the contract. -/
lemma meets_turn (phased : c.Phased setup rest inv) (hw : rest w h) :
    (Turn.run setup w).Meets c h fun turnEnd => rest turnEnd.worker := by
  rw [Turn.run, Program.meets_bind, Program.meets_effect_stopRequested]
  intro isStopping _
  obtain ⟨hlooked, hw⟩ := phased.looked w h isStopping hw
  refine ⟨hlooked, ?_⟩
  cases isStopping with
  | true => exact phased.meets_finish hw
  | false =>
    simp only [Bool.false_eq_true, ↓reduceIte, Turn.tick, Program.meets_bind]
    refine Program.Meets.mono (phased.meets_tick hw) ?_
    rintro ⟨⟨⟩, w'⟩ h' hticked
    obtain ⟨hpublished, hw'⟩ := phased.published w' h' hticked
    refine ⟨hpublished, fun isStopping _ => ?_⟩
    obtain ⟨hlooked, hw'⟩ := phased.looked w' _ isStopping hw'
    refine ⟨hlooked, ?_⟩
    cases isStopping with
    | true => exact phased.meets_finish hw'
    | false => exact hw'

/-- The first turn of a driver, which takes the state over, meets the contract. -/
lemma meets_first (phased : c.Phased setup rest inv) (hw : rest w h) :
    (Turn.first setup w).Meets c h fun turnEnd => rest turnEnd.worker := by
  obtain ⟨hbecame, hw⟩ := phased.tookOver w h hw
  obtain ⟨hlogged, hw⟩ := phased.reported w _ (.started w.cursor) hw
  simp only [Turn.first, Program.meets_bind]
  exact ⟨hbecame, hlogged, phased.meets_turn hw⟩

/-- **The rule of phases.**  A contract that each phase meets is upheld in each turn. -/
theorem upheld (phased : c.Phased setup rest inv) : c.Upheld setup rest where
  fresh := phased.fresh
  broken := phased.broken
  first _ _ := phased.meets_first
  turn _ _ := phased.meets_turn
  answered := phased.answered
  panic := phased.panic

end Contract.Phased

end PieceReplication
