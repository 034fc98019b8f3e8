import PieceReplication.Proofs.Conduct.Dealing
import PieceReplication.Proofs.Conduct.Indexing
import PieceReplication.Proofs.Conduct.Retrieval
import PieceReplication.Proofs.Run.Turns

/-!
# The conduct of the driver in its life

Each phase conducts itself properly, and so does the driver around the phases; so it does in each of
its turns, by the rule of phases.  Hence `Life.conduct`: whatever the node replies, whenever a stop
is requested and wherever a driver is broken off, the driver makes only the calls and changes that
`Conduct` allows.
-/

namespace PieceReplication

open History

variable {setup : Setup} {w : Worker} {h : History}

namespace Tick

/-- The question whether the node is catching up is proper conduct. -/
lemma meets_isCatchingUp (hs : Resting setup w h) :
    Activity.Meets (conduct setup) isCatchingUp w h (fun _ => Settled setup)
      fun _ => Settled setup := by
  simp only [isCatchingUp, Activity.meets_bind]
  refine Activity.meets_request.2 ⟨hs.conduct_called (.syncState hs.part), fun status _ => ?_,
    fun failure _ => hs.failed _ _ _⟩
  exact Activity.meets_checked.2 ⟨fun _ _ => hs.answered _ _ _ rfl rfl, fun _ _ => ⟨rfl, .gap rfl⟩⟩

end Tick

/-- Each phase is proper conduct, and so is what the driver does around the phases. -/
lemma conduct_phased (setup : Setup) :
    (conduct setup).Phased setup (Resting setup) (Settled setup) where
  fresh := ⟨⟨⟨rfl, rfl, rfl, rfl, rfl⟩, rfl⟩, rfl⟩
  broken _ := ⟨⟨⟨rfl, rfl, rfl, rfl, rfl⟩, rfl⟩, rfl⟩
  answered _ _ _ _ := rfl
  panic _ _ _ := ⟨rfl, .panic rfl⟩
  inv_of_rest _ _ hs := hs.toSettled
  tookOver _ h hs := by
    obtain rfl := hs.worker_eq
    exact ⟨hs.conduct_became .takeOver, hs.became _ rfl rfl rfl, hs.part⟩
  reported _ _ event hs := ⟨trivial, hs.logged event, hs.part⟩
  looked _ _ answer hs := ⟨hs.justStarted?_eq, hs.looked answer, hs.part⟩
  logged _ _ event hs := ⟨trivial, hs.logged event⟩
  counted _ _ counter hs := ⟨trivial, hs.counted counter⟩
  published _ _ hs := by
    refine ⟨⟨hs.justStarted?_eq, ?_⟩, hs.published _, rfl⟩
    rw [hs.worker_eq]
  synced _ _ := Tick.meets_isCatchingUp
  indexed _ _ := Indexing.meets_run
  retrieved _ _ := Retrieval.meets_run
  dealt _ _ := Dealing.meets_run

/-- The driver conducts itself properly in each of its turns. -/
theorem conduct_upheld (setup : Setup) : (conduct setup).Upheld setup (Resting setup) :=
  (conduct_phased setup).upheld

/-- In each life, between two steps of the driver, the trace shows the state of the worker. -/
lemma Life.keeps {events : List Event} {replicator : Replicator}
    (life : Life setup events replicator) :
    replicator.Keeps (conduct setup) (Resting setup) (trace events) :=
  (life.along_and_keeps (conduct_upheld setup) (along_of_forall fun _ _ _ _ => trivial)).2

/-- The state of the worker of a replicator whose driver does not run: the one that is kept for the
next driver, or that a driver holds which sleeps or has ended. -/
def Replicator.restingWorker? (replicator : Replicator) : Option Worker :=
  match replicator.running with
  | none => some (replicator.idle.getD (.fresh replicator.setup.config))
  | some ⟨_, .asleep worker _⟩ => some worker
  | some ⟨_, .finished worker⟩ => some worker
  | _ => none

/-- While no driver runs, the trace shows the state of the worker that the replicator holds. -/
lemma Life.worker_eq_of_resting {events : List Event} {replicator : Replicator}
    (life : Life setup events replicator) {w : Worker}
    (hresting : replicator.restingWorker? = some w) :
    worker setup.config (trace events) = w := by
  have hkeeps := life.keeps
  unfold Replicator.Keeps at hkeeps
  unfold Replicator.restingWorker? at hresting
  split at hresting
  · next hnone =>
    rw [hnone] at hkeeps
    exact hkeeps.worker_eq.trans (Option.some.inj hresting)
  · next hasleep =>
    rw [hasleep] at hkeeps
    have hrests : Resting setup _ (trace events) := hkeeps
    exact hrests.worker_eq.trans (Option.some.inj hresting)
  · next hfinished =>
    rw [hfinished] at hkeeps
    have hrests : Resting setup _ (trace events) := hkeeps
    exact hrests.worker_eq.trans (Option.some.inj hresting)
  · cases hresting

/-- **The conduct of the driver.**  In each life of a replicator, whatever its surroundings supply,
the driver makes only the calls and changes that `Conduct` allows. -/
theorem Life.conduct {events : List Event} {replicator : Replicator}
    (life : Life setup events replicator) : Along (Conduct setup) (trace events) :=
  life.along (conduct_upheld setup) (along_of_forall fun _ _ _ _ => trivial)

end PieceReplication
