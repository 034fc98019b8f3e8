import Mathlib.Logic.Function.Basic
import PieceReplication.Proofs.Run.Walks

/-!
# Activities and what they are replied

An activity is run on its own (`Activity.execute`), on top of the empty history.  A replier says how
each call is replied to, by what it is made for (`Replier`), and a history is replied to by a
replier if all of its replies are the replier's (`History.RepliedBy`).  An activity that makes no
call twice for the same purpose is replied to by a replier in each of its runs
(`exists_repliedBy`), whatever its surroundings are and however they change from call to call.  So
what it does can be said, without loss, as a function of the replier, and the calls that it never
comes to make have replies too.
-/

namespace PieceReplication

open History

variable {σ α : Type} {c : Contract} {h : History} {w w' : Worker}

/-! ## Runs of their own -/

/-- A run of an activity on its own. -/
def Activity.execute (activity : Activity α) (surroundings : Surroundings σ) (isStopping : Bool)
    (state : σ) (w : Worker) : Progress σ (Except PhaseError α × Worker) :=
  (activity.run.run w).execute surroundings isStopping state []

/-- A contract that relies on nothing is supplied by all surroundings. -/
lemma Contract.supplies_of_forall (hrely : ∀ h occurrence, c.rely h occurrence)
    (surroundings : Surroundings σ) (isStopping : Bool) : surroundings.Supplies isStopping c :=
  ⟨fun _ _ _ _ _ _ _ => hrely _ _, fun _ _ _ _ => hrely _ _, fun _ => hrely _ _⟩

/-- The result of a run that is done. -/
def Progress.result? (progress : Progress σ α) : Option α :=
  match progress.halt with
  | .done result => some result
  | _ => none

/-- A run that has a result is done. -/
lemma Progress.halt_of_result? {progress : Progress σ α} {result : α}
    (h : progress.result? = some result) : progress.halt = .done result := by
  rw [result?] at h
  split at h
  · next value hhalt =>
    obtain rfl := Option.some.inj h
    exact hhalt
  · cases h

/-- The end of a run is told by its result and by what is read off the worker. -/
lemma Progress.exists_done {β : Type} {progress : Progress σ (α × Worker)} {result : α}
    (read : Worker → β) {value : β}
    (heq : progress.result?.map (fun last => (last.1, read last.2)) = some (result, value)) :
    ∃ w', progress.halt = .done (result, w') ∧ read w' = value := by
  obtain ⟨⟨_, w'⟩, hdone, hvalue⟩ := Option.map_eq_some_iff.1 heq
  obtain ⟨rfl, hread⟩ := Prod.mk.inj hvalue
  exact ⟨w', Progress.halt_of_result? hdone, hread⟩

/-- Whether an occurrence is a reply to a call. -/
def Occurrence.isReply : Occurrence → Bool
  | .answered _ _ _ => true
  | _ => false

/-- What a contract guarantees holds along each run of a program that meets it, also along those
that do not end, if the contract relies on nothing. -/
lemma Program.Meets.along_execute {P : History → Occurrence → Prop} {program : Program α}
    {post : α → History → Prop} {surroundings : Surroundings σ} {isStopping : Bool}
    (hmeets : program.Meets c h post) (hrely : ∀ h occurrence, c.rely h occurrence)
    (himp : ∀ h occurrence, occurrence.isReply = false → c.guarantee h occurrence →
      P h occurrence)
    (hanswered : ∀ h purpose call reply, P h (.called purpose call) →
      P (.called purpose call :: h) (.answered purpose call reply))
    (hbroke : ∀ h, P h .brokeOff) (state : σ) (halong : Along P h) :
    Along P (program.execute surroundings isStopping state h).trace := by
  induction program generalizing state h with
  | done value => exact halong
  | perform effect resume ih =>
    cases effect with
    | call purpose call =>
      have hcalled := himp _ _ rfl hmeets.1
      rw [execute]
      split
      · next reply state' hreply =>
        exact ih reply (hmeets.2 reply (hrely _ _)) state'
          ⟨hanswered _ _ _ _ hcalled, hcalled, halong⟩
      · exact ⟨hcalled, halong⟩
      · exact ⟨hbroke _, hcalled, halong⟩
    | choose n pos =>
      have hchoice := hmeets (surroundings.choose state n pos).1 (hrely _ _)
      exact ih _ hchoice.2 _ ⟨himp _ _ rfl hchoice.1, halong⟩
    | stopRequested =>
      have hlook := hmeets isStopping (hrely _ _)
      exact ih _ hlook.2 _ ⟨himp _ _ rfl hlook.1, halong⟩
    | overflow cause => exact ⟨hbroke _, halong⟩
    | enter part => exact ih () hmeets.2 _ ⟨himp _ _ rfl hmeets.1, halong⟩
    | log event => exact ih () hmeets.2 _ ⟨himp _ _ rfl hmeets.1, halong⟩
    | count counter => exact ih () hmeets.2 _ ⟨himp _ _ rfl hmeets.1, halong⟩
    | become worker => exact ih () hmeets.2 _ ⟨himp _ _ rfl hmeets.1, halong⟩
    | publish stats => exact ih () hmeets.2 _ ⟨himp _ _ rfl hmeets.1, halong⟩

/-- If each call is replied to, a program that meets a contract that relies on nothing ends with its
postcondition, or it breaks off as the contract allows. -/
lemma Program.Meets.halts {program : Program α} {post : α → History → Prop}
    {surroundings : Surroundings σ} {isStopping : Bool}
    (hmeets : program.Meets c h post) (hrely : ∀ h occurrence, c.rely h occurrence)
    (hreplies : surroundings.Replies) (state : σ) :
    (∃ result, (program.execute surroundings isStopping state h).halt = .done result ∧
      post result (program.execute surroundings isStopping state h).trace) ∨
    ((program.execute surroundings isStopping state h).halt = .broken ∧
      ∃ h', (program.execute surroundings isStopping state h).trace = .brokeOff :: h' ∧
        c.guarantee h' .brokeOff) := by
  induction program generalizing state h with
  | done value => exact .inl ⟨value, rfl, hmeets⟩
  | perform effect resume ih =>
    cases effect with
    | call purpose call =>
      obtain ⟨reply, state', hreply⟩ := hreplies state call
      rw [execute, hreply]
      exact ih reply (hmeets.2 reply (hrely _ _)) state'
    | choose n pos => exact ih _ (hmeets _ (hrely _ _)).2 _
    | stopRequested => exact ih _ (hmeets _ (hrely _ _)).2 _
    | overflow cause => exact .inr ⟨rfl, h, rfl, hmeets⟩
    | enter part => exact ih () hmeets.2 _
    | log event => exact ih () hmeets.2 _
    | count counter => exact ih () hmeets.2 _
    | become worker => exact ih () hmeets.2 _
    | publish stats => exact ih () hmeets.2 _

/-! ## The calls of a history -/

/-- The calls of a history that satisfy a condition, each with its purpose, in the order in which
they were made. -/
@[simp] def History.asked (p : Purpose → Call → Bool) : History → List (Purpose × Call)
  | [] => []
  | occurrence :: earlier =>
    match occurrence with
    | .called purpose call =>
      bif p purpose call then asked p earlier ++ [(purpose, call)] else asked p earlier
    | _ => asked p earlier

/-- Whether a call proposes a deal. -/
def Call.isStart : Call → Bool
  | .startDeal _ => true
  | _ => false

/-- The proposals of deals in a history. -/
def History.starts (h : History) : List (Purpose × Call) :=
  h.asked fun _ call => call.isStart

/-- Whether no deal is proposed, and no proposal answered, from one moment to a later one. -/
structure History.NoneStarted (h h' : History) : Prop where
  starts : h'.starts = h.starts
  returned : h'.returned = h.returned

/-- If none is started up to a moment and none from there on, none is started. -/
lemma History.NoneStarted.trans {h₁ h₂ h₃ : History} (hfirst : NoneStarted h₁ h₂)
    (hsecond : NoneStarted h₂ h₃) : NoneStarted h₁ h₃ :=
  ⟨hsecond.starts.trans hfirst.starts, hsecond.returned.trans hfirst.returned⟩

/-! ## Repliers -/

/-- How calls are replied to, by what they are made for. -/
abbrev Replier := (purpose : Purpose) → (call : Call) → Reply call

/-- Whether all replies in a history are those of a replier. -/
def History.RepliedBy (node : Replier) (h : History) : Prop :=
  ∀ purpose call reply, .answered purpose call reply ∈ h → reply = node purpose call

/-- The calls that were answered in a history, each with its purpose. -/
@[simp] def History.answers : History → List (Purpose × Call)
  | [] => []
  | occurrence :: earlier =>
    match occurrence with
    | .answered purpose call _ => (purpose, call) :: answers earlier
    | _ => answers earlier

/-- Whether nothing was answered for a purpose. -/
def History.Untouched (h : History) (purpose : Purpose) : Prop :=
  ∀ call, (purpose, call) ∉ h.answers

/-- An answer for one purpose leaves another one untouched. -/
lemma History.Untouched.answered {purpose other : Purpose} {call : Call} {reply : Reply call}
    (huntouched : Untouched h purpose) (hne : purpose ≠ other) :
    Untouched (.answered other call reply :: h) purpose := by
  intro call' hmem
  rcases List.mem_cons.1 hmem with heq | hold
  · exact hne (Prod.mk.inj heq).1
  · exact huntouched call' hold

/-- Whether calls are answered for some purposes only, from one moment to a later one. -/
def History.AnsweredFor (isOwn : Purpose → Prop) (h h' : History) : Prop :=
  ∀ answered ∈ h'.answers, answered ∈ h.answers ∨ isOwn answered.1

section AnsweredFor

variable {isOwn : Purpose → Prop} {h' : History} {purpose : Purpose}

/-- At first nothing is answered. -/
lemma History.AnsweredFor.refl : AnsweredFor isOwn h h :=
  fun _ => .inl

/-- A call is answered for one of the purposes. -/
lemma History.AnsweredFor.answered {call : Call} {reply : Reply call}
    (hanswers : AnsweredFor isOwn h h') (hown : isOwn purpose) :
    AnsweredFor isOwn h (.answered purpose call reply :: h') := by
  intro answered hmem
  rcases List.mem_cons.1 hmem with rfl | hold
  · exact .inr hown
  · exact hanswers answered hold

/-- What else happens changes nothing. -/
lemma History.AnsweredFor.of_answers_eq {h'' : History} (hanswers : AnsweredFor isOwn h h')
    (heq : h''.answers = h'.answers) : AnsweredFor isOwn h h'' := by
  intro answered hmem
  rw [heq] at hmem
  exact hanswers answered hmem

/-- Other purposes are left untouched. -/
lemma History.Untouched.of_answeredFor (huntouched : Untouched h purpose)
    (hanswers : AnsweredFor isOwn h h') (hother : ¬ isOwn purpose) : Untouched h' purpose := by
  intro call hmem
  rcases hanswers _ hmem with hold | hown
  · exact huntouched call hold
  · exact hother hown

end AnsweredFor

/-- No call is made, or answered, that was answered before for the same purpose. -/
def AsksOnce (h : History) : Occurrence → Prop
  | .called purpose call => (purpose, call) ∉ h.answers
  | .answered purpose call _ => (purpose, call) ∉ h.answers
  | _ => True

/-- A call that was answered in a history is among those that were. -/
lemma mem_answers {purpose : Purpose} {call : Call} {reply : Reply call}
    (hmem : .answered purpose call reply ∈ h) : (purpose, call) ∈ h.answers := by
  induction h with
  | nil => cases hmem
  | cons occurrence earlier ih =>
    rcases List.mem_cons.1 hmem with rfl | hold
    · exact List.mem_cons_self
    · cases occurrence with
      | answered purpose' call' reply' => exact List.mem_cons_of_mem _ (ih hold)
      | _ => exact ih hold

/-- Calls that are made once for each purpose are replied to by a replier. -/
lemma exists_repliedBy (halong : Along AsksOnce h) : ∃ node, RepliedBy node h := by
  induction h with
  | nil =>
    refine ⟨fun _ _ => .error ⟨[]⟩, fun purpose call reply hmem => ?_⟩
    cases hmem
  | cons occurrence earlier ih =>
    obtain ⟨hoccurrence, hearlier⟩ := halong
    obtain ⟨node, hnode⟩ := ih hearlier
    cases occurrence with
    | answered purpose call reply =>
      refine ⟨Function.update node purpose (Function.update (node purpose) call reply), ?_⟩
      intro purpose' call' reply' hmem
      rcases List.mem_cons.1 hmem with heq | hold
      · cases heq
        rw [Function.update_self, Function.update_self]
      · by_cases hpurpose : purpose' = purpose
        · subst hpurpose
          -- the new answer is none of the earlier ones
          have hcall : call' ≠ call := by
            rintro rfl
            exact hoccurrence (mem_answers hold)
          rw [Function.update_self, Function.update_of_ne hcall]
          exact hnode _ _ _ hold
        · rw [Function.update_of_ne hpurpose]
          exact hnode _ _ _ hold
    | _ =>
      refine ⟨node, fun purpose call reply hmem => hnode purpose call reply ?_⟩
      simpa using hmem

/-- What happens beside replies leaves a history replied to by a replier. -/
lemma History.RepliedBy.cons {node : Replier} {occurrence : Occurrence} (hnode : RepliedBy node h)
    (hoccurrence : ∀ purpose call reply, occurrence = .answered purpose call reply →
      reply = node purpose call) : RepliedBy node (occurrence :: h) := by
  intro purpose call reply hmem
  rcases List.mem_cons.1 hmem with heq | hold
  · exact hoccurrence purpose call reply heq.symm
  · exact hnode purpose call reply hold

/-- In surroundings whose replies are a function of the call, a run is replied to by that
function. -/
lemma Program.repliedBy_execute {node : (call : Call) → Reply call}
    {surroundings : Surroundings σ} {isStopping : Bool} (hnode : surroundings.AnswersBy node)
    (program : Program α) (state : σ) (hbefore : RepliedBy (fun _ => node) h) :
    RepliedBy (fun _ => node) (program.execute surroundings isStopping state h).trace := by
  induction program generalizing state h with
  | done value => exact hbefore
  | perform effect resume ih =>
    -- what is no reply needs no replier
    have hown : ∀ {occurrence}, occurrence.isReply = false →
        RepliedBy (fun _ => node) (occurrence :: h) := by
      refine fun {occurrence} hreply => hbefore.cons ?_
      rintro purpose call reply rfl
      cases hreply
    cases effect with
    | call purpose call =>
      rw [execute]
      split
      · next reply state' hreply =>
        refine ih reply state' ((hown rfl).cons ?_)
        rintro _ _ _ ⟨⟩
        exact hnode state call reply state' hreply
      · exact hown rfl
      · exact (hown rfl).cons (by rintro _ _ _ ⟨⟩)
    | choose n pos => exact ih _ _ (hown rfl)
    | stopRequested => exact ih _ _ (hown rfl)
    | overflow cause => exact hown rfl
    | enter part => exact ih () _ (hown rfl)
    | log event => exact ih () _ (hown rfl)
    | count counter => exact ih () _ (hown rfl)
    | become worker => exact ih () _ (hown rfl)
    | publish stats => exact ih () _ (hown rfl)

/-- Surroundings that reply to each call by a function of the call, and choose the first of the
candidates. -/
def Surroundings.replying (node : (call : Call) → Reply call) : Surroundings Unit where
  call _ call := (.reply (node call), ())
  release _ call := (node call, ())
  choose _ _ pos := (⟨0, pos⟩, ())

/-- Surroundings that reply by a function of the call reply to each call. -/
lemma Surroundings.replies_replying (node : (call : Call) → Reply call) :
    (replying node).Replies :=
  fun _ call => ⟨node call, (), rfl⟩

/-- The replies of surroundings that reply by a function of the call are that function. -/
lemma Surroundings.answersBy_replying (node : (call : Call) → Reply call) :
    (replying node).AnswersBy node := by
  rintro state call reply state' hreply
  cases hreply
  rfl

/-- The contract of activities that are replied to by a replier; it asks for nothing. -/
def replying (node : Replier) : Contract where
  rely _ occurrence :=
    match occurrence with
    | .answered purpose call reply => reply = node purpose call
    | _ => True
  guarantee _ _ := True

/-- In a history that is replied to by a replier, its replies can be relied on. -/
lemma History.RepliedBy.along {node : Replier} (hnode : RepliedBy node h) :
    Along (replying node).rely h := by
  induction h with
  | nil => trivial
  | cons occurrence earlier ih =>
    have hearlier : RepliedBy node earlier := fun purpose call reply hmem =>
      hnode purpose call reply (List.mem_cons_of_mem _ hmem)
    refine ⟨?_, ih hearlier⟩
    cases occurrence with
    | answered purpose call reply => exact hnode purpose call reply List.mem_cons_self
    | _ => trivial

namespace Activity

variable {node : Replier}

/-- The rule of calls that are replied to by a replier. -/
lemma meets_attempt_replying {purpose : Purpose} {call : Call}
    {post : Reply call → Worker → History → Prop} {given : PhaseError → Worker → History → Prop} :
    Meets (replying node) (attempt purpose call) w h post given ↔
      post (node purpose call) w
        (.answered purpose call (node purpose call) :: .called purpose call :: h) := by
  rw [meets_attempt]
  constructor
  · exact fun hmeets => hmeets.2 _ rfl
  · rintro hpost
    refine ⟨trivial, ?_⟩
    rintro reply rfl
    exact hpost

/-- The rule of calls that are replied to by a replier and whose failure ends the activity. -/
lemma meets_request_replying {purpose : Purpose} {call : Call}
    {post : call.Answer → Worker → History → Prop}
    {given : PhaseError → Worker → History → Prop} :
    Meets (replying node) (request purpose call) w h post given ↔
      (∀ answer, node purpose call = .ok answer →
        post answer w (.answered purpose call (.ok answer) :: .called purpose call :: h)) ∧
      ∀ failure, node purpose call = .error failure →
        given (.transport failure) w
          (.answered purpose call (.error failure) :: .called purpose call :: h) := by
  rw [meets_request]
  constructor
  · rintro ⟨-, hok, herror⟩
    exact ⟨fun answer hanswer => hok answer hanswer.symm,
      fun failure hfailure => herror failure hfailure.symm⟩
  · rintro ⟨hok, herror⟩
    exact ⟨trivial, fun answer hanswer => hok answer hanswer.symm,
      fun failure hfailure => herror failure hfailure.symm⟩

variable {activity : Activity α} {post : α → Worker → History → Prop}
  {given : PhaseError → Worker → History → Prop} {surroundings : Surroundings σ}
  {isStopping : Bool} {state : σ}

/-- A run that is done is one of the runs that the contract of a replier allows, if it was replied
to by the replier. -/
lemma ends_of_repliedBy {result : Except PhaseError α}
    (hdone : (activity.execute surroundings isStopping state w).halt = .done (result, w'))
    (hnode : RepliedBy node (activity.execute surroundings isStopping state w).trace) :
    activity.Ends (replying node) w [] result w'
      (activity.execute surroundings isStopping state w).trace := by
  have hsupplies : surroundings.Supplies isStopping ⟨fun _ _ => True, fun _ _ => True⟩ :=
    Contract.supplies_of_forall (fun _ _ => trivial) _ _
  exact (Program.ends_of_execute hsupplies hdone).of_along hnode.along

/-- What an activity guarantees for a replier when it ends. -/
lemma Meets.post_of_repliedBy {value : α} (hmeets : Meets (replying node) activity w [] post given)
    (hdone : (activity.execute surroundings isStopping state w).halt = .done (.ok value, w'))
    (hnode : RepliedBy node (activity.execute surroundings isStopping state w).trace) :
    post value w' (activity.execute surroundings isStopping state w).trace := by
  have hpost := Program.Meets.post_of_ends hmeets (ends_of_repliedBy hdone hnode)
  exact hpost

/-- What an activity guarantees for a replier when it is given up. -/
lemma Meets.given_of_repliedBy {error : PhaseError}
    (hmeets : Meets (replying node) activity w [] post given)
    (hdone : (activity.execute surroundings isStopping state w).halt = .done (.error error, w'))
    (hnode : RepliedBy node (activity.execute surroundings isStopping state w).trace) :
    given error w' (activity.execute surroundings isStopping state w).trace := by
  have hgiven := Program.Meets.post_of_ends hmeets (ends_of_repliedBy hdone hnode)
  exact hgiven

end Activity

namespace Sample

/-- A bound of eight entries. -/
def capacity : Capacity := ⟨8, by decide⟩

/-- An inventory of some pieces, each known by one deal that is active, with a payload of the same
name. -/
def inventory (capacity : Capacity) (pieces : List Cid) : BoundedMap Piece :=
  pieces.foldl (fun m key => m.insert key (.ofRecord ⟨7,
    ⟨key, 0, false, ⟨"client"⟩, ⟨"provider"⟩, "", 0, 0⟩, ⟨key, ""⟩, ⟨1, 0, 0⟩, 0⟩))
    (.empty capacity)

end Sample

end PieceReplication
