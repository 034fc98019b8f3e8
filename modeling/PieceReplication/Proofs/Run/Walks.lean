import PieceReplication.Proofs.Run.Execution

/-!
# Walks through programs

What happens in a run of a program is a walk through its tree.  If what a contract relies on does
not depend on the history before the program, the walk does not either: it can be taken off the
history (`Program.Ends.exists_walk`) and put on another one (`Program.Ends.append`).  A walk through
a program that goes on with another one falls into two (`Program.ends_bind`), and what a contract
relies on can be read off the walk afterwards (`Program.Ends.of_along`).  If it settles whatever is
supplied (`Contract.Settles`), there is one walk at most (`Program.Ends.unique`).

`Task.Ends` and `Activity.Ends` are the same for programs on the state of the worker.
-/

namespace PieceReplication

variable {α β : Type} {c c' : Contract} {h h' base : History}

/-- Whether an occurrence is supplied by the surroundings of the driver. -/
def Occurrence.isSupplied : Occurrence → Bool
  | .answered _ _ _ => true
  | .chose _ _ => true
  | .looked _ => true
  | _ => false

namespace Program

/-- A program that returns its own result is that program. -/
lemma bind_done (program : Program α) : program.bind done = program := by
  induction program with
  | done result => rfl
  | perform effect resume ih => exact congrArg (perform effect) (funext ih)

/-- Sequences of programs can be bracketed in either way. -/
lemma bind_bind {γ : Type} (program : Program α) (next : α → Program β) (later : β → Program γ) :
    (program.bind next).bind later = program.bind fun result => (next result).bind later := by
  induction program with
  | done result => rfl
  | perform effect resume ih => exact congrArg (perform effect) (funext ih)

instance : LawfulMonad Program :=
  .mk' Program bind_done (fun _ _ => rfl) bind_bind

/-- A run of a program that goes on with another one is a run of each. -/
lemma ends_bind (program : Program α) (next : α → Program β) {result : β} :
    (program >>= next).Ends c h result h' ↔
      ∃ value h₁, program.Ends c h value h₁ ∧ (next value).Ends c h₁ result h' := by
  change (program.bind next).Ends c h result h' ↔ _
  induction program generalizing h with
  | done value =>
    constructor
    · exact fun hends => ⟨value, h, ⟨rfl, rfl⟩, hends⟩
    · rintro ⟨_, _, ⟨rfl, rfl⟩, hends⟩
      exact hends
  | perform effect resume ih =>
    cases effect with
    | call purpose call =>
      constructor
      · rintro ⟨reply, hreply, hends⟩
        obtain ⟨value, h₁, hfirst, hnext⟩ := (ih reply).1 hends
        exact ⟨value, h₁, ⟨reply, hreply, hfirst⟩, hnext⟩
      · rintro ⟨value, h₁, ⟨reply, hreply, hfirst⟩, hnext⟩
        exact ⟨reply, hreply, (ih reply).2 ⟨value, h₁, hfirst, hnext⟩⟩
    | choose n pos =>
      constructor
      · rintro ⟨choice, hchoice, hends⟩
        obtain ⟨value, h₁, hfirst, hnext⟩ := (ih choice).1 hends
        exact ⟨value, h₁, ⟨choice, hchoice, hfirst⟩, hnext⟩
      · rintro ⟨value, h₁, ⟨choice, hchoice, hfirst⟩, hnext⟩
        exact ⟨choice, hchoice, (ih choice).2 ⟨value, h₁, hfirst, hnext⟩⟩
    | stopRequested =>
      constructor
      · rintro ⟨answer, hanswer, hends⟩
        obtain ⟨value, h₁, hfirst, hnext⟩ := (ih answer).1 hends
        exact ⟨value, h₁, ⟨answer, hanswer, hfirst⟩, hnext⟩
      · rintro ⟨value, h₁, ⟨answer, hanswer, hfirst⟩, hnext⟩
        exact ⟨answer, hanswer, (ih answer).2 ⟨value, h₁, hfirst, hnext⟩⟩
    | overflow cause =>
      constructor
      · exact False.elim
      · rintro ⟨value, h₁, hfirst, hnext⟩
        exact hfirst
    | enter part => exact ih ()
    | log event => exact ih ()
    | count counter => exact ih ()
    | become worker => exact ih ()
    | publish stats => exact ih ()

/-- The postcondition of a program can be taken together with the runs that lead there. -/
lemma Meets.and_ends {program : Program α} {post : α → History → Prop}
    (hmeets : program.Meets c h post) :
    program.Meets c h fun result h' => post result h' ∧ program.Ends c h result h' := by
  induction program generalizing h with
  | done value => exact ⟨hmeets, rfl, rfl⟩
  | perform effect resume ih =>
    cases effect with
    | call purpose call =>
      refine ⟨hmeets.1, fun reply hreply => (ih reply (hmeets.2 reply hreply)).mono ?_⟩
      exact fun _ _ hpost => ⟨hpost.1, reply, hreply, hpost.2⟩
    | choose n pos =>
      intro choice hchoice
      refine ⟨(hmeets choice hchoice).1, (ih choice (hmeets choice hchoice).2).mono ?_⟩
      exact fun _ _ hpost => ⟨hpost.1, choice, hchoice, hpost.2⟩
    | stopRequested =>
      intro answer hanswer
      refine ⟨(hmeets answer hanswer).1, (ih answer (hmeets answer hanswer).2).mono ?_⟩
      exact fun _ _ hpost => ⟨hpost.1, answer, hanswer, hpost.2⟩
    | overflow cause => exact hmeets
    | enter part => exact ⟨hmeets.1, ih () hmeets.2⟩
    | log event => exact ⟨hmeets.1, ih () hmeets.2⟩
    | count counter => exact ⟨hmeets.1, ih () hmeets.2⟩
    | become worker => exact ⟨hmeets.1, ih () hmeets.2⟩
    | publish stats => exact ⟨hmeets.1, ih () hmeets.2⟩

/-- What happens in a run of a program lies on top of the history before it, and makes up a run on
its own. -/
lemma Ends.exists_walk {program : Program α} {result : α}
    (hrely : ∀ walked occurrence, c.rely (walked ++ base) occurrence → c'.rely walked occurrence)
    (hends : program.Ends c (h ++ base) result h') :
    ∃ walked, h' = walked ++ base ∧ program.Ends c' h result walked := by
  induction program generalizing h with
  | done value =>
    obtain ⟨rfl, rfl⟩ := hends
    exact ⟨h, rfl, rfl, rfl⟩
  | perform effect resume ih =>
    cases effect with
    | call purpose call =>
      obtain ⟨reply, hreply, hends⟩ := hends
      obtain ⟨walked, hwalked, hends⟩ := ih reply
        (h := .answered purpose call reply :: .called purpose call :: h) hends
      exact ⟨walked, hwalked, reply, hrely (.called purpose call :: h) _ hreply, hends⟩
    | choose n pos =>
      obtain ⟨choice, hchoice, hends⟩ := hends
      obtain ⟨walked, hwalked, hends⟩ := ih choice (h := .chose n choice :: h) hends
      exact ⟨walked, hwalked, choice, hrely h _ hchoice, hends⟩
    | stopRequested =>
      obtain ⟨answer, hanswer, hends⟩ := hends
      obtain ⟨walked, hwalked, hends⟩ := ih answer (h := .looked answer :: h) hends
      exact ⟨walked, hwalked, answer, hrely h _ hanswer, hends⟩
    | overflow cause => cases hends
    | enter part => exact ih () (h := .entered part :: h) hends
    | log event => exact ih () (h := .logged event :: h) hends
    | count counter => exact ih () (h := .counted counter :: h) hends
    | become worker => exact ih () (h := .became worker :: h) hends
    | publish stats => exact ih () (h := .published stats :: h) hends

/-- A run of a program on its own is one on top of any history. -/
lemma Ends.append {program : Program α} {result : α} {walked : History}
    (hrely : ∀ walked occurrence, c.rely walked occurrence → c'.rely (walked ++ base) occurrence)
    (hends : program.Ends c h result walked) :
    program.Ends c' (h ++ base) result (walked ++ base) := by
  induction program generalizing h with
  | done value =>
    obtain ⟨rfl, rfl⟩ := hends
    exact ⟨rfl, rfl⟩
  | perform effect resume ih =>
    cases effect with
    | call purpose call =>
      obtain ⟨reply, hreply, hends⟩ := hends
      exact ⟨reply, hrely _ _ hreply, ih reply hends⟩
    | choose n pos =>
      obtain ⟨choice, hchoice, hends⟩ := hends
      exact ⟨choice, hrely _ _ hchoice, ih choice hends⟩
    | stopRequested =>
      obtain ⟨answer, hanswer, hends⟩ := hends
      exact ⟨answer, hrely _ _ hanswer, ih answer hends⟩
    | overflow cause => cases hends
    | enter part => exact ih () hends
    | log event => exact ih () hends
    | count counter => exact ih () hends
    | become worker => exact ih () hends
    | publish stats => exact ih () hends

/-- What happens in a run of a program comes on top of what happened before. -/
lemma Ends.suffix {program : Program α} {result : α} (hends : program.Ends c h result h') :
    h <:+ h' := by
  obtain ⟨walked, hwalked, -⟩ : ∃ walked, h' = walked ++ h ∧
      program.Ends ⟨fun _ _ => True, fun _ _ => True⟩ [] result walked :=
    exists_walk (fun _ _ _ => trivial) hends
  exact ⟨walked, hwalked.symm⟩

/-- What holds of everything that a program does by itself, and of everything that can be relied on,
holds along its runs. -/
lemma Ends.along {P : History → Occurrence → Prop} {program : Program α} {result : α}
    (hends : program.Ends c h result h')
    (himp : ∀ h occurrence, (occurrence.isSupplied = true → c.rely h occurrence) → P h occurrence)
    (halong : History.Along P h) : History.Along P h' := by
  induction program generalizing h with
  | done value =>
    obtain ⟨-, rfl⟩ := hends
    exact halong
  | perform effect resume ih =>
    cases effect with
    | call purpose call =>
      obtain ⟨reply, hreply, hends⟩ := hends
      exact ih reply hends ⟨himp _ _ fun _ => hreply, himp _ _ nofun, halong⟩
    | choose n pos =>
      obtain ⟨choice, hchoice, hends⟩ := hends
      exact ih choice hends ⟨himp _ _ fun _ => hchoice, halong⟩
    | stopRequested =>
      obtain ⟨answer, hanswer, hends⟩ := hends
      exact ih answer hends ⟨himp _ _ fun _ => hanswer, halong⟩
    | overflow cause => cases hends
    | enter part => exact ih () hends ⟨himp _ _ nofun, halong⟩
    | log event => exact ih () hends ⟨himp _ _ nofun, halong⟩
    | count counter => exact ih () hends ⟨himp _ _ nofun, halong⟩
    | become worker => exact ih () hends ⟨himp _ _ nofun, halong⟩
    | publish stats => exact ih () hends ⟨himp _ _ nofun, halong⟩

/-- A run along which a contract can be relied on is one under that contract. -/
lemma Ends.of_along {program : Program α} {result : α} (hends : program.Ends c h result h')
    (halong : History.Along c'.rely h') : program.Ends c' h result h' := by
  -- what comes before the end of a run can be relied on too
  have hbefore : ∀ {program : Program α} {h₁ : History}, program.Ends c h₁ result h' →
      History.Along c'.rely h₁ := by
    intro program h₁ hends
    obtain ⟨walked, rfl⟩ := hends.suffix
    exact halong.of_append
  induction program generalizing h with
  | done value => exact hends
  | perform effect resume ih =>
    cases effect with
    | call purpose call =>
      obtain ⟨reply, -, hends⟩ := hends
      exact ⟨reply, (hbefore hends).1, ih reply hends⟩
    | choose n pos =>
      obtain ⟨choice, -, hends⟩ := hends
      exact ⟨choice, (hbefore hends).1, ih choice hends⟩
    | stopRequested =>
      obtain ⟨answer, -, hends⟩ := hends
      exact ⟨answer, (hbefore hends).1, ih answer hends⟩
    | overflow cause => cases hends
    | enter part => exact ih () hends
    | log event => exact ih () hends
    | count counter => exact ih () hends
    | become worker => exact ih () hends
    | publish stats => exact ih () hends

end Program

/-- What a contract relies on settles everything that is supplied. -/
structure Contract.Settles (c : Contract) : Prop where
  reply : ∀ h purpose call reply reply', c.rely h (.answered purpose call reply) →
    c.rely h (.answered purpose call reply') → reply = reply'
  choice : ∀ h n choice choice', c.rely h (.chose n choice) → c.rely h (.chose n choice') →
    choice = choice'
  look : ∀ h answer answer', c.rely h (.looked answer) → c.rely h (.looked answer') →
    answer = answer'

/-- If everything that is supplied is settled, a program has one run at most. -/
lemma Program.Ends.unique {program : Program α} {result₁ result₂ : α} {h₁ h₂ : History}
    (hsettles : c.Settles) (hends₁ : program.Ends c h result₁ h₁)
    (hends₂ : program.Ends c h result₂ h₂) : result₁ = result₂ ∧ h₁ = h₂ := by
  induction program generalizing h with
  | done value =>
    obtain ⟨rfl, rfl⟩ := hends₁
    obtain ⟨rfl, rfl⟩ := hends₂
    exact ⟨rfl, rfl⟩
  | perform effect resume ih =>
    cases effect with
    | call purpose call =>
      obtain ⟨reply₁, hreply₁, hends₁⟩ := hends₁
      obtain ⟨reply₂, hreply₂, hends₂⟩ := hends₂
      obtain rfl := hsettles.reply _ _ _ _ _ hreply₁ hreply₂
      exact ih reply₁ hends₁ hends₂
    | choose n pos =>
      obtain ⟨choice₁, hchoice₁, hends₁⟩ := hends₁
      obtain ⟨choice₂, hchoice₂, hends₂⟩ := hends₂
      obtain rfl := hsettles.choice _ _ _ _ hchoice₁ hchoice₂
      exact ih choice₁ hends₁ hends₂
    | stopRequested =>
      obtain ⟨answer₁, hanswer₁, hends₁⟩ := hends₁
      obtain ⟨answer₂, hanswer₂, hends₂⟩ := hends₂
      obtain rfl := hsettles.look _ _ _ hanswer₁ hanswer₂
      exact ih answer₁ hends₁ hends₂
    | overflow cause => cases hends₁
    | enter part => exact ih () hends₁ hends₂
    | log event => exact ih () hends₁ hends₂
    | count counter => exact ih () hends₁ hends₂
    | become worker => exact ih () hends₁ hends₂
    | publish stats => exact ih () hends₁ hends₂

/-- What happens next on the way to a look that finds a stop request comes before that look. -/
lemma History.cons_suffix_of_looked {occurrence : Occurrence} {walked rest : History}
    (hne : occurrence ≠ .looked true) (hlooked : .looked true ∉ walked) (hbefore : h <:+ walked)
    (hsuffix : occurrence :: h <:+ rest ++ .looked true :: walked) :
    occurrence :: h <:+ walked := by
  rcases List.suffix_or_suffix_of_suffix hsuffix (List.suffix_append rest _) with hle | hle
  · rcases List.suffix_cons_iff.1 hle with heq | hle
    · exact absurd (List.cons.inj heq).1 hne
    · exact hle
  · -- the look would be a part of what happened before
    rcases List.mem_cons.1 (hle.subset List.mem_cons_self) with heq | hmem
    · exact absurd heq.symm hne
    · exact absurd (hbefore.subset hmem) hlooked

/-- A look that finds a stop request is the first one that does. -/
lemma History.eq_of_looked {walked rest : History} (hlooked : .looked true ∉ walked)
    (hbefore : h <:+ walked) (hsuffix : .looked true :: h <:+ rest ++ .looked true :: walked) :
    h = walked := by
  rcases List.suffix_or_suffix_of_suffix hsuffix (List.suffix_append rest _) with hle | hle
  · rcases List.suffix_cons_iff.1 hle with heq | hle
    · exact (List.cons.inj heq).2
    · exact absurd (hle.subset List.mem_cons_self) hlooked
  · rcases List.suffix_cons_iff.1 hle with heq | hle
    · exact (List.cons.inj heq).2.symm
    · exact absurd (hbefore.subset (hle.subset List.mem_cons_self)) hlooked

/-- A run in which a stop request is found begins, up to there, as any other run does that is
supplied with the same. -/
lemma Program.Ends.suffix_of_looked {program : Program α} {result₁ result₂ : α}
    {walked rest h₂ : History} (hsettles : c.Settles) (halong : History.Along c.rely walked)
    (hlooked : .looked true ∉ walked) (hbefore : h <:+ walked)
    (hends₁ : program.Ends c' h result₁ (rest ++ .looked true :: walked))
    (hends₂ : program.Ends c h result₂ h₂) : walked <:+ h₂ := by
  -- an occurrence on the way to the look
  have hnext : ∀ {program : Program α} {h : History} (occurrence : Occurrence),
      occurrence ≠ .looked true → h <:+ walked →
      program.Ends c' (occurrence :: h) result₁ (rest ++ .looked true :: walked) →
      occurrence :: h <:+ walked := fun occurrence hne hbefore hends =>
    History.cons_suffix_of_looked hne hlooked hbefore hends.suffix
  -- what was supplied there can be relied on
  have hsupplied : ∀ {h : History} {occurrence : Occurrence}, occurrence :: h <:+ walked →
      c.rely h occurrence := by
    rintro h occurrence ⟨later, rfl⟩
    exact halong.of_append.1
  induction program generalizing h with
  | done value =>
    obtain ⟨-, rfl⟩ := hends₁
    have hmem : .looked true ∈ rest ++ .looked true :: walked :=
      List.mem_append_right _ List.mem_cons_self
    exact absurd (hbefore.subset hmem) hlooked
  | perform effect resume ih =>
    cases effect with
    | call purpose call =>
      obtain ⟨reply, -, hends₁⟩ := hends₁
      obtain ⟨reply', hreply', hends₂⟩ := hends₂
      have hcalled : .called purpose call :: h <:+ walked :=
        History.cons_suffix_of_looked nofun hlooked hbefore
          ((List.suffix_cons _ _).trans hends₁.suffix)
      have hanswered := hnext (.answered purpose call reply) nofun hcalled hends₁
      obtain rfl := hsettles.reply _ _ _ _ _ (hsupplied hanswered) hreply'
      exact ih reply hanswered hends₁ hends₂
    | choose n pos =>
      obtain ⟨choice, -, hends₁⟩ := hends₁
      obtain ⟨choice', hchoice', hends₂⟩ := hends₂
      have hchose := hnext (.chose n choice) nofun hbefore hends₁
      obtain rfl := hsettles.choice _ _ _ _ (hsupplied hchose) hchoice'
      exact ih choice hchose hends₁ hends₂
    | stopRequested =>
      obtain ⟨answer, -, hends₁⟩ := hends₁
      cases answer with
      | true =>
        obtain rfl := History.eq_of_looked hlooked hbefore hends₁.suffix
        exact hends₂.suffix
      | false =>
        obtain ⟨answer', hanswer', hends₂⟩ := hends₂
        have hcleared := hnext (.looked false) nofun hbefore hends₁
        obtain rfl := hsettles.look _ _ _ (hsupplied hcleared) hanswer'
        exact ih false hcleared hends₁ hends₂
    | overflow cause => cases hends₁
    | enter part => exact ih () (hnext (.entered part) nofun hbefore hends₁) hends₁ hends₂
    | log event => exact ih () (hnext (.logged event) nofun hbefore hends₁) hends₁ hends₂
    | count counter => exact ih () (hnext (.counted counter) nofun hbefore hends₁) hends₁ hends₂
    | become worker => exact ih () (hnext (.became worker) nofun hbefore hends₁) hends₁ hends₂
    | publish stats => exact ih () (hnext (.published stats) nofun hbefore hends₁) hends₁ hends₂

/-! ## Runs on the state of the worker -/

/-- Whether a task, from a state of the worker and on top of a history, can end with a result, a
state and a history. -/
def Task.Ends (c : Contract) (task : Task α) (w : Worker) (h : History) (result : α) (w' : Worker)
    (h' : History) : Prop :=
  (task.run w).Ends c h (result, w') h'

/-- Whether an activity, from a state of the worker and on top of a history, can end or be given up
with a state and a history. -/
def Activity.Ends (c : Contract) (activity : Activity α) (w : Worker) (h : History)
    (result : Except PhaseError α) (w' : Worker) (h' : History) : Prop :=
  Task.Ends c activity.run w h result w' h'

variable {w w' : Worker}

/-- A run of a task that goes on with another one is a run of each. -/
lemma Task.ends_bind (task : Task α) (next : α → Task β) {result : β} :
    Ends c (task >>= next) w h result w' h' ↔
      ∃ value w₁ h₁, task.Ends c w h value w₁ h₁ ∧ (next value).Ends c w₁ h₁ result w' h' := by
  refine (Program.ends_bind (task.run w) fun step => (next step.1).run step.2).trans ?_
  exact Prod.exists.trans (exists_congr fun _ => Iff.rfl)

/-- A run of an activity that goes on with another one is a run of each, unless the first one is
given up. -/
lemma Activity.ends_bind (activity : Activity α) (next : α → Activity β)
    {result : Except PhaseError β} :
    Ends c (activity >>= next) w h result w' h' ↔
      (∃ value w₁ h₁, activity.Ends c w h (.ok value) w₁ h₁ ∧
        (next value).Ends c w₁ h₁ result w' h') ∨
      ∃ error, activity.Ends c w h (.error error) w' h' ∧ result = .error error := by
  refine (Task.ends_bind activity.run fun step => ExceptT.bindCont next step).trans ?_
  constructor
  · rintro ⟨error | value, w₁, h₁, hfirst, hnext⟩
    · obtain ⟨⟨⟩, rfl⟩ := hnext
      exact .inr ⟨error, hfirst, rfl⟩
    · exact .inl ⟨value, w₁, h₁, hfirst, hnext⟩
  · rintro (⟨value, w₁, h₁, hfirst, hnext⟩ | ⟨error, hfirst, rfl⟩)
    · exact ⟨.ok value, w₁, h₁, hfirst, hnext⟩
    · exact ⟨.error error, w', h', hfirst, rfl, rfl⟩

end PieceReplication
