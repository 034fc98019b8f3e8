import PieceReplication.Proofs.Conduct.Abreast
import PieceReplication.Proofs.Run.Life
import PieceReplication.Proofs.Run.Seen

/-!
# Drivers that are led by what is seen

A driver takes silent steps, reports and counts of failed queries, of which nothing is seen.
Without them (`Driver.muted`) it is led by what is seen: drivers that have shown the same stand at
level programs (`LedTo.level`), since a turn goes abreast with itself.  So of two drivers that were
supplied with the same one may be ahead of the other, but they do not part
(`LedTo.suffix_or_suffix`); and if both wait, neither is ahead (`LedTo.eq_of_waits`).
-/

namespace PieceReplication

open History

variable {setup : Setup} {h h' : History} {isStopping isStopping' : Bool}
  {driver driver' later later' : Driver} {occurrence occurrence' : Occurrence}

/-! ## Drivers without silent steps -/

namespace Driver

/-- The driver without its reports and its counts of failed queries. -/
def muted : Driver → Driver
  | active program => active program.muted
  | hanging purpose call resume => hanging purpose call fun reply => (resume reply).muted
  | driver => driver

/-- The driver at the beginning of its next turn, if it has come to the end of one. -/
def resumed (setup : Setup) : Driver → Driver
  | active (.done (.asleep w)) => active (Turn.run setup w).muted
  | active (.done (.finished w)) => active (Turn.first setup w).muted
  | driver => driver

/-- Whether two drivers have programs that are level. -/
inductive Level : Driver → Driver → Prop
  | active {program program'} (h : Program.Level TurnEnd.Level program program') :
    Level (.active program) (.active program')
  | hanging {purpose call resume resume'}
    (h : ∀ reply reply', Reply.Level reply reply' →
      Program.Level TurnEnd.Level (resume reply) (resume' reply')) :
    Level (.hanging purpose call resume) (.hanging purpose call resume')

/-- A driver with a program has one also in its next turn. -/
lemma exists_resumed (setup : Setup) (program : Program TurnEnd) :
    ∃ program', resumed setup (.active program) = .active program' := by
  cases program with
  | done turnEnd => cases turnEnd <;> exact ⟨_, rfl⟩
  | perform effect resume => exact ⟨_, rfl⟩

/-- Level drivers are level in their next turns. -/
lemma Level.resumed (hlevel : Level driver driver') :
    Level (driver.resumed setup) (driver'.resumed setup) := by
  cases hlevel with
  | hanging h => exact .hanging h
  | @active program program' h =>
    obtain ⟨next, hnext⟩ := exists_resumed setup program
    obtain ⟨next', hnext'⟩ := exists_resumed setup program'
    cases h with
    | done h =>
      cases h with
      | asleep h => exact .active (Turn.abreast_run h)
      | finished h => exact .active (Turn.abreast_first h)
    | breakLeft => exact hnext' ▸ .active .breakLeft
    | breakRight => exact hnext ▸ .active .breakRight
    | call h => exact .active (.call h)
    | choose h => exact .active (.choose h)
    | look h => exact .active (.look h)
    | enter h => exact .active (.enter h)
    | count h => exact .active (.count h)
    | become hlevel h => exact .active (.become hlevel h)
    | publish h => exact .active (.publish h)

/-- Level drivers take steps that are seen as the same, or that supply the same thing, perhaps in
different ways; and if what is seen is the same, they are level afterwards. -/
lemma Level.step (hlevel : Level driver driver') (hstep : Step isStopping driver occurrence later)
    (hstep' : Step isStopping' driver' occurrence' later') (hunbroken : occurrence ≠ .brokeOff)
    (hunbroken' : occurrence' ≠ .brokeOff) :
    (occurrence.seen? = occurrence'.seen? ∨ occurrence.Rivals occurrence') ∧
      (occurrence.seen? = occurrence'.seen? → Level later later') := by
  cases hlevel with
  | hanging h =>
    cases hstep with
    | panic => exact absurd rfl hunbroken
    | answer reply =>
      cases hstep' with
      | panic => exact absurd rfl hunbroken'
      | answer reply' =>
        refine ⟨.inr (.answered reply reply'), fun heq => .active (h reply reply' ?_)⟩
        simpa [Occurrence.seen?, Reply.Level] using heq
  | active h =>
    cases h with
    | done h => cases hstep
    | breakLeft =>
      cases hstep
      exact absurd rfl hunbroken
    | breakRight =>
      cases hstep'
      exact absurd rfl hunbroken'
    | call h =>
      cases hstep
      cases hstep'
      exact ⟨.inl rfl, fun _ => .hanging h⟩
    | choose h =>
      cases hstep with
      | choose choice =>
        cases hstep' with
        | choose choice' =>
          refine ⟨.inr (.chose choice choice'), fun heq => ?_⟩
          obtain rfl : choice = choice' := by simpa [Occurrence.seen?] using heq
          exact .active (h choice)
    | look h =>
      cases hstep
      cases hstep'
      refine ⟨.inr (.looked isStopping isStopping'), fun heq => ?_⟩
      obtain rfl : isStopping = isStopping' := by simpa [Occurrence.seen?] using heq
      exact .active (h isStopping)
    | enter h =>
      cases hstep
      cases hstep'
      exact ⟨.inl rfl, fun _ => .active h⟩
    | count h =>
      cases hstep
      cases hstep'
      exact ⟨.inl rfl, fun _ => .active h⟩
    | become hlevel h =>
      cases hstep
      cases hstep'
      have hseen := congrArg (fun w => some (Occurrence.became w)) hlevel
      exact ⟨.inl hseen, fun _ => .active h⟩
    | publish h =>
      cases hstep
      cases hstep'
      exact ⟨.inl rfl, fun _ => .active h⟩

/-- A step of which nothing is seen leads to the same driver without silent steps. -/
lemma muted_eq_of_step (hstep : Step isStopping driver occurrence later)
    (hsilent : occurrence.seen? = none) : driver.muted = later.muted := by
  cases hstep with
  | log => rfl
  | @count counter resume =>
    cases counter with
    | retrievalQueryFailures => rfl
    | _ => cases hsilent
  | _ => cases hsilent

/-- A step of which something is seen is one of the driver without silent steps, too. -/
lemma Step.muted (hstep : Step isStopping driver occurrence later) {v : Occurrence}
    (hseen : occurrence.seen? = some v) : Step isStopping driver.muted occurrence later.muted := by
  cases hstep with
  | log => cases hseen
  | @count counter resume =>
    cases counter with
    | retrievalQueryFailures => cases hseen
    | _ => exact .count
  | call => exact .call
  | answer reply => exact .answer reply
  | panic => exact .panic
  | choose choice => exact .choose choice
  | look => exact .look
  | enter => exact .enter
  | become => exact .become
  | publish => exact .publish
  | overflow => exact .overflow

/-- A driver that takes a step is not at the end of a turn. -/
lemma resumed_eq_of_step (hstep : Step isStopping driver occurrence later) :
    driver.resumed setup = driver := by
  cases hstep <;> rfl

/-- A driver that is at the end of a turn in its next turn was there before. -/
lemma eq_of_resumed_eq {turnEnd : TurnEnd}
    (heq : driver.resumed setup = .active (.done turnEnd)) : driver = .active (.done turnEnd) := by
  cases driver with
  | active program =>
    cases program with
    | done turnEnd' =>
      cases turnEnd' with
      | asleep w => injection heq with heq; cases heq
      | finished w => injection heq with heq; cases heq
    | perform effect resume => exact heq
  | _ => exact heq

end Driver

/-! ## What leads a driver -/

/-- Where a driver without silent steps can come to stand in some surroundings when something is
seen, the latest first, and it does not break off. -/
inductive LedTo (setup : Setup) (supply : Supply) : History → Driver → Prop
  | new : LedTo setup supply [] (.active (.done (.finished (.fresh setup.config))))
  | step {h driver isStopping occurrence later sight} (ledTo : LedTo setup supply h driver)
    (hstep : Driver.Step isStopping (driver.resumed setup) occurrence later)
    (hprovides : supply.Provides h occurrence) (hseen : occurrence.seen? = some sight)
    (hunbroken : occurrence ≠ .brokeOff) : LedTo setup supply (sight :: h) later

namespace LedTo

variable {supply : Supply} {rest : History} {sight sight' : Occurrence}

/-- Drivers that are led by the same are level. -/
lemma level (ledTo : LedTo setup supply h driver) (ledTo' : LedTo setup supply h driver') :
    driver.Level driver' := by
  induction ledTo generalizing driver' with
  | new =>
    cases ledTo'
    exact .active (.done (.finished (Worker.level_rfl _)))
  | step ledTo hstep hprovides hseen hunbroken ih =>
    cases ledTo' with
    | step ledTo' hstep' hprovides' hseen' hunbroken' =>
      have hboth := (ih ledTo').resumed.step hstep hstep' hunbroken hunbroken'
      exact hboth.2 (hseen.trans hseen'.symm)

/-- A driver that is led by something was led by each of its beginnings. -/
lemma exists_of_append (ledTo : LedTo setup supply (rest ++ h) driver) :
    ∃ earlier, LedTo setup supply h earlier := by
  induction rest generalizing driver with
  | nil => exact ⟨driver, ledTo⟩
  | cons sight rest ih =>
    cases ledTo with
    | step ledTo => exact ih ledTo

/-- Drivers that are led by the same, in the same surroundings, show the same next. -/
lemma sight_eq (ledTo : LedTo setup supply (sight :: h) driver)
    (ledTo' : LedTo setup supply (sight' :: h) driver') : sight = sight' := by
  cases ledTo with
  | step ledTo hstep hprovides hseen hunbroken =>
    cases ledTo' with
    | step ledTo' hstep' hprovides' hseen' hunbroken' =>
      refine Option.some.inj ?_
      rw [← hseen, ← hseen']
      rcases ((ledTo.level ledTo').resumed.step hstep hstep' hunbroken hunbroken').1 with
        heq | hrivals
      · exact heq
      · exact hprovides.seen?_eq hprovides' hrivals

/-- What a driver that is ahead shows next. -/
lemma eq_or_exists_of_append (ledTo : LedTo setup supply (sight :: h) driver)
    (ledTo' : LedTo setup supply (rest ++ h) driver') :
    rest = [] ∨ ∃ rest', rest = rest' ++ [sight] := by
  rcases List.eq_nil_or_concat rest with rfl | ⟨rest, next, rfl⟩
  · exact .inl rfl
  · rw [List.concat_append] at ledTo'
    obtain ⟨later, hnext⟩ := ledTo'.exists_of_append
    exact .inr ⟨rest, by rw [List.concat_eq_append, ledTo.sight_eq hnext]⟩

/-- Of two drivers in the same surroundings one is ahead of the other, or they have got equally
far. -/
lemma suffix_or_suffix (ledTo : LedTo setup supply h driver)
    (ledTo' : LedTo setup supply h' driver') : h <:+ h' ∨ h' <:+ h := by
  induction h generalizing driver with
  | nil => exact .inl List.nil_suffix
  | cons sight h ih =>
    have happend : LedTo setup supply ([sight] ++ h) driver := ledTo
    obtain ⟨earlier, hearlier⟩ := happend.exists_of_append
    rcases ih hearlier with ⟨rest, rfl⟩ | hahead
    · rcases ledTo.eq_or_exists_of_append ledTo' with rfl | ⟨rest, rfl⟩
      · exact .inr (List.suffix_cons sight h)
      · exact .inl ⟨rest, List.append_cons rest sight h⟩
    · exact .inr (hahead.trans (List.suffix_cons sight h))

end LedTo

/-! ## Drivers that wait -/

/-- Whether a driver waits: to be supplied with a reply, for its next turn or for its next start. -/
def Driver.Waits : Driver → Prop
  | active (.done _) => True
  | hanging _ _ _ => True
  | _ => False

namespace LedTo

variable {supply : Supply} {rest : History}

/-- Where a driver has something supplied, it does not go on without. -/
lemma eq_nil_of_isSupplied {sight : Occurrence} (ledTo : LedTo setup supply (sight :: h) driver)
    (hsupplied : sight.isSupplied) (ledTo' : LedTo setup supply (rest ++ h) driver')
    (hrest : ∀ sight ∈ rest, sight.isSupplied = false) : rest = [] := by
  rcases ledTo.eq_or_exists_of_append ledTo' with rfl | ⟨rest, rfl⟩
  · rfl
  · rw [hrest sight (by simp)] at hsupplied
    cases hsupplied

/-- After its start a driver looks for a stop request before it waits. -/
lemma eq_nil_of_start {w : Worker} (ledTo : LedTo setup supply h (.active (.done (.finished w))))
    (ledTo' : LedTo setup supply (rest ++ h) driver') (hwaits : driver'.Waits)
    (hrest : ∀ sight ∈ rest, sight.isSupplied = false) : rest = [] := by
  have hbecome : Driver.Step false (.active (Turn.first setup w).muted) (.became w)
      (.active (Turn.run setup w).muted) := .become
  have hstarted := ledTo.step hbecome trivial rfl nofun
  have hlook : Driver.Step _ (.active (Turn.run setup w).muted)
      (.looked (supply.isStopping (.became w.uncounted :: h))) _ := .look
  rcases hstarted.eq_or_exists_of_append ledTo' with rfl | ⟨rest, rfl⟩
  · rfl
  · rw [List.append_assoc] at ledTo'
    obtain rfl := (hstarted.step hlook rfl rfl nofun).eq_nil_of_isSupplied rfl ledTo'
      fun sight hsight => hrest sight (by simp [hsight])
    -- what looks for a stop request does not wait
    cases hstarted.level ledTo' with
    | active h =>
      cases h
      · exact hwaits.elim
      · exact hwaits.elim

/-- Between two moments at which the driver waits something is supplied. -/
lemma eq_nil_of_waits (ledTo : LedTo setup supply h driver) (hwaits : driver.Waits)
    (ledTo' : LedTo setup supply (rest ++ h) driver') (hwaits' : driver'.Waits)
    (hrest : ∀ sight ∈ rest, sight.isSupplied = false) : rest = [] := by
  cases driver with
  | hanging purpose call resume =>
    have hanswer : Driver.Step false (.hanging purpose call resume)
        (.answered purpose call (supply.reply h call)) _ := .answer _
    exact (ledTo.step hanswer rfl rfl nofun).eq_nil_of_isSupplied rfl ledTo' hrest
  | active program =>
    cases program with
    | perform effect resume => exact hwaits.elim
    | done turnEnd =>
      cases turnEnd with
      | asleep w =>
        have hlook : Driver.Step _ (.active (Turn.run setup w).muted)
            (.looked (supply.isStopping h)) _ := .look
        exact (ledTo.step hlook rfl rfl nofun).eq_nil_of_isSupplied rfl ledTo' hrest
      | finished w => exact ledTo.eq_nil_of_start ledTo' hwaits' hrest
  | _ => exact hwaits.elim

/-- Of two drivers that wait, and had as much supplied, neither is ahead of the other. -/
lemma eq_of_waits (ledTo : LedTo setup supply h driver) (hwaits : driver.Waits)
    (ledTo' : LedTo setup supply h' driver') (hwaits' : driver'.Waits) (hahead : h <:+ h')
    (hcount : h.countP Occurrence.isSupplied = h'.countP Occurrence.isSupplied) : h = h' := by
  obtain ⟨rest, rfl⟩ := hahead
  have hrest : ∀ sight ∈ rest, sight.isSupplied = false := by
    simpa using hcount
  have hnil := ledTo.eq_nil_of_waits hwaits ledTo' hwaits' hrest
  rw [hnil, List.nil_append]

end LedTo

end PieceReplication
