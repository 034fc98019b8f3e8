import PieceReplication.Encoding.Radix
import PieceReplication.Log.Directive

/-!
# Log filters

A filter is a list of directives parted by commas. It decides whether a span is entered, and
whether an event is shown.

For an event by itself the directive with the longest target that its own target's path starts with
decides; of two with the same target one that asks for a field comes first, and then the later one
does. An event that no directive speaks of is not shown. Inside of a span that is entered, events
are also shown up to the verbosity of the directives about the span, if they accept the value of
its field. A span is entered if there is a directive about it, or by the rule for events, except
that the fields that directives ask for do not matter.

Whatever its directives are about, a filter shows nothing beyond the highest verbosity that occurs
in it, unless a directive asks for the value of a field.

Directives that cannot be read are skipped. A filter text with no directive left shows errors, a
missing one shows events up to `info`, and one that is not text shows nothing.
-/

namespace PieceReplication

/-- A filter: directives in the order in which they were written. -/
abbrev LogFilter := List Directive

namespace LogFilter

/-- The filter that is used when none is given. -/
def standard : LogFilter :=
  [.universal 3, .ofTarget "forest_replicator" 3]

/-- The filter of a text. -/
def ofText (text : String) : LogFilter :=
  match (text.splitOn ",").filterMap Directive.ofText? with
  | [] => [.universal 1]
  | directives => directives

/-- The filter of a setting: the standard one if there is none, and one that shows nothing if the
setting is not text. -/
def ofSetting : Option Bytes → LogFilter
  | none => standard
  | some value =>
    match Bytes.text? value with
    | some text => ofText text
    | none => [.universal 0]

/-- The highest verbosity of some directives. -/
def highest (directives : List Directive) : Verbosity :=
  directives.foldl (fun high directive => max high directive.verbosity) 0

/-- The verbosity beyond which nothing is shown. -/
def ceiling (filter : LogFilter) : Verbosity :=
  if filter.any Directive.asksValue then .full else highest filter

/-! ### Events and spans by themselves -/

/-- Whether a directive gives way to a later one, if both cover a path. -/
def givesWay (first second : Directive) : Bool :=
  if first.target.length = second.target.length then
    match first.test, second.test with
    | none, _ => true
    | some _, none => false
    | some first, some second => first.name ≤ second.name
  else first.target.length < second.target.length

/-- The verbosity of the most decisive of some directives that cover a path. -/
def decisive : List Directive → Verbosity
  | [] => 0
  | directive :: rest =>
    (rest.foldl (fun first second => if givesWay first second then second else first)
      directive).verbosity

/-- How much is shown of a target. -/
def verbosity (filter : LogFilter) (target : LogTarget) : Verbosity :=
  decisive (filter.filter fun directive => directive.isStanding && directive.speaksOf target)

/-- How much is shown of the span by itself. -/
def spanVerbosity (filter : LogFilter) : Verbosity :=
  decisive (filter.filter fun directive =>
    directive.isStanding && directive.covers LogSpan.target.path)

/-! ### Events inside of the span -/

/-- Keeps of directives that differ in their verbosity only the last. -/
def latest : List Directive → List Directive
  | [] => []
  | directive :: rest =>
    if rest.any directive.isAlike then latest rest else directive :: latest rest

/-- The directives about the span. -/
def selecting (filter : LogFilter) : List Directive :=
  latest (filter.filter Directive.selects)

/-- Whether the span is entered. -/
def enters (filter : LogFilter) : Bool :=
  LogSpan.level.rank ≤ filter.ceiling &&
    (!filter.selecting.isEmpty || LogSpan.level.rank ≤ filter.spanVerbosity)

/-- How much is shown inside of a span. -/
def scopeVerbosity (filter : LogFilter) (span : LogSpan) : Verbosity :=
  if filter.enters then highest (filter.selecting.filter (·.accepts span)) else 0

/-- Whether a level is shown of a target. -/
def shows (filter : LogFilter) (span : LogSpan) (level : LogLevel) (target : LogTarget) : Bool :=
  level.rank ≤ filter.ceiling &&
    (level.rank ≤ filter.scopeVerbosity span || level.rank ≤ filter.verbosity target)

end LogFilter

end PieceReplication
