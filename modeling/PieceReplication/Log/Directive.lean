import PieceReplication.Log.Span
import PieceReplication.Text.CharClass
import PieceReplication.Text.Integer
import PieceReplication.Text.Pattern.Reader

/-!
# Directives of log filters

A directive sets the verbosity of what it covers. It is written as a verbosity, which covers
everything, as a target, or as `target[span]=verbosity`, where the target, the span or the
verbosity may be missing. The span is the name of a span, a test of a field in braces, or both; the
test is the name of a field, or `name=value`. A value is a pattern that is searched for in the text
of the field, but a number or a truth value is found in no text.

A directive with a span is about what happens inside of such spans. One that asks for a field only,
not for a name or a value, is also about everything that has such a field.

The marks of a directive are looked for in its text without the blanks around it, and its parts are
cut at the same positions from the text as it stands. So a directive behind a blank covers no event,
and one with a verbosity is unreadable behind a blank.
-/

namespace PieceReplication

/-- How much is shown: nothing at zero, errors at one, and so on up to everything at five. -/
abbrev Verbosity := Nat

namespace Verbosity

/-- The verbosity that shows everything. -/
def full : Verbosity :=
  5

/-- The verbosities by name. -/
def names : List (String × Verbosity) :=
  [("off", 0), ("error", 1), ("warn", 2), ("info", 3), ("debug", 4), ("trace", 5)]

/-- The verbosity of a name, in letters of either case. -/
def ofName? (name : String) : Option Verbosity :=
  names.lookup name.toLower

/-- Reads a verbosity: an unsigned number up to five, or a name. -/
def ofText? (text : String) : Option Verbosity :=
  match Integer.uint64? text with
  | some n => if n ≤ 5 then some n.toNat else none
  | none => ofName? text

end Verbosity

/-! ### Tests of fields -/

/-- What a directive asks about a field. -/
structure FieldTest where
  name : String
  /-- The text of the value that is asked for, if one is. -/
  value : Option String
  deriving DecidableEq

namespace FieldTest

/-- Whether a text is a decimal number: digits with at most one point, and perhaps an exponent. -/
def isDecimal (text : List Char) : Bool :=
  let digits := text.takeWhile fun c => c != 'e' && c != 'E'
  let exponent := text.drop (digits.length + 1)
  (digits.any Integer.isDigit && digits.all (fun c => Integer.isDigit c || c == '.')) &&
    digits.count '.' ≤ 1 &&
    (digits.length == text.length || (Integer.signed? exponent).isSome)

/-- Whether a text is a number, one of the names of numbers that are not finite included. -/
def isNumber (text : String) : Bool :=
  let unsigned := match text.toList with
    | '+' :: rest | '-' :: rest => rest
    | text => text
  ["inf", "infinity", "nan"].contains (String.ofList unsigned).toLower || isDecimal unsigned

/-- Whether a value is a number or a truth value, and thus not a pattern. -/
def isConstant (value : String) : Bool :=
  value = "true" || value = "false" || isNumber value

/-- Whether a value can be asked for. -/
def isReadable (value : String) : Bool :=
  isConstant value || (Pattern.ofChars? value.toList).isSome

/-- Reads a test. What follows a second equals sign is ignored. -/
def ofText? (text : String) : Option FieldTest :=
  match text.splitOn "=" with
  | [] | [""] => none
  | [name] => some ⟨name, none⟩
  | name :: value :: _ => if isReadable value then some ⟨name, some value⟩ else none

/-- Whether the value of a field is the one that is asked for. -/
def accepts (test : FieldTest) (text : String) : Bool :=
  match test.value with
  | none => true
  | some value =>
    !isConstant value &&
      (Pattern.ofChars? value.toList).any fun pattern => pattern.isFound text.toList

end FieldTest

/-! ### Directives -/

/-- A directive of a filter. -/
structure Directive where
  /-- The start of the paths that are meant; the empty text means all of them. -/
  target : String
  /-- The name of the span that is meant, if one is named. -/
  span : Option String
  /-- The field that is asked for, if one is. -/
  test : Option FieldTest
  verbosity : Verbosity
  deriving DecidableEq

/-- A character of a text without the blanks around it, which ends with `none`, and the character
at the same position of the text itself. -/
structure Place where
  mark : Option Char
  cut : Char

namespace Place

/-- The places of a text. -/
def ofText (text : List Char) : List Place :=
  let trimmed := Blank.trim text
  text.mapIdx fun i c => ⟨trimmed[i]?, c⟩

/-- The text that is cut at some places. -/
def text (places : List Place) : String :=
  String.ofList (places.map cut)

/-- Divides places before the first one with one of some marks. -/
def splitAt (marks : List Char) (places : List Place) : List Place × List Place :=
  places.span fun place => !place.mark.any marks.contains

end Place

namespace Directive

/-- The directive that covers everything. -/
def universal (verbosity : Verbosity) : Directive :=
  ⟨"", none, none, verbosity⟩

/-- The directive that covers a target. -/
def ofTarget (target : String) (verbosity : Verbosity) : Directive :=
  ⟨target, none, none, verbosity⟩

/-- Whether a directive may begin with a character if it does not begin with a span. -/
def isStart (c : Char) : Bool :=
  Alphanumeric.isAlphanumeric c || c == '-' || c == ':' || c == '_'

/-- Reads a verbosity or a target. -/
def ofWord (word : String) : Directive :=
  match Verbosity.ofText? word with
  | some verbosity => universal verbosity
  | none => ofTarget word .full

/-- Gives a directive the verbosity of a text; a missing one is full. -/
def withLevel? (directive : Directive) (level : String) : Option Directive :=
  if level = "" then some { directive with verbosity := .full }
  else (Verbosity.ofText? level).map fun verbosity => { directive with verbosity }

/-- Reads what follows the closing bracket of a span. -/
def afterSpan? (directive : Directive) : List Place → Option Directive
  | [] => some directive
  | place :: rest =>
    match place.mark with
    | none => some directive
    | some '=' => directive.withLevel? (Place.text rest)
    | some _ => none

/-- Reads what follows the opening brace of a span. -/
def ofField? (directive : Directive) (places : List Place) : Option Directive :=
  match Place.splitAt ['\x7d'] places with
  | (field, _ :: close :: rest) =>
    if close.mark = some ']' then
      (FieldTest.ofText? (Place.text field)).bind fun test =>
        { directive with test := some test }.afterSpan? rest
    else none
  | _ => none

/-- Reads what follows the opening bracket of a span. -/
def ofSpan? (target : String) (places : List Place) : Option Directive :=
  let directive := ofTarget target .full
  match Place.splitAt [']', '\x7b'] places with
  | (_, []) => none
  | (name, place :: rest) =>
    let name := Place.text name
    if place.mark = some ']' then { directive with span := some name }.afterSpan? rest
    else { directive with span := if name = "" then none else some name }.ofField? rest

/-- Reads a directive. -/
def ofText? (text : String) : Option Directive :=
  match Place.ofText text.toList with
  | [] => none
  | first :: rest =>
    if first.mark = some '[' then ofSpan? "" rest
    else if first.mark.any isStart then
      match Place.splitAt ['=', '['] (first :: rest) with
      | (_, []) => some (ofWord text)
      | (target, place :: rest) =>
        let target := Place.text target
        if place.mark = some '=' then (ofTarget target .full).withLevel? (Place.text rest)
        else ofSpan? target rest
    else none

/-- Whether a directive speaks of a path. -/
def covers (directive : Directive) (path : String) : Bool :=
  directive.target.toList.isPrefixOf path.toList

/-- Whether a directive asks for the value of a field. -/
def asksValue (directive : Directive) : Bool :=
  directive.test.any fun test => test.value.isSome

/-- Whether a directive is about what happens inside of spans. -/
def isScoped (directive : Directive) : Bool :=
  directive.span.isSome || directive.test.isSome

/-- Whether a directive decides on spans and events by themselves. -/
def isStanding (directive : Directive) : Bool :=
  directive.span.isNone && !directive.asksValue

/-- Whether a directive is about a span, whatever the value of the span's field is. -/
def selects (directive : Directive) : Bool :=
  directive.isScoped && directive.covers LogSpan.target.path &&
    directive.span.all (· = LogSpan.name) &&
    directive.test.all fun test => test.name = LogSpan.field

/-- Whether a directive is about the events of a target and asks for no field that they lack. -/
def speaksOf (directive : Directive) (target : LogTarget) : Bool :=
  directive.covers target.path && directive.test.all fun test => test.name = LogEvent.field

/-- Whether the value of a span's field is the one that a directive asks for. -/
def accepts (directive : Directive) (span : LogSpan) : Bool :=
  directive.test.all fun test => test.accepts span.value

/-- Whether two directives differ in their verbosity at most. -/
def isAlike (first second : Directive) : Bool :=
  { first with verbosity := 0 } = { second with verbosity := 0 }

end Directive

end PieceReplication
