import PieceReplication.Encoding.Hex
import PieceReplication.Log.Filter

/-!
# The console log

An event is written to the console as one line: its level, the mark of its span, and its message.
Control characters by which a message could steer a terminal are written by their numbers, so a
message cannot. A message that goes on after a line break is shown up to the break.
-/

namespace PieceReplication.Console

/-- The text of a control character of ASCII. -/
def byteEscape (c : Char) : List Char :=
  ['\\', 'x'] ++ (Hex.encode [UInt8.ofNat c.toNat]).toList

/-- The text of a control character behind ASCII. -/
def pointEscape (c : Char) : List Char :=
  ['\\', 'u', '\x7b'] ++ (Hex.encode [UInt8.ofNat c.toNat]).toList ++ ['\x7d']

/-- The control characters of ASCII that are escaped: bell, backspace, form feed, escape and
delete. -/
def steering : List Char :=
  ['\x07', '\x08', '\x0c', '\x1b', '\x7f']

/-- How a character of a message is written. -/
def escapeChar (c : Char) : List Char :=
  if c ∈ steering then byteEscape c
  else if 0x80 ≤ c.toNat ∧ c.toNat ≤ 0x9f then pointEscape c
  else [c]

/-- The first line of a text. A line ends at a line feed or with the text, and one carriage return
before its end belongs to the end. -/
def firstLine (text : List Char) : List Char :=
  let line := text.takeWhile (· != '\n')
  if line.getLast? = some '\r' then line.dropLast else line

/-- How a message is written. -/
def escape (message : String) : String :=
  String.ofList ((firstLine message.toList).flatMap escapeChar)

/-- What is written before the messages of a span: its mark, unless the filter hides it. -/
def mark (filter : LogFilter) (span : LogSpan) : String :=
  if filter.enters then span.mark else ""

/-- The line of an event in a span; nothing if the filter hides it. -/
def line? (filter : LogFilter) (span : LogSpan) (event : LogEvent) : Option String :=
  if filter.shows span event.level event.target then
    some s!"{event.level.text} [{mark filter span}] {escape event.message}"
  else none

/-- The text of the error about a second logger. -/
def loggerTaken : String :=
  "a global default trace dispatcher has already been set"

end PieceReplication.Console
