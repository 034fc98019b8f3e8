import PieceReplication.Text.CharSet

/-!
# Text patterns

A pattern matches texts in an order of preference: where a choice or a repetition may go on in two
ways, the first of them is preferred. As soon as one way of matching is complete, all ways that are
less preferred are given up, even if the text goes on. So `f0|f01` does not match `f01`, and
`f01|f0` does.

A pattern that is searched for may also begin behind some characters of the text, of which as few
as possible are skipped. Whatever is found first has to reach the end of the text: `01` is found at
the end of `f01`, and `f0` is not.

The leads of a pattern are the ways in which it may begin, the preferred ones first.
-/

namespace PieceReplication

/-- A gap between two characters of a text, or at an end of it. -/
structure Gap where
  before : Option Char
  after : Option Char

/-- A property of a gap. -/
inductive Anchor where
  | start
  | finish
  /-- One neighbour is a character of words and the other is not. -/
  | wordEdge
  | noWordEdge
  | wordStart
  | wordEnd
  deriving DecidableEq

/-- Whether a gap has a property. -/
def Anchor.holds (anchor : Anchor) (gap : Gap) : Bool :=
  let isBehindWord := gap.before.any CharSet.word.contains
  let isBeforeWord := gap.after.any CharSet.word.contains
  match anchor with
  | start => gap.before.isNone
  | finish => gap.after.isNone
  | wordEdge => isBehindWord != isBeforeWord
  | noWordEdge => isBehindWord == isBeforeWord
  | wordStart => !isBehindWord && isBeforeWord
  | wordEnd => isBehindWord && !isBeforeWord

/-- A pattern for texts. -/
inductive Pattern where
  /-- The empty text. -/
  | nothing
  /-- One character of a set. -/
  | one (set : CharSet)
  /-- The empty text in a gap with a property. -/
  | inGap (property : Anchor)
  | sequence (first second : Pattern)
  | choice (first second : Pattern)
  /-- One turn or more, as many as possible if it is greedy and as few if not. -/
  | repeated (isGreedy : Bool) (body : Pattern)
  /-- A repetition between two of its turns: there may be another one, but not an empty one. -/
  | paused (isGreedy : Bool) (body : Pattern)
  deriving DecidableEq

/-- A way in which a pattern may begin: it is complete, or it takes a character of a set and goes on
with another pattern. -/
inductive Lead where
  | complete
  | take (set : CharSet) (rest : Pattern)
  deriving DecidableEq

namespace Lead

/-- Whether a lead is complete. -/
def isComplete : Lead → Bool
  | complete => true
  | take .. => false

/-- What is left to match when a lead has taken a character. -/
def rest? (c : Char) : Lead → Option Pattern
  | complete => none
  | take set rest => if set.contains c then some rest else none

/-- A lead that goes on with a pattern when its own is matched; it is complete if that is. -/
def andThen (second : Pattern) : Lead → Lead
  | complete => complete
  | take set .nothing => take set second
  | take set rest => take set (.sequence rest second)

end Lead

namespace Pattern

/-- A pattern that may be left out; if it is greedy, it is left out if need be only. -/
def optional (isGreedy : Bool) (body : Pattern) : Pattern :=
  if isGreedy then choice body nothing else choice nothing body

/-- Any number of turns. -/
def anyNumber (isGreedy : Bool) (body : Pattern) : Pattern :=
  optional isGreedy (repeated isGreedy body)

/-- A pattern behind characters of any kind, of which there are as few as possible. -/
def anywhere (pattern : Pattern) : Pattern :=
  sequence (anyNumber false (one .all)) pattern

/-- The leads of a pattern in a gap. -/
def leads (gap : Gap) : Pattern → List Lead
  | nothing => [.complete]
  | one set => [.take set nothing]
  | inGap property => if property.holds gap then [.complete] else []
  | sequence first second =>
    (first.leads gap).flatMap fun lead =>
      if lead.isComplete then second.leads gap else [lead.andThen second]
  | choice first second => first.leads gap ++ second.leads gap
  | repeated isGreedy body => (body.leads gap).map (Lead.andThen (paused isGreedy body))
  | paused isGreedy body =>
    let turns := ((body.leads gap).filter (!·.isComplete)).map
      (Lead.andThen (paused isGreedy body))
    if isGreedy then turns ++ [.complete] else .complete :: turns

/-- The leads of several ways of matching, the preferred ones first. -/
def leadsOf (gap : Gap) (ways : List Pattern) : List Lead :=
  (ways.flatMap (leads gap)).eraseDups

/-- The ways that are left when several ways have taken a character. -/
def advance (gap : Gap) (c : Char) (ways : List Pattern) : List Pattern :=
  ((leadsOf gap ways).takeWhile (!·.isComplete)).filterMap (Lead.rest? c)

/-- Whether one of several ways of matching matches a text behind a character. -/
def matchesOne (before : Option Char) (ways : List Pattern) : List Char → Bool
  | [] => (leadsOf ⟨before, none⟩ ways).any Lead.isComplete
  | c :: rest => matchesOne (some c) (advance ⟨before, some c⟩ c ways) rest

/-- Whether a pattern matches a text. -/
def isMatch (pattern : Pattern) (text : List Char) : Bool :=
  matchesOne none [pattern] text

/-- Whether a pattern that is searched for in a text is found and reaches the end of it. -/
def isFound (pattern : Pattern) (text : List Char) : Bool :=
  pattern.anywhere.isMatch text

end Pattern

end PieceReplication
