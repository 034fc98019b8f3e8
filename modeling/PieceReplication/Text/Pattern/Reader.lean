import PieceReplication.Text.CharClass
import PieceReplication.Text.Pattern.Sign

/-!
# The text of a pattern

A pattern is written with the usual marks: `.` for any character but the line feed, brackets for a
set of characters, `|` for a choice, `*`, `+` and `?` for repetitions, which are greedy unless `?`
follows, `^` and `$` for the ends of the text, and parentheses for groups. A set may contain other
sets, and `&&`, `--` and `~~` are operations on sets. An opening brace is no part of a pattern.

Flags stand in `(?flags)`, from where they hold up to the end of the group around, or in
`(?flags:..)`, where they hold inside. With `i` case is ignored, with `U` repetitions are greedy
only if `?` follows, and with `x` blanks and comments are skipped. Without `u` the pattern is for
bytes: it may ask for the edges of words, which it may not do otherwise, but not for anything that
a byte outside of ASCII could match. The flags `s`, `m` and `R` are about line ends, which make no
difference to a text of one line.

The signs of a text are read one by one. What is read is kept in the frames of the groups that are
open and in the sets that are open; a sign may look at the signs behind it and have some of them
skipped.
-/

namespace PieceReplication.Pattern

/-! ### Flags -/

/-- How a part of a pattern's text is to be understood. -/
structure Flags where
  ignoresCase : Bool
  swapsGreed : Bool
  skipsBlanks : Bool
  forCodePoints : Bool
  /-- Whether a comment is open. -/
  isComment : Bool
  deriving DecidableEq

namespace Flags

/-- The flags at the beginning of a pattern. -/
def standard : Flags :=
  ⟨false, false, false, true, false⟩

/-- Sets or clears a flag. -/
def set? (isOn : Bool) (flags : Flags) (letter : Char) : Option Flags :=
  match letter with
  | 'i' => some { flags with ignoresCase := isOn }
  | 'U' => some { flags with swapsGreed := isOn }
  | 'x' => some { flags with skipsBlanks := isOn }
  | 'u' => some { flags with forCodePoints := isOn }
  | 's' | 'm' | 'R' => some flags
  | _ => none

/-- Reads flags; those behind a dash are cleared. No letter may come twice, and one has to follow
the dash. -/
def change? (flags : Flags) (letters : List Char) : Option Flags := do
  let on := letters.takeWhile (· != '-')
  let off := letters.drop (on.length + 1)
  if letters.Nodup ∧ letters.getLast? ≠ some '-' then
    off.foldlM (set? false) (← on.foldlM (set? true) flags)
  else none

/-- The flags behind a sign that is skipped. -/
def behindSkipped? (flags : Flags) (sign : Sign) : Option Flags :=
  if !flags.skipsBlanks then none
  else if flags.isComment then some { flags with isComment := sign != .plain '\n' }
  else
    match sign with
    | .plain '#' => some { flags with isComment := true }
    | .plain c => if Blank.isBlank c then some flags else none
    | _ => none

/-- The pattern for one character of a set, unless it is for bytes and takes some outside of
ASCII. -/
def one? (flags : Flags) (set : CharSet) : Option Pattern :=
  if flags.forCodePoints || (set.isOfAscii && !set.contains '\x80') then
    some (one (if flags.ignoresCase then set.ignoreCase else set))
  else none

/-- The pattern for a property of a gap. -/
def anchor? (flags : Flags) (property : Anchor) : Option Pattern :=
  match property with
  | .start | .finish => some (inGap property)
  | _ => if flags.forCodePoints then none else some (inGap property)

end Flags

/-! ### Groups and sets that are open -/

/-- An open group: its flags, the choices that are complete, and the parts of the one that is not,
each with the latest first. -/
structure Frame where
  flags : Flags
  choices : List Pattern
  parts : List Pattern
  /-- Whether a repetition may follow. -/
  isRepeatable : Bool

namespace Frame

/-- A group at its beginning. -/
def new (flags : Flags) : Frame :=
  ⟨flags, [], [], false⟩

/-- The choice that ends. -/
def choice (frame : Frame) : Pattern :=
  frame.parts.foldl (fun rest part => if rest = nothing then part else sequence part rest) nothing

/-- The pattern of a group that ends. -/
def pattern (frame : Frame) : Pattern :=
  frame.choices.foldl (fun rest earlier => .choice earlier rest) frame.choice

/-- Adds a part. -/
def push (frame : Frame) (part : Pattern) : Frame :=
  { frame with parts := part :: frame.parts, isRepeatable := true }

/-- Begins another choice. -/
def next (frame : Frame) : Frame :=
  { frame with choices := frame.choice :: frame.choices, parts := [], isRepeatable := false }

/-- Repeats the latest part. -/
def repeat? (frame : Frame) (repetition : Pattern → Pattern) : Option Frame :=
  match frame.isRepeatable, frame.parts with
  | true, part :: parts => some { frame with parts := repetition part :: parts }
  | _, _ => none

end Frame

/-- An operation on sets. -/
inductive SetOperation where
  | intersection
  | difference
  | symmetricDifference

/-- The set that an operation makes of two sets. -/
def SetOperation.apply : SetOperation → CharSet → CharSet → CharSet
  | intersection => CharSet.intersection
  | difference => CharSet.difference
  | symmetricDifference => CharSet.symmetricDifference

/-- An open set. -/
structure OpenSet where
  isComplement : Bool
  /-- The set in front of the last operation, if there is one. -/
  left : Option (CharSet × SetOperation)
  /-- The members since then. -/
  members : CharSet
  /-- Whether nothing but dashes was read. -/
  isFresh : Bool

namespace OpenSet

/-- A set at its beginning. -/
def new (isComplement : Bool) : OpenSet :=
  ⟨isComplement, none, .empty, true⟩

/-- Adds members. -/
def add (set : OpenSet) (members : CharSet) : OpenSet :=
  { set with members := .union set.members members, isFresh := false }

/-- What the operations so far give. -/
def value (set : OpenSet) : CharSet :=
  match set.left with
  | none => set.members
  | some (left, operation) => operation.apply left set.members

/-- Begins the right side of an operation. -/
def operate (set : OpenSet) (operation : SetOperation) : OpenSet :=
  { set with left := some (set.value, operation), members := .empty, isFresh := false }

/-- The set that ends. -/
def close (set : OpenSet) : CharSet :=
  if set.isComplement then .complement set.value else set.value

end OpenSet

/-- The classes that may stand in a set as `[:name:]`. -/
def namedClasses : List (String × CharSet) :=
  [("alnum", .union .digit .letter), ("alpha", .letter), ("ascii", .range '\x00' '\x7f'),
   ("blank", .union (.single ' ') (.single '\t')), ("cntrl", .control), ("digit", .digit),
   ("graph", .range '!' '~'), ("lower", .range 'a' 'z'), ("print", .range ' ' '~'),
   ("punct", .sign), ("space", .space), ("upper", .range 'A' 'Z'), ("word", .word),
   ("xdigit", .union .digit (.union (.range 'a' 'f') (.range 'A' 'F')))]

/-- The class that is named behind an opening bracket, and the number of its signs. -/
def namedClass? : List Sign → Option (CharSet × Nat)
  | .plain ':' :: rest => do
    let (text, _) ← Sign.before? (· == ':') rest
    guard ((rest.drop text.length)[1]? = some (.plain ']'))
    match text with
    | '^' :: name => return (.complement (← namedClasses.lookup (String.ofList name)),
        text.length + 3)
    | name => return (← namedClasses.lookup (String.ofList name), text.length + 3)
  | _ => none

/-! ### Reading -/

/-- What is read of a pattern: the innermost open group, the groups around it, the sets that are
open, the innermost first, and the names of groups. -/
structure Reading where
  frame : Frame
  outer : List Frame
  sets : List OpenSet
  names : List (List Char)

namespace Reading

/-- The reading of nothing. -/
def new : Reading :=
  ⟨.new .standard, [], [], []⟩

/-- Adds a part to the innermost group. -/
def push (reading : Reading) (part : Pattern) : Reading :=
  { reading with frame := reading.frame.push part }

/-- Opens a group. -/
def opened (reading : Reading) (flags : Flags) : Reading :=
  { reading with frame := .new flags, outer := reading.frame :: reading.outer }

/-- Closes a group. -/
def closed? (reading : Reading) : Option Reading :=
  match reading.outer with
  | [] => none
  | around :: outer =>
    some { reading with frame := around.push reading.frame.pattern, outer }

/-- Opens a set; a caret in front of its members makes it a complement. -/
def openedSet (reading : Reading) (rest : List Sign) : Reading × Nat :=
  let isComplement := rest.head? = some (.plain '^')
  ({ reading with sets := .new isComplement :: reading.sets }, if isComplement then 1 else 0)

/-- Whether a text may be the name of a group. -/
def isName : List Char → Bool
  | [] => false
  | first :: rest =>
    (first == '_' || (Alphanumeric.isAlphanumeric first && !first.isDigit)) &&
      rest.all fun c => Alphanumeric.isAlphanumeric c || ['_', '.', '[', ']'].contains c

/-- Opens a group with a name that stands behind some signs. -/
def named? (reading : Reading) (count : Nat) (rest : List Sign) : Option (Reading × Nat) := do
  let (name, _) ← Sign.before? (· == '>') rest
  if isName name && !reading.names.contains name then
    return ({ reading.opened reading.frame.flags with names := name :: reading.names },
      count + name.length + 1)
  else none

/-- Reads flags, and opens the group that they are for if there is one. -/
def flagged? (reading : Reading) (rest : List Sign) : Option (Reading × Nat) := do
  let (letters, mark) ← Sign.before? (fun c => c == ':' || c == ')') rest
  let flags ← reading.frame.flags.change? letters
  if mark = ':' then return (reading.opened flags, letters.length + 2)
  else if letters = [] then none
  else
    return ({ reading with frame := { reading.frame with flags, isRepeatable := false } },
      letters.length + 2)

/-- Reads what follows an opening parenthesis. -/
def group? (reading : Reading) : List Sign → Option (Reading × Nat)
  | .plain '?' :: .plain 'P' :: .plain '<' :: rest => reading.named? 3 rest
  | .plain '?' :: .plain '<' :: rest => reading.named? 2 rest
  | .plain '?' :: rest => reading.flagged? rest
  | _ => some (reading.opened reading.frame.flags, 0)

/-- Reads a repetition, which is given as a function of its greed. -/
def repeat? (reading : Reading) (repetition : Bool → Pattern → Pattern) (rest : List Sign) :
    Option (Reading × Nat) := do
  let isMarked := rest.head? = some (.plain '?')
  let frame ← reading.frame.repeat? (repetition (isMarked == reading.frame.flags.swapsGreed))
  return ({ reading with frame }, if isMarked then 1 else 0)

/-- Reads a sign outside sets. -/
def outsideStep? (reading : Reading) (sign : Sign) (rest : List Sign) : Option (Reading × Nat) :=
  let flags := reading.frame.flags
  let pushed (part : Option Pattern) := part.map fun part => (reading.push part, 0)
  match sign with
  | .plain '(' => reading.group? rest
  | .plain ')' => reading.closed?.map (·, 0)
  | .plain '[' => some (reading.openedSet rest)
  | .plain '|' => some ({ reading with frame := reading.frame.next }, 0)
  | .plain '*' => reading.repeat? anyNumber rest
  | .plain '+' => reading.repeat? repeated rest
  | .plain '?' => reading.repeat? optional rest
  | .plain '\x7b' => none
  | .plain '^' => pushed (flags.anchor? .start)
  | .plain '$' => pushed (flags.anchor? .finish)
  | .plain '.' => pushed (flags.one? .visible)
  | .plain c => pushed (some (one (if flags.ignoresCase then .caseless (.single c) else .single c)))
  | .literal c => pushed (flags.one? (.single c))
  | .charClass set => pushed (flags.one? set)
  | .category set => if flags.forCodePoints then pushed (flags.one? set) else none
  | .anchor property => pushed (flags.anchor? property)

/-- Closes the innermost set, which becomes a member of the set around it or a part of the
pattern. -/
def closedSet? (reading : Reading) (set : OpenSet) (around : List OpenSet) : Option Reading :=
  match around with
  | [] =>
    (reading.frame.flags.one? set.close).map fun part => { reading with sets := [] }.push part
  | outer :: around => some { reading with sets := outer.add set.close :: around }

/-- Reads members of a set: those of one sign, or a range. -/
def members? (reading : Reading) (set : OpenSet) (sign : Sign) (rest : List Sign) :
    Option (OpenSet × Nat) :=
  let single := (sign.members? reading.frame.flags.forCodePoints).map fun members =>
    (set.add members, 0)
  match rest with
  | .plain '-' :: .plain ']' :: _ | .plain '-' :: .plain '-' :: _ => single
  | .plain '-' :: last :: _ => do
    let low ← sign.char?
    let high ← last.char?
    if low ≤ high then return (set.add (.range low high), 2) else none
  | _ => single

/-- Reads a sign in a set. -/
def insideStep? (reading : Reading) (set : OpenSet) (around : List OpenSet) (sign : Sign)
    (rest : List Sign) : Option (Reading × Nat) :=
  let changed (set : OpenSet) (count : Nat) := some ({ reading with sets := set :: around }, count)
  match sign, rest with
  | .plain ']', _ =>
    if set.isFresh && set.members = .empty then changed (set.add (.single ']')) 0
    else (reading.closedSet? set around).map (·, 0)
  | .plain '[', _ =>
    match namedClass? rest with
    | some (members, count) => changed (set.add members) count
    | none => some (reading.openedSet rest)
  | .plain '&', .plain '&' :: _ => changed (set.operate .intersection) 1
  | .plain '~', .plain '~' :: _ => changed (set.operate .symmetricDifference) 1
  | .plain '-', .plain '-' :: _ =>
    if set.isFresh then changed { set.add (.single '-') with isFresh := true } 0
    else changed (set.operate .difference) 1
  | _, _ => (reading.members? set sign rest).bind fun (set, count) => changed set count

/-- Reads a sign and says how many of the signs behind it belong to it. -/
def step? (reading : Reading) (sign : Sign) (rest : List Sign) : Option (Reading × Nat) :=
  match reading.frame.flags.behindSkipped? sign, reading.sets with
  | some flags, _ => some ({ reading with frame := { reading.frame with flags } }, 0)
  | none, [] => reading.outsideStep? sign rest
  | none, set :: around => reading.insideStep? set around sign rest

/-- The pattern that is read, if nothing is open. -/
def finished? (reading : Reading) : Option Pattern :=
  if reading.sets.isEmpty && reading.outer.isEmpty then some reading.frame.pattern else none

/-- Reads signs, of which the first ones are skipped. -/
def run? (reading : Reading) (skipped : Nat) : List Sign → Option Pattern
  | [] => reading.finished?
  | sign :: rest =>
    match skipped with
    | count + 1 => reading.run? count rest
    | 0 => do
      let (reading, count) ← reading.step? sign rest
      reading.run? count rest

end Reading

/-- The pattern that a text denotes. -/
def ofChars? (text : List Char) : Option Pattern := do
  Reading.new.run? 0 (← Sign.ofChars? text)

end PieceReplication.Pattern
