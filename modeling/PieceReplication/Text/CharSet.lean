/-!
# Sets of characters

A set is given by how it is made up of ranges, so that sets can be compared. The named classes of
characters are those of ASCII, which the texts to match are written in.
-/

namespace PieceReplication

/-- A set of characters. -/
inductive CharSet where
  | empty
  /-- The characters from one to another, both included. -/
  | range (low high : Char)
  | union (first second : CharSet)
  | complement (set : CharSet)
  /-- The ASCII characters that are in a set if case does not matter. -/
  | caseless (set : CharSet)
  deriving DecidableEq

namespace CharSet

/-- The characters that differ from a character in case only, and the character itself. The letters
`k` and `s` have a third form each, the sign of the kelvin and the long s. -/
def variants (c : Char) : List Char :=
  [c, c.toLower, c.toUpper] ++
    (if c.toLower = 'k' then ['\u212a'] else if c.toLower = 's' then ['\u017f'] else [])

/-- Whether a character is in a set. -/
def contains : CharSet → Char → Bool
  | empty, _ => false
  | range low high, c => low ≤ c && c ≤ high
  | union first second, c => first.contains c || second.contains c
  | complement set, c => !set.contains c
  | caseless set, c => (variants c).any set.contains

/-- The set of one character. -/
def single (c : Char) : CharSet :=
  range c c

/-- The characters that are in both of two sets. -/
def intersection (first second : CharSet) : CharSet :=
  complement (union (complement first) (complement second))

/-- The characters that are in the first of two sets only. -/
def difference (first second : CharSet) : CharSet :=
  intersection first (complement second)

/-- The characters that are in one of two sets only. -/
def symmetricDifference (first second : CharSet) : CharSet :=
  union (difference first second) (difference second first)

/-- The set that a set becomes when the case of letters is ignored. It is the ranges that grow, so
the complement of a set shrinks. -/
def ignoreCase : CharSet → CharSet
  | union first second => union first.ignoreCase second.ignoreCase
  | complement set => complement set.ignoreCase
  | set => caseless set

/-- Whether a set is made up of ranges of ASCII characters. Either no other character is in it
then, or every other one is. -/
def isOfAscii : CharSet → Bool
  | empty => true
  | range _ high => high.toNat < 0x80
  | union first second => first.isOfAscii && second.isOfAscii
  | complement set | caseless set => set.isOfAscii

/-! ### Sets with a name -/

/-- All characters. -/
def all : CharSet :=
  complement empty

/-- All characters but the line feed. -/
def visible : CharSet :=
  complement (single '\n')

/-- The decimal digits. -/
def digit : CharSet :=
  range '0' '9'

/-- The letters. -/
def letter : CharSet :=
  union (range 'a' 'z') (range 'A' 'Z')

/-- The characters of words: letters, digits and the low line. -/
def word : CharSet :=
  union digit (union letter (single '_'))

/-- White space. -/
def space : CharSet :=
  union (range '\t' '\r') (single ' ')

/-- Control characters. -/
def control : CharSet :=
  union (range '\x00' '\x1f') (single '\x7f')

/-- Characters that are neither control characters, nor the space, nor letters or digits. -/
def sign : CharSet :=
  difference (range '!' '~') (union digit letter)

/-- Signs that are symbols and not punctuation. -/
def symbol : CharSet :=
  union (union (single '$') (single '+')) <|
    union (range '<' '>') <| union (single '^') <| union (single '\x60') <|
      union (single '|') (single '~')

/-- A set of one character holds that character only. -/
@[simp] theorem contains_single {c d : Char} : (single c).contains d = decide (c = d) := by
  rw [single, contains, ← Bool.decide_and, decide_eq_decide]
  exact ⟨fun h => Char.le_antisymm h.1 h.2, fun h => h ▸ ⟨Char.le_refl c, Char.le_refl c⟩⟩

/-- An intersection holds what both sets hold. -/
@[simp] theorem contains_intersection {first second : CharSet} {c : Char} :
    (intersection first second).contains c = (first.contains c && second.contains c) := by
  simp [intersection, contains]

/-- A difference holds what the first set holds and the second one does not. -/
@[simp] theorem contains_difference {first second : CharSet} {c : Char} :
    (difference first second).contains c = (first.contains c && !second.contains c) := by
  rw [difference, contains_intersection, contains]

end CharSet

end PieceReplication
