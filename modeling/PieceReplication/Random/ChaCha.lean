/-!
# The ChaCha stream

`ChaCha.word key i` is word `i` of the endless stream of 32-bit words that a key of eight words
gives: sixteen words a block, the block counter starting at zero and the nonce all zero. A block is
the initial state plus the state after ten double rounds.
-/

namespace PieceReplication.ChaCha

/-- Four words, side by side. -/
structure Row where
  first : UInt32
  second : UInt32
  third : UInt32
  fourth : UInt32

namespace Row

/-- Changes each word. -/
def map (f : UInt32 → UInt32) (row : Row) : Row :=
  ⟨f row.first, f row.second, f row.third, f row.fourth⟩

/-- Joins the words of two rows, each with the one in its place. -/
def zip (f : UInt32 → UInt32 → UInt32) (row other : Row) : Row :=
  ⟨f row.first other.first, f row.second other.second, f row.third other.third,
    f row.fourth other.fourth⟩

/-- Moves each word to the place before it, the first one to the end. -/
def shift (row : Row) : Row :=
  ⟨row.second, row.third, row.fourth, row.first⟩

end Row

/-- A key of 256 bits. -/
structure Key where
  low : Row
  high : Row

/-- The state: sixteen words in four rows. -/
structure State where
  a : Row
  b : Row
  c : Row
  d : Row

/-- The word rotated left by `n` bits, for `n` from 1 to 31. -/
def rotateLeft (n word : UInt32) : UInt32 :=
  (word <<< n) ||| (word >>> (32 - n))

/-- Stirs the four words of each column of the state. -/
def stir (s : State) : State :=
  let a := s.a.zip (· + ·) s.b
  let d := (s.d.zip (· ^^^ ·) a).map (rotateLeft 16)
  let c := s.c.zip (· + ·) d
  let b := (s.b.zip (· ^^^ ·) c).map (rotateLeft 12)
  let a := a.zip (· + ·) b
  let d := (d.zip (· ^^^ ·) a).map (rotateLeft 8)
  let c := c.zip (· + ·) d
  ⟨a, (b.zip (· ^^^ ·) c).map (rotateLeft 7), c, d⟩

/-- Stirs the four columns and then the four diagonals of the state, which are columns once the
rows are shifted against each other. -/
def doubleRound (s : State) : State :=
  let s := stir s
  let s := stir ⟨s.a, s.b.shift, s.c.shift.shift, s.d.shift.shift.shift⟩
  ⟨s.a, s.b.shift.shift.shift, s.c.shift.shift, s.d.shift⟩

/-- The state of a block before the rounds: four constants, the key, the counter in two words and
the nonce. -/
def initialState (key : Key) (counter : Nat) : State where
  a := ⟨0x61707865, 0x3320646e, 0x79622d32, 0x6b206574⟩
  b := key.low
  c := key.high
  d := ⟨UInt32.ofNat counter, UInt32.ofNat (counter / UInt32.size), 0, 0⟩

/-- Block number `counter`. -/
def block (key : Key) (counter : Nat) : State :=
  let start := initialState key counter
  let final := Nat.repeat doubleRound 10 start
  ⟨start.a.zip (· + ·) final.a, start.b.zip (· + ·) final.b, start.c.zip (· + ·) final.c,
    start.d.zip (· + ·) final.d⟩

/-- The words of a state, row by row. -/
def State.words (s : State) : Vector UInt32 16 :=
  #v[s.a.first, s.a.second, s.a.third, s.a.fourth,
     s.b.first, s.b.second, s.b.third, s.b.fourth,
     s.c.first, s.c.second, s.c.third, s.c.fourth,
     s.d.first, s.d.second, s.d.third, s.d.fourth]

/-- Word number `i` of the stream. -/
def word (key : Key) (i : Nat) : UInt32 :=
  (block key (i / 16)).words.get ⟨i % 16, Nat.mod_lt i (by decide)⟩

end PieceReplication.ChaCha
