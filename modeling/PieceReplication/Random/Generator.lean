import PieceReplication.Encoding.Radix
import PieceReplication.Random.ChaCha
import PieceReplication.Text.Integer

/-!
# Seeded choice

A draw `v` of `width` bits is turned into a choice among `n` by the product `v * n`: its high half
is the choice, and the draw counts only if its low half is in the zone `Uniform.zone width n`, the
largest multiple of a power of two that leaves each choice equally many draws.

`Generator.ofSeed` expands a 64-bit seed to a ChaCha key, eight words of a permuted congruential
sequence. A generator is a key and the number of stream words already taken; each draw takes words
in order and never puts any back.

Each choice of a provider is made by a fresh generator of the fixed seed, so equal choices have
equal results. Where no seed is fixed, or its text is unreadable, any seed is as good as another,
and zero is taken.
-/

namespace PieceReplication

namespace Uniform

/-- How often `n` can be doubled below `2 ^ width`, for `n` from 1 on. -/
def leadingZeros (width n : Nat) : Nat :=
  width - (n.log2 + 1)

/-- The largest low half that counts. -/
def zone (width n : Nat) : Nat :=
  (n <<< leadingZeros width n) - 1

/-- The choice among `n` that a draw makes, if the draw counts. -/
def choice? (width n draw : Nat) : Option Nat :=
  if draw * n % (1 <<< width) ≤ zone width n then some ((draw * n) >>> width) else none

/-- The choice of a draw is one of the `n`. -/
theorem lt_of_choice? {width n draw i : Nat} (hdraw : draw < 1 <<< width) (hn : 0 < n)
    (h : choice? width n draw = some i) : i < n := by
  unfold choice? at h
  split at h
  · cases h
    rw [Nat.shiftRight_eq_div_pow]
    rw [Nat.one_shiftLeft] at hdraw
    exact Nat.div_lt_of_lt_mul ((Nat.mul_lt_mul_right hn).2 hdraw)
  · cases h

end Uniform

/-- A position in the stream of a key. -/
structure Generator where
  key : ChaCha.Key
  /-- How many words of the stream have been taken. -/
  taken : Nat

namespace Generator

/-- The next state of the congruential sequence. -/
def nextState (state : UInt64) : UInt64 :=
  state * 6364136223846793005 + 11634580027462260723

/-- The word that a state of the congruential sequence stands for. -/
def permute (state : UInt64) : UInt32 :=
  let folded := (((state >>> 18) ^^^ state) >>> 27).toUInt32
  let turn := (state >>> 59).toUInt32
  (folded >>> turn) ||| (folded <<< ((32 - turn) % 32))

/-- The generator of a seed, at the start of its stream. -/
def ofSeed (seed : UInt64) : Generator :=
  let word i := permute (Nat.repeat nextState i seed)
  ⟨⟨⟨word 1, word 2, word 3, word 4⟩, ⟨word 5, word 6, word 7, word 8⟩⟩, 0⟩

/-- Takes one word. -/
def next32 (g : Generator) : UInt32 × Generator :=
  (ChaCha.word g.key g.taken, { g with taken := g.taken + 1 })

/-- Takes two words, the low one first. -/
def next64 (g : Generator) : UInt64 × Generator :=
  let (low, g) := g.next32
  let (high, g) := g.next32
  (low.toUInt64 ||| (high.toUInt64 <<< 32), g)

/-- Takes as many words as `count` bytes need, each little-endian. What is left of the last word
is lost. -/
def fill (count : Nat) (g : Generator) : Bytes × Generator :=
  let words := (count + 3) / 4
  let bytes := (List.range words).flatMap fun i =>
    (Radix.toBytes 4 (ChaCha.word g.key (g.taken + i)).toNat).reverse
  (bytes.take count, { g with taken := g.taken + words })

/-- The number of words after which the stream repeats. -/
def period : Nat :=
  16 * UInt64.size

/-- The first choice among `n` that a draw of 64 bits makes, within `fuel` draws. -/
def choose64? (n : Nat) (hn : 0 < n) : (fuel : Nat) → Generator → Option (Fin n × Generator)
  | 0, _ => none
  | fuel + 1, g =>
    let (draw, g) := g.next64
    match h : Uniform.choice? 64 n draw.toNat with
    | some i => some (⟨i, Uniform.lt_of_choice? draw.toNat_lt hn h⟩, g)
    | none => choose64? n hn fuel g

/-- The first choice among `n` that a draw of 32 bits makes, within `fuel` draws. -/
def choose32? (n : Nat) (hn : 0 < n) : (fuel : Nat) → Generator → Option (Fin n × Generator)
  | 0, _ => none
  | fuel + 1, g =>
    let (draw, g) := g.next32
    match h : Uniform.choice? 32 n draw.toNat with
    | some i => some (⟨i, Uniform.lt_of_choice? draw.toNat_lt hn h⟩, g)
    | none => choose32? n hn fuel g

/-- Chooses among `n` by draws of 64 bits. Some draw of the stream is taken; if none were, the
first choice would be. -/
def range64 (n : Nat) (hn : 0 < n) (g : Generator) : Fin n × Generator :=
  (choose64? n hn period g).getD (⟨0, hn⟩, g)

/-- Chooses among `n` by draws of 32 bits. -/
def range32 (n : Nat) (hn : 0 < n) (g : Generator) : Fin n × Generator :=
  (choose32? n hn period g).getD (⟨0, hn⟩, g)

end Generator

/-- The seed that a text fixes. -/
def fixedSeed (text : Option String) : UInt64 :=
  (text.bind Integer.uint64?).getD 0

/-- The choice among `n` candidates under the text of a fixed seed. -/
def chooseProvider (text : Option String) (n : Nat) (pos : 0 < n) : Fin n :=
  ((Generator.ofSeed (fixedSeed text)).range64 n pos).1

end PieceReplication
