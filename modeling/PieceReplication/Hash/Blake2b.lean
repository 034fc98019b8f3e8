import PieceReplication.Encoding.Radix

/-!
# The BLAKE2b hash

`Blake2b.digest` hashes a byte string without a key to at most 64 bytes. The input is cut into
blocks of 128 bytes, the last one padded with zeros; each block is folded into a state of eight
words by twelve rounds of mixing. The first word of the initial state is the only one that
depends on the length of the digest.
-/

namespace PieceReplication.Blake2b

/-- The first eight words of the fractional parts of the square roots of the first primes. -/
def initial : Vector UInt64 8 :=
  #v[0x6a09e667f3bcc908, 0xbb67ae8584caa73b, 0x3c6ef372fe94f82b, 0xa54ff53a5f1d36f1,
     0x510e527fade682d1, 0x9b05688c2b3e6c1f, 0x1f83d9abfb41bd6b, 0x5be0cd19137e2179]

/-- The order in which a round takes the words of the block. -/
def orders : List (Vector (Fin 16) 16) :=
  [#v[0, 1, 2, 3, 4, 5, 6, 7, 8, 9, 10, 11, 12, 13, 14, 15],
   #v[14, 10, 4, 8, 9, 15, 13, 6, 1, 12, 0, 2, 11, 7, 5, 3],
   #v[11, 8, 12, 0, 5, 2, 15, 13, 10, 14, 3, 6, 7, 1, 9, 4],
   #v[7, 9, 3, 1, 13, 12, 11, 14, 2, 6, 5, 10, 4, 0, 15, 8],
   #v[9, 0, 5, 7, 2, 4, 10, 15, 14, 1, 11, 12, 6, 8, 3, 13],
   #v[2, 12, 6, 10, 0, 11, 8, 3, 4, 13, 7, 5, 15, 14, 1, 9],
   #v[12, 5, 1, 15, 14, 13, 4, 10, 0, 7, 6, 3, 9, 2, 8, 11],
   #v[13, 11, 7, 14, 12, 1, 3, 9, 5, 0, 15, 4, 8, 6, 2, 10],
   #v[6, 15, 14, 9, 11, 3, 0, 8, 12, 2, 13, 7, 1, 4, 10, 5],
   #v[10, 2, 8, 4, 7, 6, 1, 5, 15, 11, 9, 14, 3, 12, 13, 0]]

/-- The orders of the twelve rounds: all ten, then the first two again. -/
def rounds : List (Vector (Fin 16) 16) :=
  orders ++ orders.take 2

/-- The word rotated right by `n` bits, for `n` from 1 to 63. -/
def rotateRight (word n : UInt64) : UInt64 :=
  (word >>> n) ||| (word <<< (64 - n))

/-- Mixes two words of the block into four words of the working state. -/
def mix (v : Vector UInt64 16) (a b c d : Fin 16) (x y : UInt64) : Vector UInt64 16 :=
  let v := v.set a (v[a] + v[b] + x)
  let v := v.set d (rotateRight (v[d] ^^^ v[a]) 32)
  let v := v.set c (v[c] + v[d])
  let v := v.set b (rotateRight (v[b] ^^^ v[c]) 24)
  let v := v.set a (v[a] + v[b] + y)
  let v := v.set d (rotateRight (v[d] ^^^ v[a]) 16)
  let v := v.set c (v[c] + v[d])
  v.set b (rotateRight (v[b] ^^^ v[c]) 63)

/-- One round: the four columns of the working state, then its four diagonals. -/
def round (block : Vector UInt64 16) (v : Vector UInt64 16) (order : Vector (Fin 16) 16) :
    Vector UInt64 16 :=
  let v := mix v 0 4 8 12 block[order[0]] block[order[1]]
  let v := mix v 1 5 9 13 block[order[2]] block[order[3]]
  let v := mix v 2 6 10 14 block[order[4]] block[order[5]]
  let v := mix v 3 7 11 15 block[order[6]] block[order[7]]
  let v := mix v 0 5 10 15 block[order[8]] block[order[9]]
  let v := mix v 1 6 11 12 block[order[10]] block[order[11]]
  let v := mix v 2 7 8 13 block[order[12]] block[order[13]]
  mix v 3 4 9 14 block[order[14]] block[order[15]]

/-- The state after a block. `seen` counts the bytes of the input up to the end of the block, and
`last` marks the last block. -/
def compress (state : Vector UInt64 8) (block : Vector UInt64 16) (seen : Nat) (last : Bool) :
    Vector UInt64 8 :=
  let v := state ++ initial
  let v := v.set 12 (v[12] ^^^ UInt64.ofNat seen)
  let v := v.set 13 (v[13] ^^^ UInt64.ofNat (seen / UInt64.size))
  let v := if last then v.set 14 (v[14] ^^^ 0xffffffffffffffff) else v
  let v := rounds.foldl (round block) v
  Vector.ofFn fun i : Fin 8 => state[i] ^^^ v[i.val] ^^^ v[i.val + 8]

/-- The block that starts at byte `128 * index`, its words little-endian. -/
def blockAt (input : Bytes) (index : Nat) : Vector UInt64 16 :=
  Vector.ofFn fun i : Fin 16 =>
    let word := (input.drop (128 * index + 8 * i.val)).take 8
    UInt64.ofNat (Radix.ofBytes (word ++ List.replicate (8 - word.length) 0).reverse)

/-- The digest of `length` bytes, for a length from 1 to 64. -/
def digest (length : Nat) (input : Bytes) : Bytes :=
  let count := max 1 ((input.length + 127) / 128)
  let start := initial.set 0 (initial[0] ^^^ (0x01010000 ||| UInt64.ofNat length))
  let final := (List.range count).foldl (fun state index =>
    compress state (blockAt input index) (min (128 * (index + 1)) input.length)
      (index + 1 == count)) start
  (final.toList.flatMap fun word => (Radix.toBytes 8 word.toNat).reverse).take length

end PieceReplication.Blake2b
