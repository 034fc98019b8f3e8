import PieceReplication.Encoding.Radix

/-!
# Binary items

The part of the concise binary object representation that message parameters use: arrays of a
given length, unsigned integers and byte strings. An item starts with a head: one byte that holds
the item's kind in its three high bits, and either a small argument in its low bits or the width
of the big-endian argument that follows, one, two, four or eight bytes.

Reading accepts an argument of any width. It also accepts a head whose kind bits are all zero in
place of a head of any kind. A byte string is definite (its head gives its length) or indefinite:
the byte `0x5f`, any number of byte strings of either form, and the byte `0xff`; its content is the
concatenation. A byte string lies in at most `maxDepth` indefinite ones. Writing uses heads of the
right kind, the narrowest ones, and definite strings only.
-/

namespace PieceReplication.Cbor

/-- The kind of an unsigned integer. -/
def unsignedKind : Nat := 0

/-- The kind of a byte string. -/
def bytesKind : Nat := 2

/-- The kind of an array. -/
def arrayKind : Nat := 4

/-- The byte that opens an indefinite byte string. -/
def openByte : UInt8 := 0x5f

/-- The byte that closes an indefinite byte string. -/
def breakByte : UInt8 := 0xff

/-- How many indefinite byte strings a byte string may lie in. -/
def maxDepth : Nat := 255

/-- Takes exactly `count` bytes off the front. -/
def split? (count : Nat) (input : Bytes) : Option (Bytes × Bytes) :=
  if count ≤ input.length then some (input.take count, input.drop count) else none

/-- How many bytes hold the argument of a head whose low bits are `low`. Low bits below 24 are the
argument itself; from 28 on they announce no argument. -/
def argumentWidth? (low : Nat) : Option Nat :=
  if low < 24 then some 0
  else if low < 28 then some (1 <<< (low - 24))
  else none

/-- Whether a byte opens a head that passes for one of the given kind: its kind bits are those of
the kind or all zero. -/
def opensHead (kind : Nat) (first : UInt8) : Bool :=
  first.toNat / 32 == kind || first.toNat / 32 == 0

/-- Reads a head that passes for one of the given kind: its argument and the rest of the input. A
head without an argument, as that of an indefinite item, is refused. -/
def head? (kind : Nat) : Bytes → Option (Nat × Bytes)
  | [] => none
  | first :: rest =>
    if opensHead kind first then do
      let low := first.toNat % 32
      let width ← argumentWidth? low
      let (argument, rest) ← split? width rest
      return (if width = 0 then low else Radix.ofBytes argument, rest)
    else none

/-- Reads a definite byte string: its content and the rest of the input. -/
def definiteBytes? (input : Bytes) : Option (Bytes × Bytes) := do
  let (length, rest) ← head? bytesKind input
  split? length rest

theorem length_of_split? {count : Nat} {input front rest : Bytes}
    (h : split? count input = some (front, rest)) : rest.length ≤ input.length := by
  unfold split? at h
  split at h
  · cases h
    simp
  · cases h

theorem length_of_head? {kind argument : Nat} {input rest : Bytes}
    (h : head? kind input = some (argument, rest)) : rest.length < input.length := by
  cases input with
  | nil => cases h
  | cons first tail =>
    simp only [head?] at h
    split at h
    · obtain ⟨width, _, h⟩ := Option.bind_eq_some_iff.1 h
      obtain ⟨⟨front, back⟩, hsplit, h⟩ := Option.bind_eq_some_iff.1 h
      have hle := length_of_split? hsplit
      cases h
      simp only [List.length_cons]
      omega
    · cases h

theorem length_of_definiteBytes? {input content rest : Bytes}
    (h : definiteBytes? input = some (content, rest)) : rest.length < input.length := by
  obtain ⟨⟨length, tail⟩, hhead, hsplit⟩ := Option.bind_eq_some_iff.1 h
  have hlt := length_of_head? hhead
  have hle := length_of_split? hsplit
  omega

/-- Reads what is left of `depth` nested indefinite byte strings: their content, concatenated, and
the rest of the input after the last of them is closed. No byte string begins where more than
`maxDepth` are open. -/
def chunks? : (depth : Nat) → (input : Bytes) → Option (Bytes × Bytes)
  | 0, input => some ([], input)
  | _ + 1, [] => none
  | depth + 1, first :: rest =>
    if first = breakByte then chunks? depth rest
    else if maxDepth < depth + 1 then none
    else if first = openByte then chunks? (depth + 2) rest
    else
      match h : definiteBytes? (first :: rest) with
      | none => none
      | some (content, rest') =>
        have := length_of_definiteBytes? h
        match chunks? (depth + 1) rest' with
        | none => none
        | some (more, rest'') => some (content ++ more, rest'')
termination_by _ input => input.length
decreasing_by
  all_goals simp only [List.length_cons] at *
  all_goals omega

/-- Reads a byte string of either form: its content and the rest of the input. -/
def bytes? : Bytes → Option (Bytes × Bytes)
  | [] => none
  | first :: rest =>
    if first = openByte then chunks? 1 rest else definiteBytes? (first :: rest)

/-- The narrowest head of an item of the given kind with the given argument, which is below
`2 ^ 64`. -/
def head (kind argument : Nat) : Bytes :=
  if argument < 24 then [UInt8.ofNat (32 * kind + argument)]
  else if argument < UInt8.size then UInt8.ofNat (32 * kind + 24) :: Radix.toBytes 1 argument
  else if argument < UInt16.size then UInt8.ofNat (32 * kind + 25) :: Radix.toBytes 2 argument
  else if argument < UInt32.size then UInt8.ofNat (32 * kind + 26) :: Radix.toBytes 4 argument
  else UInt8.ofNat (32 * kind + 27) :: Radix.toBytes 8 argument

end PieceReplication.Cbor
