import Mathlib.Algebra.Group.Nat.Defs
import Mathlib.Tactic.Common
import PieceReplication.Encoding.Cbor
import PieceReplication.Proofs.Encoding.Numerals

/-!
# Heads

A head is spelled in one of five widths.  This module gives the spellings as data: a `Head` has a
kind, a width and an argument that the width has room for, and `Head.bytes` writes it down.  Reading
is then characterised from both sides.  What `head?` takes off the front of an input is always
spelled by a head that passes for the kind asked for, and every such head is read, whatever stands
after it.  Two spellings that begin one input are the same, because the first byte tells the width.

`Cbor.head` is the spelling of the least width.
-/

namespace PieceReplication.Cbor

/-- Where a head keeps its argument: in its first byte, or in so many bytes after that. -/
inductive Width
  | within
  | one
  | two
  | four
  | eight

namespace Width

/-- The number of bytes after the first one. -/
def size : Width → Nat
  | within => 0
  | one => 1
  | two => 2
  | four => 4
  | eight => 8

/-- There is room for the arguments below this one. -/
def bound : Width → Nat
  | within => 24
  | one => UInt8.size
  | two => UInt16.size
  | four => UInt32.size
  | eight => UInt64.size

/-- The low bits of the first byte of a head with the given argument. -/
def lowBits (argument : Nat) : Width → Nat
  | within => argument
  | one => 24
  | two => 25
  | four => 26
  | eight => 27

/-- The least width that has room for an argument. -/
def narrowest (argument : Nat) : Width :=
  if argument < 24 then within
  else if argument < UInt8.size then one
  else if argument < UInt16.size then two
  else if argument < UInt32.size then four
  else eight

end Width

/-- The spelling of a head. -/
@[ext]
structure Head where
  kind : Nat
  width : Width
  argument : Nat
  kind_lt : kind < 8
  fits : argument < width.bound

namespace Head

/-- The bytes of a head. -/
def bytes (h : Head) : Bytes :=
  UInt8.ofNat (32 * h.kind + h.width.lowBits h.argument) :: Radix.toBytes h.width.size h.argument

/-- A head stands for one of the given kind if it has that kind or kind zero. -/
def PassesFor (kind : Nat) (h : Head) : Prop :=
  h.kind = kind ∨ h.kind = 0

/-- No smaller width has room for the argument. -/
def IsNarrowest (h : Head) : Prop :=
  ∀ width : Width, h.argument < width.bound → h.width.size ≤ width.size

end Head

variable {kind argument low count : Nat} {width width' : Width} {h h' : Head}
  {front input rest rest' : Bytes}

/-! ## Widths -/

/-- Low bits that announce an argument are below those that announce none. -/
lemma Width.lowBits_lt (hfits : argument < width.bound) : width.lowBits argument < 28 := by
  cases width <;> simp only [lowBits, bound] at * <;> omega

/-- The low bits tell the width, and the argument if it stands among them. -/
lemma Width.eq_of_lowBits_eq {argument' : Nat} (hfits : argument < width.bound)
    (hfits' : argument' < width'.bound)
    (heq : width.lowBits argument = width'.lowBits argument') :
    width = width' ∧ (width = .within → argument = argument') := by
  cases width <;> cases width' <;> simp [lowBits, bound] at * <;> omega

/-- A wider head has room for each number that so many bytes denote. -/
lemma Width.bound_eq_pow (hne : width ≠ .within) : width.bound = 256 ^ width.size := by
  cases width <;> first | exact absurd rfl hne | rfl

/-- A wider head has bytes after the first one. -/
lemma Width.size_ne_zero (hne : width ≠ .within) : width.size ≠ 0 := by
  cases width <;> first | exact absurd rfl hne | exact Nat.succ_ne_zero _

/-- The reader finds the width in the low bits. -/
lemma argumentWidth?_lowBits (hfits : argument < width.bound) :
    argumentWidth? (width.lowBits argument) = some width.size := by
  cases width with
  | within => exact if_pos hfits
  | one | two | four | eight => rfl

/-- Low bits in which the reader finds a width are those of a head. -/
lemma exists_width_of_argumentWidth? (hcount : argumentWidth? low = some count) :
    low < 24 ∧ count = 0 ∨
      ∃ width : Width, width ≠ .within ∧ width.size = count ∧ ∀ n, width.lowBits n = low := by
  unfold argumentWidth? at hcount
  split at hcount
  · exact .inl ⟨‹_›, (Option.some.inj hcount).symm⟩
  · split at hcount
    · have hlow : low = 24 ∨ low = 25 ∨ low = 26 ∨ low = 27 := by omega
      cases hcount
      right
      rcases hlow with rfl | rfl | rfl | rfl
      · exact ⟨.one, by rintro ⟨⟩, rfl, fun _ => rfl⟩
      · exact ⟨.two, by rintro ⟨⟩, rfl, fun _ => rfl⟩
      · exact ⟨.four, by rintro ⟨⟩, rfl, fun _ => rfl⟩
      · exact ⟨.eight, by rintro ⟨⟩, rfl, fun _ => rfl⟩
    · cases hcount

/-- There is room in the least width. -/
lemma Width.lt_bound_narrowest (hlt : argument < UInt64.size) :
    argument < (narrowest argument).bound := by
  unfold narrowest
  split_ifs <;> assumption

/-- The least width is none greater than any other with room. -/
lemma Width.size_narrowest_le (hfits : argument < width.bound) :
    (narrowest argument).size ≤ width.size := by
  unfold narrowest
  cases width <;> simp only [bound] at hfits <;> split_ifs <;> simp only [size] <;> omega

/-- A greater argument has no smaller least width. -/
lemma Width.size_narrowest_mono {argument' : Nat} (hle : argument ≤ argument') :
    (narrowest argument).size ≤ (narrowest argument').size := by
  unfold narrowest
  split_ifs <;> simp only [size] <;> omega

/-- No width has more than eight bytes. -/
lemma Width.size_le (width : Width) : width.size ≤ 8 := by
  cases width <;> decide

/-- From this argument on it has eight. -/
lemma Width.size_narrowest_of_le (hle : UInt32.size ≤ argument) :
    (narrowest argument).size = 8 := by
  have h24 : ¬argument < 24 := Nat.not_lt.2 (Nat.le_trans (by decide) hle)
  have h8 : ¬argument < UInt8.size := Nat.not_lt.2 (Nat.le_trans (by decide) hle)
  have h16 : ¬argument < UInt16.size := Nat.not_lt.2 (Nat.le_trans (by decide) hle)
  rw [narrowest, if_neg h24, if_neg h8, if_neg h16, if_neg (Nat.not_lt.2 hle), size]

/-- A width is told by its number of bytes. -/
lemma Width.size_injective (heq : width.size = width'.size) : width = width' := by
  cases width <;> cases width' <;> first | rfl | exact absurd heq (by decide)

/-! ## Reading a number of bytes -/

/-- Taking bytes off the front splits the input there. -/
lemma split?_eq_some_iff :
    split? count input = some (front, rest) ↔ front.length = count ∧ front ++ rest = input := by
  unfold split?
  constructor
  · intro h
    split at h
    · cases h
      exact ⟨List.length_take_of_le ‹_›, List.take_append_drop count input⟩
    · cases h
  · rintro ⟨rfl, rfl⟩
    rw [List.length_append, if_pos (Nat.le_add_right _ _), List.take_left, List.drop_left]

/-! ## Heads -/

/-- The first byte holds the kind above the low bits. -/
lemma Head.toNat_first (h : Head) :
    (UInt8.ofNat (32 * h.kind + h.width.lowBits h.argument)).toNat =
      32 * h.kind + h.width.lowBits h.argument := by
  have hkind := h.kind_lt
  have hlow := Width.lowBits_lt h.fits
  exact UInt8.toNat_ofNat_of_lt (show _ < 256 by omega)

/-- A head takes its first byte and those of the argument. -/
@[simp]
lemma Head.length_bytes (h : Head) : h.bytes.length = h.width.size + 1 := by
  rw [bytes, List.length_cons, Radix.length_toBytes]

/-- A wide argument is read back from its bytes. -/
lemma Head.ofBytes_argument (hne : h.width ≠ .within) :
    Radix.ofBytes (Radix.toBytes h.width.size h.argument) = h.argument := by
  rw [Radix.ofBytes_toBytes, Nat.mod_eq_of_lt (Width.bound_eq_pow hne ▸ h.fits)]

/-- The low bits stand for the argument only where nothing follows the first byte. -/
lemma Head.value_eq (h : Head) :
    (if h.width.size = 0 then h.width.lowBits h.argument
      else Radix.ofBytes (Radix.toBytes h.width.size h.argument)) = h.argument := by
  by_cases hwithin : h.width = .within
  · rw [hwithin]
    rfl
  · rw [if_neg (Width.size_ne_zero hwithin), Head.ofBytes_argument hwithin]

/-- What the reader does with a first byte and the bytes after it. -/
lemma head?_cons_eq_some_iff {first : UInt8} {tail : Bytes} :
    head? kind (first :: tail) = some (argument, rest) ↔
      opensHead kind first = true ∧
        ∃ count front, argumentWidth? (first.toNat % 32) = some count ∧
          (front.length = count ∧ front ++ rest = tail) ∧
          (if count = 0 then first.toNat % 32 else Radix.ofBytes front) = argument := by
  constructor
  · intro hread
    simp only [head?] at hread
    split at hread
    · obtain ⟨count, hcount, hread⟩ := Option.bind_eq_some_iff.1 hread
      obtain ⟨⟨front, back⟩, hsplit, hread⟩ := Option.bind_eq_some_iff.1 hread
      cases hread
      exact ⟨‹_›, count, front, hcount, split?_eq_some_iff.1 hsplit, rfl⟩
    · cases hread
  · rintro ⟨hopens, count, front, hcount, hsplit, hvalue⟩
    simp only [head?, if_pos hopens, hcount, Option.bind_eq_bind, Option.bind_some,
      split?_eq_some_iff.2 hsplit, hvalue]
    rfl

/-- The reader gets the argument of a head, whatever stands after it. -/
lemma head?_bytes_append (hpasses : h.PassesFor kind) (rest : Bytes) :
    head? kind (h.bytes ++ rest) = some (h.argument, rest) := by
  have hlow := Width.lowBits_lt h.fits
  have hkind : (32 * h.kind + h.width.lowBits h.argument) / 32 = h.kind := by omega
  have hbits : (32 * h.kind + h.width.lowBits h.argument) % 32 = h.width.lowBits h.argument := by
    omega
  refine head?_cons_eq_some_iff.2 ⟨?_, h.width.size, Radix.toBytes h.width.size h.argument, ?_,
    ⟨Radix.length_toBytes _ _, rfl⟩, ?_⟩
  · rw [opensHead, h.toNat_first, hkind, Bool.or_eq_true, beq_iff_eq, beq_iff_eq]
    exact hpasses
  · rw [h.toNat_first, hbits, argumentWidth?_lowBits h.fits]
  · rw [h.toNat_first, hbits, h.value_eq]

/-- What the reader takes for a head of some kind is one that passes for it. -/
lemma exists_head_of_head? (hread : head? kind input = some (argument, rest)) :
    ∃ h : Head, h.PassesFor kind ∧ h.argument = argument ∧ h.bytes ++ rest = input := by
  cases input with
  | nil => cases hread
  | cons first tail =>
    obtain ⟨hopens, count, front, hcount, ⟨hlength, rfl⟩, hvalue⟩ :=
      head?_cons_eq_some_iff.1 hread
    have hfirst := first.toNat_lt
    have hkind : first.toNat / 32 < 8 := by omega
    have hbyte : UInt8.ofNat (32 * (first.toNat / 32) + first.toNat % 32) = first := by
      rw [Nat.div_add_mod, UInt8.ofNat_toNat]
    rw [opensHead, Bool.or_eq_true, beq_iff_eq, beq_iff_eq] at hopens
    rcases exists_width_of_argumentWidth? hcount with ⟨hlow, hzero⟩ | ⟨width, hne, hsize, hlow⟩
    · refine ⟨⟨first.toNat / 32, .within, first.toNat % 32, hkind, hlow⟩, hopens, ?_, ?_⟩
      · rw [← hvalue, if_pos hzero]
      · rw [List.eq_nil_of_length_eq_zero (hlength.trans hzero)]
        exact congrArg (· :: rest) hbyte
    · have hfits : Radix.ofBytes front < width.bound := by
        rw [Width.bound_eq_pow hne, hsize, ← hlength]
        exact Radix.ofBytes_lt front
      refine ⟨⟨first.toNat / 32, width, Radix.ofBytes front, hkind, hfits⟩, hopens, ?_, ?_⟩
      · rw [← hvalue, if_neg (hsize ▸ Width.size_ne_zero hne)]
      · rw [Head.bytes, hlow, hbyte, hsize, ← hlength, Radix.toBytes_ofBytes, List.cons_append]

/-- Two heads that begin one input are the same. -/
lemma Head.eq_of_bytes_append (heq : h.bytes ++ rest = h'.bytes ++ rest') :
    h = h' ∧ rest = rest' := by
  obtain ⟨hfirst, htail⟩ := List.cons.inj heq
  have hlow := Width.lowBits_lt h.fits
  have hlow' := Width.lowBits_lt h'.fits
  have hnat := congrArg UInt8.toNat hfirst
  rw [h.toNat_first, h'.toNat_first] at hnat
  have hkind : h.kind = h'.kind := by omega
  obtain ⟨hwidth, hwithin⟩ := Width.eq_of_lowBits_eq h.fits h'.fits (by omega)
  have hlength : (Radix.toBytes h.width.size h.argument).length =
      (Radix.toBytes h'.width.size h'.argument).length := by
    rw [Radix.length_toBytes, Radix.length_toBytes, hwidth]
  obtain ⟨hbytes, hrest⟩ := List.append_inj htail hlength
  have hargument : h.argument = h'.argument := by
    by_cases hin : h.width = .within
    · exact hwithin hin
    · rw [← Head.ofBytes_argument hin, hbytes, Head.ofBytes_argument (hwidth ▸ hin)]
  exact ⟨Head.ext hkind hwidth hargument, hrest⟩

/-! ## The narrowest head -/

namespace Head

/-- The kind of unsigned integers has a place in a head. -/
lemma unsignedKind_lt : unsignedKind < 8 := by decide

/-- The kind of byte strings has a place in a head. -/
lemma bytesKind_lt : bytesKind < 8 := by decide

/-- The kind of arrays has a place in a head. -/
lemma arrayKind_lt : arrayKind < 8 := by decide

/-- The head of least width. -/
def least (kind argument : Nat) (hkind : kind < 8) (hlt : argument < UInt64.size) : Head :=
  ⟨kind, .narrowest argument, argument, hkind, Width.lt_bound_narrowest hlt⟩

/-- The writer writes the head of least width. -/
lemma bytes_least (hkind : kind < 8) (hlt : argument < UInt64.size) :
    (least kind argument hkind hlt).bytes = head kind argument := by
  rw [bytes, head]
  simp only [least, Width.narrowest]
  split_ifs <;> rfl

/-- What the writer writes is a head, also for an argument that no head has room for. -/
lemma exists_bytes_eq_head (hkind : kind < 8) (argument : Nat) :
    ∃ h : Head, h.kind = kind ∧ h.bytes = head kind argument := by
  by_cases hlt : argument < UInt64.size
  · exact ⟨least kind argument hkind hlt, rfl, bytes_least hkind hlt⟩
  · -- Eight bytes are written, and they denote some number of 64 bits.
    have hlength : (Radix.toBytes 8 argument).length = 8 := Radix.length_toBytes 8 argument
    have hkept : Radix.ofBytes (Radix.toBytes 8 argument) < Width.eight.bound := by
      rw [Width.bound_eq_pow (by rintro ⟨⟩)]
      exact hlength ▸ Radix.ofBytes_lt (Radix.toBytes 8 argument)
    refine ⟨⟨kind, .eight, Radix.ofBytes (Radix.toBytes 8 argument), hkind, hkept⟩, rfl, ?_⟩
    have hback := Radix.toBytes_ofBytes (Radix.toBytes 8 argument)
    rw [hlength] at hback
    rw [bytes, Width.size, hback, head, if_neg, if_neg, if_neg, if_neg, Width.lowBits]
    all_goals
      refine fun hsmall => hlt (Nat.lt_trans hsmall ?_)
      decide

/-- Every argument is a number of 64 bits. -/
lemma lt_size (h : Head) : h.argument < UInt64.size := by
  have hfits := h.fits
  cases hwidth : h.width <;> rw [hwidth] at hfits <;>
    exact Nat.lt_of_lt_of_le hfits (by decide)

/-- A head is a narrowest one if it has the least width. -/
lemma isNarrowest_iff : h.IsNarrowest ↔ h.width = .narrowest h.argument := by
  constructor
  · intro hnarrowest
    exact Width.size_injective (Nat.le_antisymm
      (hnarrowest _ (Width.lt_bound_narrowest h.lt_size)) (Width.size_narrowest_le h.fits))
  · intro hwidth width hfits
    rw [hwidth]
    exact Width.size_narrowest_le hfits

/-- A narrowest head has the least number of bytes, and any other one has more. -/
lemma IsNarrowest.size_eq (hnarrowest : h.IsNarrowest) :
    h.width.size = (Width.narrowest h.argument).size :=
  congrArg Width.size (isNarrowest_iff.1 hnarrowest)

lemma size_narrowest_lt (hnot : ¬h.IsNarrowest) :
    (Width.narrowest h.argument).size < h.width.size :=
  Nat.lt_of_le_of_ne (Width.size_narrowest_le h.fits)
    fun heq => hnot (isNarrowest_iff.2 (Width.size_injective heq.symm))

end Head

/-- How many bytes the writer needs for a head. -/
lemma length_head (kind argument : Nat) :
    (head kind argument).length = (Width.narrowest argument).size + 1 := by
  unfold head Width.narrowest
  split_ifs <;> simp only [List.length_cons, List.length_nil, Radix.length_toBytes, Width.size]

end PieceReplication.Cbor
