import Mathlib.Tactic.Common
import PieceReplication.Proofs.Encoding.Strings

/-!
# How many bytes a byte string costs

The bytes of a spelling beyond its content are its overhead: the heads, and two marks for each
indefinite string.  A definite string with the narrowest head has the least overhead that its length
allows, with one exception.  A content of `2 ^ 32` bytes or a few more does not fit a head of five
bytes, the next width takes nine, and cutting the content in two costs eight: two marks, a head of
five bytes for nearly all of it and a head of one byte for the rest.

The bound goes by what an overhead can carry.  A sequence whose overhead leaves no room for a head
of three bytes, or of five, holds no more than so many bytes a head; what remains are the sequences
that a head of five bytes nearly fills.
-/

namespace PieceReplication.Cbor

/-- The bytes of a sequence beyond its content. -/
def Chunks.overhead : Chunks → Nat
  | nil => 0
  | definite string rest => string.head.width.size + 1 + rest.overhead
  | indefinite inner rest => inner.overhead + rest.overhead + 2

/-- The bytes of a byte string beyond its content. -/
def ByteString.overhead : ByteString → Nat
  | definite string => string.head.width.size + 1
  | indefinite chunks => chunks.overhead + 2

/-- A sequence of two definite strings, one with a head of five bytes and one with a head of one. -/
def Chunks.IsSplit (chunks : Chunks) : Prop :=
  ∃ string string' : DefiniteString, chunks = .definite string (.definite string' .nil) ∧
    (string.head.width = .four ∧ string'.head.width = .within ∨
      string.head.width = .within ∧ string'.head.width = .four)

/-- A content too long for a head of five bytes, cut in two. -/
def ByteString.SplitsLong (bytes : ByteString) : Prop :=
  UInt32.size ≤ bytes.content.length ∧
    ∃ chunks : Chunks, bytes = .indefinite chunks ∧ chunks.IsSplit

variable {bound : Nat} {string : DefiniteString} {chunks : Chunks} {bytes : ByteString}

/-! ## Lengths -/

/-- The bytes of a definite string are its head and its content. -/
lemma DefiniteString.length_bytes (string : DefiniteString) :
    string.bytes.length = string.head.width.size + 1 + string.content.length := by
  rw [bytes, List.length_append, Head.length_bytes]

/-- The bytes of a sequence are its overhead and its content. -/
lemma Chunks.length_bytes (chunks : Chunks) :
    chunks.bytes.length = chunks.overhead + chunks.content.length := by
  induction chunks with
  | nil => rfl
  | definite string rest ih =>
    rw [bytes, content, overhead, List.length_append, List.length_append, ih,
      DefiniteString.length_bytes]
    omega
  | indefinite inner rest ihinner ihrest =>
    rw [bytes, content, overhead, List.length_cons, List.length_append, List.length_append,
      List.length_cons, ihinner, ihrest]
    omega

/-- The bytes of a byte string are its overhead and its content. -/
lemma ByteString.length_bytes (bytes : ByteString) :
    bytes.bytes.length = bytes.overhead + bytes.content.length := by
  cases bytes with
  | definite string => exact string.length_bytes
  | indefinite chunks =>
    rw [ByteString.bytes, overhead, content, List.length_cons, List.length_append,
      List.length_singleton, chunks.length_bytes]
    omega

/-! ## What an overhead can carry -/

/-- A sequence with room for heads of bounded arguments only holds no more than so much a head. -/
lemma Chunks.length_content_le
    (hbound : ∀ width : Width, width.size < chunks.overhead → width.bound ≤ bound) :
    chunks.content.length ≤ bound * chunks.overhead := by
  induction chunks with
  | nil => exact Nat.zero_le _
  | definite string rest ih =>
    rw [overhead] at hbound ⊢
    have hrest := ih fun width hlt => hbound width (by omega)
    have hhead := Nat.lt_of_lt_of_le string.head.fits (hbound string.head.width (by omega))
    have hcost : bound ≤ bound * (string.head.width.size + 1) :=
      Nat.le_mul_of_pos_right bound (Nat.succ_pos _)
    rw [content, List.length_append, string.length_eq, Nat.mul_add]
    omega
  | indefinite inner rest ihinner ihrest =>
    rw [overhead] at hbound ⊢
    have hinner := ihinner fun width hlt => hbound width (by omega)
    have hrest := ihrest fun width hlt => hbound width (by omega)
    rw [content, List.length_append, Nat.mul_add, Nat.mul_add]
    omega

/-- Without room for a head of three bytes a sequence holds few bytes. -/
lemma Chunks.length_content_lt_of_overhead_le_two (hle : chunks.overhead ≤ 2) :
    chunks.content.length < UInt16.size := by
  have hcarried : chunks.content.length ≤ UInt8.size * chunks.overhead :=
    length_content_le fun width hlt => by
      cases width <;> simp only [Width.size] at hlt <;> first | decide | omega
  have hmost := Nat.mul_le_mul_left UInt8.size hle
  have hsmall : UInt8.size * 2 < UInt16.size := by decide
  omega

/-- Without room for a head of five bytes a sequence holds less than `2 ^ 18` bytes. -/
lemma Chunks.length_content_le_of_overhead_le_four (hle : chunks.overhead ≤ 4) :
    chunks.content.length ≤ 4 * UInt16.size := by
  have hcarried : chunks.content.length ≤ UInt16.size * chunks.overhead :=
    length_content_le fun width hlt => by
      cases width <;> simp only [Width.size] at hlt <;> first | decide | omega
  have hmost := Nat.mul_le_mul_left UInt16.size hle
  omega

/-- A sequence without overhead is empty. -/
lemma Chunks.eq_nil_of_overhead_eq_zero (hzero : chunks.overhead = 0) : chunks = .nil := by
  cases chunks <;> simp only [overhead] at hzero <;> first | rfl | omega

/-- In an overhead of five bytes only a single head of that width carries more than a few narrower
ones. -/
lemma Chunks.eq_definite_of_overhead_le_five (hle : chunks.overhead ≤ 5)
    (hlong : 9 * UInt16.size ≤ chunks.content.length) :
    ∃ string : DefiniteString, chunks = .definite string .nil ∧ string.head.width = .four := by
  have hsize : UInt16.size = 65536 := rfl
  cases chunks with
  | nil => exact absurd hlong (by decide)
  | definite string rest =>
    rw [overhead] at hle
    rw [content, List.length_append, string.length_eq] at hlong
    have hfits := string.head.fits
    cases hwidth : string.head.width <;> rw [hwidth] at hle hfits <;>
      simp only [Width.size, Width.bound] at hle hfits
    case four =>
      obtain rfl := eq_nil_of_overhead_eq_zero (show rest.overhead = 0 by omega)
      exact ⟨string, rfl, hwidth⟩
    case eight => omega
    all_goals
      have hrest := length_content_le_of_overhead_le_four (show rest.overhead ≤ 4 by omega)
      have hbyte : UInt8.size = 256 := rfl
      omega
  | indefinite inner rest =>
    rw [overhead] at hle
    rw [content, List.length_append] at hlong
    have hinner := length_content_le_of_overhead_le_four (show inner.overhead ≤ 4 by omega)
    have hrest := length_content_le_of_overhead_le_four (show rest.overhead ≤ 4 by omega)
    omega

/-- An overhead of one byte is a head of one byte. -/
lemma Chunks.eq_definite_of_overhead_eq_one (hone : chunks.overhead = 1) :
    ∃ string : DefiniteString, chunks = .definite string .nil ∧ string.head.width = .within := by
  cases chunks with
  | nil => exact absurd hone (by decide)
  | definite string rest =>
    rw [overhead] at hone
    obtain rfl := eq_nil_of_overhead_eq_zero (show rest.overhead = 0 by omega)
    have hsize : string.head.width.size = Width.within.size := by rw [Width.size]; omega
    exact ⟨string, rfl, Width.size_injective hsize⟩
  | indefinite inner rest =>
    rw [overhead] at hone
    omega

/-- In an overhead of six bytes only a cut in two carries what does not fit a head of five. -/
lemma Chunks.isSplit_of_overhead_le_six (hle : chunks.overhead ≤ 6)
    (hlong : UInt32.size ≤ chunks.content.length) : chunks.IsSplit := by
  have hsize : UInt16.size = 65536 := rfl
  have hsize' : UInt32.size = 4294967296 := rfl
  cases chunks with
  | nil => exact absurd hlong (by decide)
  | definite string rest =>
    rw [overhead] at hle
    rw [content, List.length_append, string.length_eq] at hlong
    have hfits := string.head.fits
    cases hwidth : string.head.width <;> rw [hwidth] at hle hfits <;>
      simp only [Width.size, Width.bound] at hle hfits
    case within =>
      obtain ⟨string', rfl, hwidth'⟩ :=
        eq_definite_of_overhead_le_five (show rest.overhead ≤ 5 by omega) (by omega)
      exact ⟨string, string', rfl, .inr ⟨hwidth, hwidth'⟩⟩
    case four =>
      -- The string itself is too short by at least one byte.
      have hne : rest.overhead ≠ 0 := by
        intro hzero
        obtain rfl := eq_nil_of_overhead_eq_zero hzero
        rw [content, List.length_nil] at hlong
        omega
      obtain ⟨string', rfl, hwidth'⟩ :=
        eq_definite_of_overhead_eq_one (show rest.overhead = 1 by omega)
      exact ⟨string, string', rfl, .inl ⟨hwidth, hwidth'⟩⟩
    case eight => omega
    all_goals
      have hrest := length_content_le_of_overhead_le_four (show rest.overhead ≤ 4 by omega)
      have hbyte : UInt8.size = 256 := rfl
      omega
  | indefinite inner rest =>
    rw [overhead] at hle
    rw [content, List.length_append] at hlong
    have hinner := length_content_le_of_overhead_le_four (show inner.overhead ≤ 4 by omega)
    have hrest := length_content_le_of_overhead_le_four (show rest.overhead ≤ 4 by omega)
    omega

/-! ## The least overhead -/

/-- A byte string costs no less than a definite one with the narrowest head, unless it is cut in
two. -/
lemma ByteString.size_narrowest_lt_overhead (bytes : ByteString) :
    (Width.narrowest bytes.content.length).size < bytes.overhead ∨ bytes.SplitsLong := by
  cases bytes with
  | definite string =>
    left
    rw [overhead, content, string.length_eq]
    exact Nat.lt_succ_of_le (Width.size_narrowest_le string.head.fits)
  | indefinite chunks =>
    rw [overhead, content]
    by_cases hlong : UInt32.size ≤ chunks.content.length
    · by_cases hle : chunks.overhead ≤ 6
      · exact .inr ⟨hlong, chunks, rfl, Chunks.isSplit_of_overhead_le_six hle hlong⟩
      · have hmost := Width.size_le (.narrowest chunks.content.length)
        exact .inl (by omega)
    · left
      have hzero : chunks.overhead = 0 → chunks.content.length = 0 := fun h => by
        rw [Chunks.eq_nil_of_overhead_eq_zero h]; rfl
      have htwo := @Chunks.length_content_lt_of_overhead_le_two chunks
      unfold Width.narrowest
      split_ifs <;> simp only [Width.size] <;> omega

/-- A string cut in two costs as many bytes as the narrowest head of its length has after the
first one. -/
lemma ByteString.SplitsLong.overhead_eq (h : bytes.SplitsLong) :
    bytes.overhead = (Width.narrowest bytes.content.length).size := by
  obtain ⟨hlong, chunks, rfl, string, string', rfl, hwidths⟩ := h
  rw [Width.size_narrowest_of_le hlong, overhead, Chunks.overhead, Chunks.overhead,
    Chunks.overhead]
  rcases hwidths with ⟨hwidth, hwidth'⟩ | ⟨hwidth, hwidth'⟩ <;>
    rw [hwidth, hwidth'] <;> rfl

end PieceReplication.Cbor
