import Mathlib.Tactic.Common
import PieceReplication.Proofs.Chain.Parameters
import PieceReplication.Proofs.Encoding.Overhead

/-!
# The canonical spelling of parameters

What is written is one of the spellings: every head has the kind of its place and the least width,
and the proof is a definite string.  So it is read back, and being written is the same as being
spelled in that way.  For a proof of `2 ^ 64` bytes or more there is no such spelling, since no head
has room for its length; what is written for one is not read.

What is read is written in no more bytes than it was read from, but for a proof of `2 ^ 32` bytes or
a few more that was cut in two.
-/

namespace PieceReplication.ProveCommit

open Cbor

namespace Spelling

/-- Each head has the kind of its place and the least width, and the proof is a definite string. -/
def IsCanonical (s : Spelling) : Prop :=
  s.IsWellTyped ∧ s.array.IsNarrowest ∧ s.sector.IsNarrowest ∧
    ∃ string, s.proof = .definite string ∧ string.head.IsNarrowest

/-- The proof is too long for a head of five bytes and cut in two, and nothing else is wasted. -/
def IsCut (s : Spelling) : Prop :=
  s.array.IsNarrowest ∧ s.sector.IsNarrowest ∧ s.proof.SplitsLong

/-- The canonical spelling. -/
def canonical (params : ProveCommit) (hlt : params.proof.length < UInt64.size) : Spelling where
  array := .least arrayKind 2 Head.arrayKind_lt (by decide)
  sector := .least unsignedKind params.sector.toNat Head.unsignedKind_lt params.sector.toNat_lt
  proof := .definite ⟨.least bytesKind params.proof.length Head.bytesKind_lt hlt, params.proof, rfl⟩
  size_eq := rfl
  nests := trivial

end Spelling

variable {input : Bytes} {params params' : ProveCommit} {s : Spelling}

/-- What is written is the canonical spelling. -/
lemma Spelling.bytes_canonical (hlt : params.proof.length < UInt64.size) :
    (canonical params hlt).bytes = encode params := by
  rw [bytes, encode, canonical, ByteString.bytes, DefiniteString.bytes]
  simp only [Head.bytes_least, List.append_assoc]

/-- The canonical spelling gives the parameters. -/
lemma Spelling.params_canonical (hlt : params.proof.length < UInt64.size) :
    (canonical params hlt).params = params := by
  have hsector : UInt64.ofNat params.sector.toNat = params.sector := UInt64.ofNat_toNat
  exact congrArg (ProveCommit.mk · params.proof) hsector

/-- The canonical spelling is one. -/
lemma Spelling.isCanonical_canonical (hlt : params.proof.length < UInt64.size) :
    (canonical params hlt).IsCanonical :=
  ⟨⟨rfl, rfl, List.forall_mem_singleton.2 rfl⟩, Head.isNarrowest_iff.2 rfl,
    Head.isNarrowest_iff.2 rfl, _, rfl, Head.isNarrowest_iff.2 rfl⟩

/-- There is no other canonical spelling of the same parameters. -/
lemma Spelling.IsCanonical.eq_canonical (h : s.IsCanonical) :
    ∃ hlt : s.params.proof.length < UInt64.size, s = canonical s.params hlt := by
  obtain ⟨⟨harrayKind, hsectorKind, hheads⟩, harray, hsector, string, hproof, hstring⟩ := h
  have hcontent : s.params.proof = string.content := by rw [params, hproof, ByteString.content]
  have hargument : string.head.argument = s.params.proof.length := by
    rw [hcontent, string.length_eq]
  have hkind : string.head.kind = bytesKind :=
    hheads _ (hproof ▸ List.mem_singleton_self _)
  have hlt : s.params.proof.length < UInt64.size := hargument ▸ string.head.lt_size
  refine ⟨hlt, Spelling.ext (Head.ext harrayKind ?_ s.size_eq)
    (Head.ext hsectorKind ?_ s.toNat_sector.symm) ?_⟩
  · rw [Head.isNarrowest_iff.1 harray, s.size_eq]
    rfl
  · rw [Head.isNarrowest_iff.1 hsector, ← s.toNat_sector]
    rfl
  · rw [hproof]
    refine congrArg ByteString.definite
      (DefiniteString.ext (Head.ext hkind ?_ hargument) hcontent.symm)
    rw [Head.isNarrowest_iff.1 hstring, hargument]
    rfl

/-! ## Reading what was written -/

/-- What is written is read back. -/
lemma decode?_encode (hlt : params.proof.length < UInt64.size) :
    decode? (encode params) = some params := by
  rw [← Spelling.bytes_canonical hlt, decode?_bytes
    (Spelling.isCanonical_canonical hlt).1.isLegible, Spelling.params_canonical]

/-- The length of a proof of `2 ^ 64` bytes or more is cut off, and the proof with it. -/
lemma decode?_encode_of_le (hle : UInt64.size ≤ params.proof.length) :
    decode? (encode params) = none := by
  obtain ⟨h, hkind, hbytes⟩ := Head.exists_bytes_eq_head Head.bytesKind_lt params.proof.length
  have hlt : h.argument < params.proof.length := Nat.lt_of_lt_of_le h.lt_size hle
  -- As much of the proof as the head announces is read as the whole of it.
  let s : Spelling :=
    { array := .least arrayKind 2 Head.arrayKind_lt (by decide)
      sector := .least unsignedKind params.sector.toNat Head.unsignedKind_lt params.sector.toNat_lt
      proof := .definite
        ⟨h, params.proof.take h.argument, List.length_take_of_le (Nat.le_of_lt hlt)⟩
      size_eq := rfl
      nests := trivial }
  have hlegible : s.IsLegible :=
    Spelling.IsWellTyped.isLegible ⟨rfl, rfl, List.forall_mem_singleton.2 hkind⟩
  have hencode : encode params = s.bytes ++ params.proof.drop h.argument := by
    rw [encode, Spelling.bytes, ByteString.bytes, DefiniteString.bytes]
    simp only [s, Head.bytes_least, hbytes, List.append_assoc, List.take_append_drop]
  rw [hencode]
  refine decode?_append (decode?_bytes hlegible) fun hnil => ?_
  rw [List.drop_eq_nil_iff] at hnil
  omega

/-- Reading gives parameters that are written as they were spelled if that was canonical. -/
lemma encode_params_eq_iff (hlegible : s.IsLegible) :
    encode s.params = s.bytes ↔ s.IsCanonical := by
  constructor
  · intro heq
    by_cases hlt : s.params.proof.length < UInt64.size
    · rw [← Spelling.bytes_canonical hlt] at heq
      exact Spelling.eq_of_bytes_eq heq ▸ Spelling.isCanonical_canonical hlt
    · have hnone := decode?_encode_of_le (Nat.not_lt.1 hlt)
      rw [heq, decode?_bytes hlegible] at hnone
      cases hnone
  · intro hcanonical
    obtain ⟨hlt, hs⟩ := hcanonical.eq_canonical
    rw [← Spelling.bytes_canonical hlt, ← hs]

/-! ## Lengths -/

/-- The bytes of a spelling, item by item. -/
lemma Spelling.length_bytes (s : Spelling) :
    s.bytes.length = (s.array.width.size + 1) + (s.sector.width.size + 1) +
      (s.proof.overhead + s.proof.content.length) := by
  rw [bytes, List.length_append, List.length_append, Head.length_bytes, Head.length_bytes,
    ByteString.length_bytes]
  omega

/-- The bytes that are written, item by item. -/
lemma length_encode (params : ProveCommit) :
    (encode params).length = 1 + ((Width.narrowest params.sector.toNat).size + 1) +
      ((Width.narrowest params.proof.length).size + 1 + params.proof.length) := by
  rw [encode, List.length_append, List.length_append, List.length_append, length_head, length_head,
    length_head]
  rfl

/-- Cutting a long proof in two saves one byte. -/
lemma length_encode_of_isCut (hcut : s.IsCut) :
    (encode s.params).length = s.bytes.length + 1 := by
  obtain ⟨harray, hsector, hproof⟩ := hcut
  have hsize : s.array.width.size = 0 := by rw [harray.size_eq, s.size_eq]; rfl
  rw [length_encode, s.length_bytes, s.toNat_sector, hsize, hsector.size_eq, hproof.overhead_eq]
  simp only [Spelling.params]
  omega

/-- No other spelling is shorter than what is written. -/
lemma length_encode_le (hnot : ¬s.IsCut) : (encode s.params).length ≤ s.bytes.length := by
  have hsector := Width.size_narrowest_le s.sector.fits
  rw [length_encode, s.length_bytes, s.toNat_sector]
  simp only [Spelling.params]
  rcases s.proof.size_narrowest_lt_overhead with hlt | hsplit
  · omega
  · rw [hsplit.overhead_eq]
    by_cases harray : s.array.IsNarrowest
    · have hlt := Head.size_narrowest_lt fun hsector => hnot ⟨harray, hsector, hsplit⟩
      omega
    · have hlt := Head.size_narrowest_lt harray
      omega

/-! ## Writing loses nothing -/

/-- Different parameters are written differently. -/
lemma eq_of_encode_eq (heq : encode params = encode params') : params = params' := by
  rw [encode, encode, List.append_assoc, List.append_assoc, List.append_cancel_left_eq,
    ← Head.bytes_least Head.unsignedKind_lt params.sector.toNat_lt,
    ← Head.bytes_least Head.unsignedKind_lt params'.sector.toNat_lt] at heq
  obtain ⟨hhead, htail⟩ := Head.eq_of_bytes_append heq
  have hsector : params.sector = params'.sector :=
    UInt64.toNat_inj.1 (congrArg Head.argument hhead)
  -- The head grows with the length of the proof, so that the sum tells the length.
  have hlength := congrArg List.length htail
  rw [List.length_append, List.length_append, length_head, length_head] at hlength
  have hproofs : params.proof.length = params'.proof.length := by
    rcases Nat.lt_trichotomy params.proof.length params'.proof.length with hlt | hproofs | hlt
    · have hmono := Width.size_narrowest_mono (Nat.le_of_lt hlt)
      omega
    · exact hproofs
    · have hmono := Width.size_narrowest_mono (Nat.le_of_lt hlt)
      omega
  rw [hproofs, List.append_cancel_left_eq] at htail
  exact congrArg₂ ProveCommit.mk hsector htail

/-- What is written is read back, up to the proofs whose length no head can give; what is read is
written in no more bytes than it was read from, except where a long proof was cut in two, and in
the same bytes exactly if those were canonical, which is to say if they were written; and writing
loses nothing. -/
theorem encode_canonical :
    (∀ params, decode? (encode params) =
      if params.proof.length < UInt64.size then some params else none) ∧
    (∀ input params, decode? input = some params →
      ∃ s : Spelling, s.bytes = input ∧ s.params = params ∧
        (s.IsCut → (encode params).length = input.length + 1) ∧
        (¬s.IsCut → (encode params).length ≤ input.length) ∧
        (encode params = input ↔ s.IsCanonical) ∧
        (encode params = input ↔ ∃ params', encode params' = input)) ∧
    ∀ params params', encode params = encode params' → params = params' := by
  refine ⟨fun params => ?_, fun input params hread => ?_, fun _ _ => eq_of_encode_eq⟩
  · split_ifs with hlt
    · exact decode?_encode hlt
    · exact decode?_encode_of_le (Nat.not_lt.1 hlt)
  · obtain ⟨s, hlegible, rfl, rfl⟩ := exists_spelling_of_decode? hread
    refine ⟨s, rfl, rfl, length_encode_of_isCut, length_encode_le, encode_params_eq_iff hlegible,
      fun heq => ⟨_, heq⟩, ?_⟩
    rintro ⟨params', heq⟩
    by_cases hlt : params'.proof.length < UInt64.size
    · have hread' := decode?_encode hlt
      rw [heq, hread] at hread'
      rw [Option.some.inj hread', heq]
    · have hnone := decode?_encode_of_le (Nat.not_lt.1 hlt)
      rw [heq, hread] at hnone
      cases hnone

theorem encode_canonical_nested :
    decode? Spelling.nested.bytes = some ⟨42, [1, 2, 3]⟩ ∧
      (encode ⟨42, [1, 2, 3]⟩).length ≤ Spelling.nested.bytes.length ∧
      decode? (encode ⟨42, [1, 2, 3]⟩) = some ⟨42, [1, 2, 3]⟩ := by
  have hread : decode? Spelling.nested.bytes = some ⟨42, [1, 2, 3]⟩ :=
    decode?_bytes (Spelling.IsWellTyped.isLegible ⟨rfl, rfl, by decide⟩)
  obtain ⟨s, -, hparams, -, hle, -⟩ := encode_canonical.2.1 _ _ hread
  have hproof : s.proof.content = [1, 2, 3] := congrArg ProveCommit.proof hparams
  refine ⟨hread, hle fun hcut => ?_, encode_canonical.1 ⟨42, [1, 2, 3]⟩⟩
  have hlong := hcut.2.2.1
  rw [hproof] at hlong
  exact absurd hlong (by decide)

/-- A proof that is cut before its last byte, which is zero. -/
def Spelling.cut (front : Bytes) (hfits : front.length < UInt32.size) : Spelling where
  array := .least arrayKind 2 Head.arrayKind_lt (by decide)
  sector := .least unsignedKind 0 Head.unsignedKind_lt (by decide)
  proof := .indefinite <|
    .definite ⟨⟨bytesKind, .four, front.length, Head.bytesKind_lt, hfits⟩, front, rfl⟩ <|
      .definite ⟨.least bytesKind 1 Head.bytesKind_lt (by decide), [0], rfl⟩ .nil
  size_eq := rfl
  nests := ⟨Chunks.one_le_maxDepth, Chunks.one_le_maxDepth, trivial⟩

/-- Where the bytes before the last one are as many as fit, writing takes one byte more. -/
lemma Spelling.decode?_cut {front : Bytes} (hfits : front.length < UInt32.size)
    (hlong : UInt32.size ≤ front.length + 1) :
    decode? (cut front hfits).bytes = some (cut front hfits).params ∧
      (cut front hfits).bytes.length < (encode (cut front hfits).params).length := by
  have htyped : (cut front hfits).IsWellTyped :=
    ⟨rfl, rfl, List.forall_mem_cons.2 ⟨rfl, List.forall_mem_singleton.2 rfl⟩⟩
  have hlength : (cut front hfits).proof.content.length = front.length + 1 :=
    List.length_append
  have hcut : (cut front hfits).IsCut :=
    ⟨Head.isNarrowest_iff.2 rfl, Head.isNarrowest_iff.2 rfl, hlength ▸ hlong, _, rfl, _, _, rfl,
      .inl ⟨rfl, rfl⟩⟩
  refine ⟨decode?_bytes htyped.isLegible, ?_⟩
  rw [length_encode_of_isCut hcut]
  exact Nat.lt_succ_self _

/-- A proof of `2 ^ 32` zeros. -/
def Spelling.cutZeros : Spelling :=
  cut (List.replicate (UInt32.size - 1) 0) (by rw [List.length_replicate]; decide)

theorem encode_longer :
    (decode? Spelling.cutZeros.bytes = some Spelling.cutZeros.params ∧
      Spelling.cutZeros.bytes.length < (encode Spelling.cutZeros.params).length) ∧
    decode? [0x82, 5, 0] = some ⟨5, []⟩ ∧ encode ⟨5, []⟩ = [0x82, 5, 0x40] := by
  have hlegible : Spelling.mistyped.IsLegible :=
    ⟨.inl rfl, .inl rfl, List.forall_mem_singleton.2 (.inr rfl)⟩
  refine ⟨Spelling.decode?_cut _ ?_, decode?_bytes hlegible, by decide⟩
  rw [List.length_replicate]
  decide

end PieceReplication.ProveCommit
