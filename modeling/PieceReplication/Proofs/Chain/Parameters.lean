import Mathlib.Data.Option.Basic
import Mathlib.Tactic.Common
import PieceReplication.Chain.Message
import PieceReplication.Proofs.Encoding.Strings

/-!
# What prove-commit parameters are read from

A `Spelling` is one way to write prove-commit parameters down: the head of an array of two, a head
for the number of the sector, and a byte string for the proof, each head in a width of its choice.
A byte string is read as parameters exactly if it is the bytes of a spelling in which every head
passes for the kind that its place asks for, and what is read are the number and the content that
the spelling gives.  Its spelling is unique, so that nothing that is read begins anything else
that is.

The reader is more lenient than the format.  In a spelling that is well-typed every head has the
kind of its place; the reader also takes heads of kind zero, such as the bare byte `00` for the
empty proof.
-/

namespace PieceReplication.ProveCommit

open Cbor

/-- The spelling of prove-commit parameters. -/
@[ext]
structure Spelling where
  array : Head
  sector : Head
  proof : ByteString
  size_eq : array.argument = 2
  nests : proof.Nests

namespace Spelling

/-- The bytes of a spelling. -/
def bytes (s : Spelling) : Bytes :=
  s.array.bytes ++ (s.sector.bytes ++ s.proof.bytes)

/-- The parameters that a spelling gives. -/
def params (s : Spelling) : ProveCommit :=
  ⟨UInt64.ofNat s.sector.argument, s.proof.content⟩

/-- Each head passes for the kind of its place. -/
def IsLegible (s : Spelling) : Prop :=
  s.array.PassesFor arrayKind ∧ s.sector.PassesFor unsignedKind ∧
    ∀ h ∈ s.proof.heads, h.PassesFor bytesKind

/-- Each head has the kind of its place. -/
def IsWellTyped (s : Spelling) : Prop :=
  s.array.kind = arrayKind ∧ s.sector.kind = unsignedKind ∧
    ∀ h ∈ s.proof.heads, h.kind = bytesKind

end Spelling

variable {input front back : Bytes} {params : ProveCommit} {s s' : Spelling}

/-- A spelling with the right kinds is legible. -/
lemma Spelling.IsWellTyped.isLegible (h : s.IsWellTyped) : s.IsLegible :=
  ⟨.inl h.1, .inl h.2.1, fun head hmem => .inl (h.2.2 head hmem)⟩

/-- The number of the sector is the argument of its head. -/
lemma Spelling.toNat_sector (s : Spelling) : s.params.sector.toNat = s.sector.argument :=
  UInt64.toNat_ofNat_of_lt' s.sector.lt_size

/-- Two spellings of which one begins the other are the same. -/
lemma Spelling.eq_of_bytes_append (heq : s.bytes ++ back = s'.bytes) : s = s' ∧ back = [] := by
  rw [bytes, bytes, ← List.append_nil s'.proof.bytes, List.append_assoc, List.append_assoc] at heq
  obtain ⟨harray, htail⟩ := Head.eq_of_bytes_append heq
  obtain ⟨hsector, hproof⟩ := Head.eq_of_bytes_append htail
  obtain ⟨hbytes, hback⟩ := ByteString.eq_of_bytes_append hproof
  exact ⟨Spelling.ext harray hsector hbytes, hback⟩

/-- The steps in which parameters are read. -/
lemma decode?_eq_some_iff :
    decode? input = some params ↔ ∃ afterArray sector afterSector,
      head? arrayKind input = some (2, afterArray) ∧
      head? unsignedKind afterArray = some (sector, afterSector) ∧
      bytes? afterSector = some (params.proof, []) ∧ UInt64.ofNat sector = params.sector := by
  constructor
  · intro hread
    obtain ⟨⟨size, afterArray⟩, harray, hread⟩ := Option.bind_eq_some_iff.1 hread
    obtain ⟨_, hsize, hread⟩ := Option.bind_eq_some_iff.1 hread
    obtain ⟨⟨sector, afterSector⟩, hsector, hread⟩ := Option.bind_eq_some_iff.1 hread
    obtain ⟨⟨proof, rest⟩, hproof, hread⟩ := Option.bind_eq_some_iff.1 hread
    obtain ⟨_, hrest, hread⟩ := Option.bind_eq_some_iff.1 hread
    obtain rfl := (Option.guard_eq_some' _).1 hsize
    obtain rfl := (Option.guard_eq_some' _).1 hrest
    cases hread
    exact ⟨afterArray, sector, afterSector, harray, hsector, hproof, rfl⟩
  · rintro ⟨afterArray, sector, afterSector, harray, hsector, hproof, heq⟩
    simp only [decode?, harray, hsector, hproof, heq, Option.bind_eq_bind, Option.bind_some,
      guard_true]
    rfl

/-- A legible spelling is read, and as the parameters that it gives. -/
lemma decode?_bytes (hlegible : s.IsLegible) : decode? s.bytes = some s.params := by
  obtain ⟨harray, hsector, hproof⟩ := hlegible
  refine decode?_eq_some_iff.2 ⟨s.sector.bytes ++ s.proof.bytes, s.sector.argument, s.proof.bytes,
    ?_, head?_bytes_append hsector _, ?_, rfl⟩
  · rw [Spelling.bytes, head?_bytes_append harray, s.size_eq]
  · have hread := bytes?_bytes_append hproof s.nests []
    rwa [List.append_nil] at hread

/-- What is read is spelled legibly. -/
lemma exists_spelling_of_decode? (hread : decode? input = some params) :
    ∃ s : Spelling, s.IsLegible ∧ s.bytes = input ∧ s.params = params := by
  obtain ⟨afterArray, sector, afterSector, harray, hsector, hproof, heq⟩ :=
    decode?_eq_some_iff.1 hread
  obtain ⟨array, harrayPasses, hsize, rfl⟩ := exists_head_of_head? harray
  obtain ⟨number, hnumberPasses, rfl, rfl⟩ := exists_head_of_head? hsector
  obtain ⟨proof, hproofPasses, hnests, hcontent, rfl⟩ := exists_byteString_of_bytes? hproof
  refine ⟨⟨array, number, proof, hsize, hnests⟩, ⟨harrayPasses, hnumberPasses, hproofPasses⟩, ?_,
    ?_⟩
  · rw [Spelling.bytes, List.append_nil]
  · rw [Spelling.params, heq, hcontent]

/-- What is read begins nothing else that is. -/
lemma decode?_append (hread : decode? front = some params) (hback : back ≠ []) :
    decode? (front ++ back) = none := by
  cases hlonger : decode? (front ++ back) with
  | none => rfl
  | some other =>
    -- The spelling of the front would begin that of the whole.
    obtain ⟨s, -, rfl, -⟩ := exists_spelling_of_decode? hread
    obtain ⟨s', -, hbytes, -⟩ := exists_spelling_of_decode? hlonger
    exact absurd (Spelling.eq_of_bytes_append hbytes.symm).2 hback

/-- Two spellings of the same bytes are the same. -/
lemma Spelling.eq_of_bytes_eq (heq : s.bytes = s'.bytes) : s = s' :=
  (eq_of_bytes_append ((List.append_nil _).trans heq)).1

/-- What a spelling gives, with its number as it is in the head. -/
lemma Spelling.params_eq_iff :
    s.params = params ↔
      s.sector.argument = params.sector.toNat ∧ s.proof.content = params.proof := by
  constructor
  · rintro rfl
    exact ⟨s.toNat_sector.symm, rfl⟩
  · rintro ⟨hsector, hproof⟩
    rw [Spelling.params, hsector, hproof, UInt64.ofNat_toNat]

/-- A byte string is read as parameters exactly if it is a legible spelling of them, and it has one
spelling at most.  So the reader keeps to the format on exactly those inputs whose legible spelling,
if there is one, is well-typed.  What is read begins nothing else that is. -/
theorem decode?_iff_spelled (input : Bytes) :
    (∀ params, decode? input = some params ↔
      ∃ s : Spelling, s.IsLegible ∧ s.bytes = input ∧
        s.sector.argument = params.sector.toNat ∧ s.proof.content = params.proof) ∧
    ((∀ s : Spelling, s.IsLegible → s.bytes = input → s.IsWellTyped) ↔
      ∀ params, decode? input = some params ↔
        ∃ s : Spelling, s.IsWellTyped ∧ s.bytes = input ∧
          s.sector.argument = params.sector.toNat ∧ s.proof.content = params.proof) ∧
    (∀ s s' : Spelling, s.bytes = input → s'.bytes = input → s = s') ∧
    ∀ params back, decode? input = some params → back ≠ [] → decode? (input ++ back) = none := by
  have hread : ∀ params, decode? input = some params ↔
      ∃ s : Spelling, s.IsLegible ∧ s.bytes = input ∧
        s.sector.argument = params.sector.toNat ∧ s.proof.content = params.proof := by
    intro params
    constructor
    · intro hread
      obtain ⟨s, hlegible, hbytes, hparams⟩ := exists_spelling_of_decode? hread
      exact ⟨s, hlegible, hbytes, Spelling.params_eq_iff.1 hparams⟩
    · rintro ⟨s, hlegible, rfl, hgives⟩
      rw [decode?_bytes hlegible, Spelling.params_eq_iff.2 hgives]
  refine ⟨hread,
    ⟨fun htyped params => (hread params).trans ?_, fun hformat s hlegible hbytes => ?_⟩,
    fun s s' hs hs' => Spelling.eq_of_bytes_eq (hs.trans hs'.symm),
    fun params back hread hback => decode?_append hread hback⟩
  · exact exists_congr fun s => ⟨fun h => ⟨htyped s h.1 h.2.1, h.2⟩, fun h => ⟨h.1.isLegible, h.2⟩⟩
  · -- The format has a spelling of the input as well, and that can only be this one.
    obtain ⟨s', htyped, hbytes', -⟩ := (hformat s.params).1 (hbytes ▸ decode?_bytes hlegible)
    rwa [Spelling.eq_of_bytes_eq (hbytes.trans hbytes'.symm)]

/-- The number 42 in a wide head, and three bytes in an indefinite string that holds another one. -/
def Spelling.nested : Spelling where
  array := ⟨arrayKind, .one, 2, Head.arrayKind_lt, by decide⟩
  sector := ⟨unsignedKind, .four, 42, Head.unsignedKind_lt, by decide⟩
  proof := .indefinite <|
    .definite ⟨⟨bytesKind, .within, 1, Head.bytesKind_lt, by decide⟩, [1], rfl⟩ <|
      .indefinite (.definite ⟨⟨bytesKind, .two, 2, Head.bytesKind_lt, by decide⟩, [2, 3], rfl⟩ .nil)
        .nil
  size_eq := rfl
  nests := ⟨Chunks.one_le_maxDepth, Chunks.one_le_maxDepth, ⟨by decide, trivial⟩, trivial⟩

theorem decode?_iff_spelled_nested :
    decode? [0x98, 2, 0x1a, 0, 0, 0, 42, 0x5f, 0x41, 1, 0x5f, 0x59, 0, 2, 2, 3, 0xff, 0xff] =
        some ⟨42, [1, 2, 3]⟩ ∧
      decode? (Spelling.nested.bytes ++ [0]) = none := by
  have htyped : Spelling.nested.IsWellTyped := ⟨rfl, rfl, by decide⟩
  obtain ⟨hread, -, -, hprefix⟩ := decode?_iff_spelled Spelling.nested.bytes
  have hdecode := (hread ⟨42, [1, 2, 3]⟩).2 ⟨_, htyped.isLegible, rfl, rfl, rfl⟩
  exact ⟨hdecode, hprefix _ [0] hdecode (by decide)⟩

/-- The number 5 and, for the empty proof, a byte that is the head of a number. -/
def Spelling.mistyped : Spelling where
  array := ⟨arrayKind, .within, 2, Head.arrayKind_lt, by decide⟩
  sector := ⟨unsignedKind, .within, 5, Head.unsignedKind_lt, by decide⟩
  proof := .definite ⟨⟨unsignedKind, .within, 0, Head.unsignedKind_lt, by decide⟩, [], rfl⟩
  size_eq := rfl
  nests := trivial

theorem decode?_mistyped :
    decode? [0x82, 5, 0] = some ⟨5, []⟩ ∧
      ∀ s : Spelling, s.IsWellTyped → s.bytes ≠ [0x82, 5, 0] := by
  have hlegible : Spelling.mistyped.IsLegible :=
    ⟨.inl rfl, .inl rfl, List.forall_mem_singleton.2 (.inr rfl)⟩
  refine ⟨decode?_bytes hlegible, fun s htyped hbytes => ?_⟩
  have heq : s = Spelling.mistyped := Spelling.eq_of_bytes_eq hbytes
  subst heq
  exact absurd (htyped.2.2 _ (List.mem_singleton_self _)) (by decide)

end PieceReplication.ProveCommit
