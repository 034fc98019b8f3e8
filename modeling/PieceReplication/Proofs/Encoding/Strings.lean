import Mathlib.Tactic.Common
import PieceReplication.Proofs.Encoding.Heads

/-!
# Byte strings

A byte string is spelled as one definite string or as an indefinite one, a sequence of byte strings
between two marks.  `Chunks` is what may stand between the marks: definite strings and, nested to
any depth, indefinite ones.  As for heads, reading is characterised from both sides, by induction on
the spelling where a spelling is given and by induction on the length of the input where an input
is.  Every statement about `chunks?` is one about a single one of the open strings: what is read up
to its mark, and what the reader does with the rest while one string fewer is open.

Spellings that begin one input are the same, since no head begins with either mark.
-/

namespace PieceReplication.Cbor

/-- The spelling of a definite byte string: its head gives the length of its content. -/
@[ext]
structure DefiniteString where
  head : Head
  content : Bytes
  length_eq : content.length = head.argument

/-- The bytes of a definite byte string. -/
def DefiniteString.bytes (string : DefiniteString) : Bytes :=
  string.head.bytes ++ string.content

/-- The spelling of a sequence of byte strings, as an indefinite byte string holds one. -/
inductive Chunks
  | nil
  | definite (string : DefiniteString) (rest : Chunks)
  | indefinite (inner rest : Chunks)

namespace Chunks

/-- The bytes of a sequence. -/
def bytes : Chunks → Bytes
  | nil => []
  | definite string rest => string.bytes ++ rest.bytes
  | indefinite inner rest => openByte :: (inner.bytes ++ breakByte :: rest.bytes)

/-- The contents of the definite strings, concatenated. -/
def content : Chunks → Bytes
  | nil => []
  | definite string rest => string.content ++ rest.content
  | indefinite inner rest => inner.content ++ rest.content

/-- The heads of the definite strings. -/
def heads : Chunks → List Head
  | nil => []
  | definite string rest => string.head :: rest.heads
  | indefinite inner rest => inner.heads ++ rest.heads

/-- Within so many open indefinite strings, each string of the sequence begins where no more than
`maxDepth` are open. -/
def NestsIn (depth : Nat) : Chunks → Prop
  | nil => True
  | definite _ rest => depth ≤ maxDepth ∧ rest.NestsIn depth
  | indefinite inner rest => depth ≤ maxDepth ∧ inner.NestsIn (depth + 1) ∧ rest.NestsIn depth

/-- The outermost indefinite string holds others. -/
lemma one_le_maxDepth : 1 ≤ maxDepth := by decide

end Chunks

/-- The spelling of a byte string. -/
inductive ByteString
  | definite (string : DefiniteString)
  | indefinite (chunks : Chunks)

namespace ByteString

/-- The bytes of a byte string. -/
def bytes : ByteString → Bytes
  | definite string => string.bytes
  | indefinite chunks => openByte :: (chunks.bytes ++ [breakByte])

/-- The content of a byte string. -/
def content : ByteString → Bytes
  | definite string => string.content
  | indefinite chunks => chunks.content

/-- The heads of the definite strings. -/
def heads : ByteString → List Head
  | definite string => [string.head]
  | indefinite chunks => chunks.heads

/-- No string begins where more than `maxDepth` indefinite ones are open. -/
def Nests : ByteString → Prop
  | definite _ => True
  | indefinite chunks => chunks.NestsIn 1

end ByteString

variable {depth : Nat} {first : UInt8} {input tail content rest rest' : Bytes}
  {string string' : DefiniteString} {chunks chunks' : Chunks} {bytes bytes' : ByteString}

/-! ## Definite strings -/

/-- No head begins with one of the marks. -/
lemma Head.bytes_eq_cons (h : Head) :
    ∃ first tail, h.bytes = first :: tail ∧ first ≠ openByte ∧ first ≠ breakByte := by
  have hlow := Width.lowBits_lt h.fits
  refine ⟨_, _, rfl, ?_, ?_⟩
  all_goals
    intro heq
    have hnat := congrArg UInt8.toNat heq
    rw [h.toNat_first] at hnat
  · have hopen : openByte.toNat = 95 := rfl
    omega
  · have hbreak : breakByte.toNat = 255 := rfl
    omega

/-- No definite string begins with one of the marks. -/
lemma DefiniteString.bytes_append_eq_cons (string : DefiniteString) (rest : Bytes) :
    ∃ first tail, string.bytes ++ rest = first :: tail ∧ first ≠ openByte ∧ first ≠ breakByte := by
  obtain ⟨first, tail, heq, hopen, hbreak⟩ := string.head.bytes_eq_cons
  refine ⟨first, tail ++ string.content ++ rest, ?_, hopen, hbreak⟩
  rw [bytes, heq, List.cons_append, List.cons_append]

/-- The reader gets the content of a definite string, whatever stands after it. -/
lemma definiteBytes?_bytes_append (hpasses : string.head.PassesFor bytesKind) (rest : Bytes) :
    definiteBytes? (string.bytes ++ rest) = some (string.content, rest) := by
  rw [DefiniteString.bytes, List.append_assoc, definiteBytes?, head?_bytes_append hpasses]
  exact split?_eq_some_iff.2 ⟨string.length_eq, rfl⟩

/-- What the reader takes for a definite string is spelled as one. -/
lemma exists_definiteString_of_definiteBytes?
    (hread : definiteBytes? input = some (content, rest)) :
    ∃ string : DefiniteString, string.head.PassesFor bytesKind ∧ string.content = content ∧
      string.bytes ++ rest = input := by
  obtain ⟨⟨argument, after⟩, hhead, hsplit⟩ := Option.bind_eq_some_iff.1 hread
  obtain ⟨h, hpasses, rfl, rfl⟩ := exists_head_of_head? hhead
  obtain ⟨hlength, rfl⟩ := split?_eq_some_iff.1 hsplit
  exact ⟨⟨h, content, hlength⟩, hpasses, rfl, List.append_assoc _ _ _⟩

/-- Two definite strings that begin one input are the same. -/
lemma DefiniteString.eq_of_bytes_append (heq : string.bytes ++ rest = string'.bytes ++ rest') :
    string = string' ∧ rest = rest' := by
  rw [bytes, bytes, List.append_assoc, List.append_assoc] at heq
  obtain ⟨hhead, htail⟩ := Head.eq_of_bytes_append heq
  have hlength : string.content.length = string'.content.length := by
    rw [string.length_eq, string'.length_eq, hhead]
  obtain ⟨hcontent, hrest⟩ := List.append_inj htail hlength
  exact ⟨DefiniteString.ext hhead hcontent, hrest⟩

/-! ## The steps of the reader -/

/-- With no string open there is nothing left to read. -/
lemma chunks?_zero (rest : Bytes) : chunks? 0 rest = some ([], rest) := by
  rw [chunks?]

/-- A closing mark leaves one string fewer open. -/
lemma chunks?_break (depth : Nat) (rest : Bytes) :
    chunks? (depth + 1) (breakByte :: rest) = chunks? depth rest := by
  rw [chunks?, if_pos rfl]

/-- An opening mark leaves one string more open. -/
lemma chunks?_open (hdepth : depth + 1 ≤ maxDepth) (rest : Bytes) :
    chunks? (depth + 1) (openByte :: rest) = chunks? (depth + 2) rest := by
  rw [chunks?, if_neg (by decide), if_neg (Nat.not_lt.2 hdepth), if_pos rfl]

/-- The content of a definite string comes before what is read after it. -/
lemma chunks?_definite (hdepth : depth + 1 ≤ maxDepth) (hopen : first ≠ openByte)
    (hbreak : first ≠ breakByte) (hread : definiteBytes? (first :: tail) = some (content, rest)) :
    chunks? (depth + 1) (first :: tail) =
      (chunks? (depth + 1) rest).map (Prod.map (content ++ ·) id) := by
  rw [chunks?, if_neg hbreak, if_neg (Nat.not_lt.2 hdepth), if_neg hopen]
  split
  · rename_i hnone
    rw [hread] at hnone
    cases hnone
  · rename_i hsome
    rw [hread] at hsome
    cases hsome
    cases chunks? (depth + 1) rest <;> rfl

/-- What the reader can have done first while strings are open. -/
lemma chunks?_cons_cases (hread : chunks? (depth + 1) (first :: tail) = some (content, rest)) :
    first = breakByte ∧ chunks? depth tail = some (content, rest) ∨
      depth + 1 ≤ maxDepth ∧
        (first = openByte ∧ chunks? (depth + 2) tail = some (content, rest) ∨
          ∃ front after more, definiteBytes? (first :: tail) = some (front, after) ∧
            chunks? (depth + 1) after = some (more, rest) ∧ front ++ more = content) := by
  rw [chunks?] at hread
  split at hread
  · exact .inl ⟨‹_›, hread⟩
  · split at hread
    · cases hread
    · refine .inr ⟨Nat.not_lt.1 ‹_›, ?_⟩
      split at hread
      · exact .inl ⟨‹_›, hread⟩
      · split at hread
        · cases hread
        · rename_i front after hsome
          cases hmore : chunks? (depth + 1) after with
          | none =>
            rw [hmore] at hread
            cases hread
          | some read =>
            rw [hmore] at hread
            cases hread
            exact .inr ⟨front, after, read.1, hsome, hmore, rfl⟩

/-! ## Sequences -/

/-- The reader gets the content of a sequence up to its mark, and goes on with one string fewer
open. -/
lemma chunks?_bytes_append (hpasses : ∀ h ∈ chunks.heads, h.PassesFor bytesKind)
    (hnests : chunks.NestsIn (depth + 1)) (rest : Bytes) :
    chunks? (depth + 1) (chunks.bytes ++ breakByte :: rest) =
      (chunks? depth rest).map (Prod.map (chunks.content ++ ·) id) := by
  induction chunks generalizing depth rest with
  | nil =>
    rw [Chunks.bytes, List.nil_append, chunks?_break]
    cases chunks? depth rest <;> rfl
  | definite string after ih =>
    obtain ⟨hdepth, hafter⟩ := hnests
    obtain ⟨hhead, hheads⟩ := List.forall_mem_cons.1 hpasses
    obtain ⟨first, tail, heq, hopen, hbreak⟩ :=
      string.bytes_append_eq_cons (after.bytes ++ breakByte :: rest)
    have hread := definiteBytes?_bytes_append hhead (after.bytes ++ breakByte :: rest)
    rw [Chunks.bytes, List.append_assoc]
    rw [heq] at hread ⊢
    rw [chunks?_definite hdepth hopen hbreak hread, ih hheads hafter, Option.map_map]
    refine congrArg (Option.map · (chunks? depth rest)) (funext fun read => ?_)
    exact Prod.ext (List.append_assoc _ _ _).symm rfl
  | indefinite inner after ihinner ihafter =>
    obtain ⟨hdepth, hinner, hafter⟩ := hnests
    obtain ⟨hinnerHeads, hafterHeads⟩ := List.forall_mem_append.1 hpasses
    rw [Chunks.bytes, List.cons_append, List.append_assoc, List.cons_append, chunks?_open hdepth,
      ihinner hinnerHeads hinner, ihafter hafterHeads hafter, Option.map_map]
    refine congrArg (Option.map · (chunks? depth rest)) (funext fun read => ?_)
    exact Prod.ext (List.append_assoc _ _ _).symm rfl

/-- What the reader takes up to the mark of the innermost open string is spelled as a sequence. -/
lemma exists_chunks_of_chunks? (hread : chunks? (depth + 1) input = some (content, rest)) :
    ∃ (chunks : Chunks) (after more : Bytes), (∀ h ∈ chunks.heads, h.PassesFor bytesKind) ∧
      chunks.NestsIn (depth + 1) ∧ chunks.bytes ++ breakByte :: after = input ∧
      chunks? depth after = some (more, rest) ∧ chunks.content ++ more = content := by
  induction hlength : input.length using Nat.strongRecOn
    generalizing input depth content with
  | _ length ih =>
  subst hlength
  cases input with
  | nil =>
    rw [chunks?] at hread
    cases hread
  | cons first tail =>
    rcases chunks?_cons_cases hread with
      ⟨rfl, hbody⟩ | ⟨hdepth, ⟨rfl, hbody⟩ | ⟨front, after, more, hfront, hbody, rfl⟩⟩
    · exact ⟨.nil, tail, content, List.forall_mem_nil _, trivial, rfl, hbody, rfl⟩
    · -- The string that opens here is read up to its own mark, and then the rest of this one.
      obtain ⟨inner, after, more, hinnerHeads, hinner, rfl, hafter, rfl⟩ :=
        ih tail.length (Nat.lt_succ_self _) hbody rfl
      have hlt : after.length < (openByte :: (inner.bytes ++ breakByte :: after)).length := by
        simp only [List.length_cons, List.length_append]
        omega
      obtain ⟨chunks, after', more', hheads, hchunks, rfl, hrest, rfl⟩ := ih _ hlt hafter rfl
      exact ⟨.indefinite inner chunks, after', more',
        List.forall_mem_append.2 ⟨hinnerHeads, hheads⟩, ⟨hdepth, hinner, hchunks⟩,
        by simp only [Chunks.bytes, List.cons_append, List.append_assoc], hrest,
        List.append_assoc _ _ _⟩
    · obtain ⟨string, hhead, rfl, heq⟩ := exists_definiteString_of_definiteBytes? hfront
      obtain ⟨chunks, after', more', hheads, hchunks, rfl, hrest, rfl⟩ :=
        ih _ (length_of_definiteBytes? hfront) hbody rfl
      exact ⟨.definite string chunks, after', more', List.forall_mem_cons.2 ⟨hhead, hheads⟩,
        ⟨hdepth, hchunks⟩, (List.append_assoc _ _ _).trans heq, hrest, List.append_assoc _ _ _⟩

/-- Two sequences that stand before a mark at the beginning of one input are the same. -/
lemma Chunks.eq_of_bytes_append
    (heq : chunks.bytes ++ breakByte :: rest = chunks'.bytes ++ breakByte :: rest') :
    chunks = chunks' ∧ rest = rest' := by
  -- The first byte tells which of the three forms begins there, on both sides.
  induction chunks generalizing chunks' rest rest' with
  | nil =>
    cases chunks' with
    | nil => exact ⟨rfl, (List.cons.inj heq).2⟩
    | definite string' after' =>
      obtain ⟨first, tail, hcons, -, hbreak⟩ :=
        string'.bytes_append_eq_cons (after'.bytes ++ breakByte :: rest')
      rw [bytes, bytes, List.append_assoc, hcons] at heq
      exact absurd (List.cons.inj heq).1.symm hbreak
    | indefinite inner' after' => exact absurd (List.cons.inj heq).1 (by decide)
  | definite string after ih =>
    obtain ⟨first, tail, hcons, hopen, hbreak⟩ :=
      string.bytes_append_eq_cons (after.bytes ++ breakByte :: rest)
    cases chunks' with
    | nil =>
      rw [bytes, bytes, List.append_assoc, hcons] at heq
      exact absurd (List.cons.inj heq).1 hbreak
    | definite string' after' =>
      rw [bytes, bytes, List.append_assoc, List.append_assoc] at heq
      obtain ⟨rfl, htail⟩ := DefiniteString.eq_of_bytes_append heq
      obtain ⟨rfl, hrest⟩ := ih htail
      exact ⟨rfl, hrest⟩
    | indefinite inner' after' =>
      rw [bytes, bytes, List.append_assoc, hcons] at heq
      exact absurd (List.cons.inj heq).1 hopen
  | indefinite inner after ihinner ihafter =>
    cases chunks' with
    | nil => exact absurd (List.cons.inj heq).1 (by decide)
    | definite string' after' =>
      obtain ⟨first, tail, hcons, hopen, -⟩ :=
        string'.bytes_append_eq_cons (after'.bytes ++ breakByte :: rest')
      rw [bytes, bytes, List.append_assoc, hcons] at heq
      exact absurd (List.cons.inj heq).1.symm hopen
    | indefinite inner' after' =>
      rw [bytes, bytes, List.cons_append, List.cons_append, List.append_assoc, List.append_assoc,
        List.cons_append, List.cons_append] at heq
      have htail := (List.cons.inj heq).2
      obtain ⟨rfl, hafter⟩ := ihinner htail
      obtain ⟨rfl, hrest⟩ := ihafter hafter
      exact ⟨rfl, hrest⟩

/-! ## Byte strings -/

/-- The bytes of an indefinite string and what stands after it. -/
lemma ByteString.bytes_indefinite_append (chunks : Chunks) (rest : Bytes) :
    (indefinite chunks).bytes ++ rest = openByte :: (chunks.bytes ++ breakByte :: rest) := by
  rw [bytes, List.cons_append, List.append_assoc, List.singleton_append]

/-- The reader gets the content of a byte string, whatever stands after it. -/
lemma bytes?_bytes_append (hpasses : ∀ h ∈ bytes.heads, h.PassesFor bytesKind)
    (hnests : bytes.Nests) (rest : Bytes) :
    bytes? (bytes.bytes ++ rest) = some (bytes.content, rest) := by
  cases bytes with
  | definite string =>
    obtain ⟨first, tail, heq, hopen, -⟩ := string.bytes_append_eq_cons rest
    have hread := definiteBytes?_bytes_append (hpasses _ (List.mem_singleton_self _)) rest
    rw [ByteString.bytes]
    rw [heq] at hread ⊢
    rw [bytes?, if_neg hopen, hread]
    rfl
  | indefinite chunks =>
    rw [ByteString.bytes_indefinite_append, bytes?, if_pos rfl,
      chunks?_bytes_append hpasses hnests, chunks?_zero, Option.map_some]
    exact congrArg (fun content => some (content, rest)) (List.append_nil chunks.content)

/-- What the reader takes for a byte string is spelled as one. -/
lemma exists_byteString_of_bytes? (hread : bytes? input = some (content, rest)) :
    ∃ bytes : ByteString, (∀ h ∈ bytes.heads, h.PassesFor bytesKind) ∧ bytes.Nests ∧
      bytes.content = content ∧ bytes.bytes ++ rest = input := by
  cases input with
  | nil => cases hread
  | cons first tail =>
    rw [bytes?] at hread
    split at hread
    · rename_i hopen
      obtain ⟨chunks, after, more, hheads, hnests, rfl, hafter, rfl⟩ :=
        exists_chunks_of_chunks? hread
      rw [chunks?_zero] at hafter
      cases hafter
      refine ⟨.indefinite chunks, hheads, hnests, (List.append_nil _).symm, ?_⟩
      rw [ByteString.bytes_indefinite_append, hopen]
    · obtain ⟨string, hhead, rfl, heq⟩ := exists_definiteString_of_definiteBytes? hread
      exact ⟨.definite string, List.forall_mem_singleton.2 hhead, trivial, rfl, heq⟩

/-- Two byte strings that begin one input are the same. -/
lemma ByteString.eq_of_bytes_append (heq : bytes.bytes ++ rest = bytes'.bytes ++ rest') :
    bytes = bytes' ∧ rest = rest' := by
  cases bytes with
  | definite string =>
    cases bytes' with
    | definite string' =>
      obtain ⟨rfl, hrest⟩ := DefiniteString.eq_of_bytes_append heq
      exact ⟨rfl, hrest⟩
    | indefinite chunks' =>
      obtain ⟨first, tail, hcons, hopen, -⟩ := string.bytes_append_eq_cons rest
      rw [bytes_indefinite_append, ByteString.bytes, hcons] at heq
      exact absurd (List.cons.inj heq).1 hopen
  | indefinite chunks =>
    rw [bytes_indefinite_append] at heq
    cases bytes' with
    | definite string' =>
      obtain ⟨first, tail, hcons, hopen, -⟩ := string'.bytes_append_eq_cons rest'
      rw [ByteString.bytes, hcons] at heq
      exact absurd (List.cons.inj heq).1.symm hopen
    | indefinite chunks' =>
      rw [bytes_indefinite_append] at heq
      obtain ⟨rfl, hrest⟩ := Chunks.eq_of_bytes_append (List.cons.inj heq).2
      exact ⟨rfl, hrest⟩

end PieceReplication.Cbor
