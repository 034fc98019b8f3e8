import Mathlib.Data.List.Induction
import Mathlib.Data.Nat.Digits.Defs
import Mathlib.Tactic.Common
import PieceReplication.Text.Integer

/-!
# Which texts are integers

`Denotes` says what the text of an integer is without saying how to read one: an optional sign and
the characters of at least one decimal digit, the number being the value of the digits.  The readers
of unsigned and signed numbers succeed on exactly these texts, and those of a type on the ones whose
number has 64 bits.
-/

namespace PieceReplication.Integer

/-- A text is that of a number: an optional sign, `-` only where numbers are signed, and one or more
digits. -/
inductive Denotes (signed : Bool) : List Char → Int → Prop
  | plain {digits : List Nat} (hne : digits ≠ []) (hlt : ∀ digit ∈ digits, digit < 10) :
      Denotes signed (digits.map Nat.digitChar) (Nat.ofDigits 10 digits.reverse : Nat)
  | plus {digits : List Nat} (hne : digits ≠ []) (hlt : ∀ digit ∈ digits, digit < 10) :
      Denotes signed ('+' :: digits.map Nat.digitChar) (Nat.ofDigits 10 digits.reverse : Nat)
  | minus {digits : List Nat} (hsigned : signed = true) (hne : digits ≠ [])
      (hlt : ∀ digit ∈ digits, digit < 10) :
      Denotes signed ('-' :: digits.map Nat.digitChar) (-(Nat.ofDigits 10 digits.reverse : Nat))

variable {c : Char} {digit n : Nat} {digits : List Nat} {chars : List Char} {text : String}
  {signed : Bool} {k : Int}

/-! ## Digits -/

/-- The character of a digit is one of the ten. -/
lemma isDigit_digitChar (hlt : digit < 10) : isDigit digit.digitChar = true := by
  revert digit
  decide

/-- The characters of the digits are in the order of their numbers. -/
lemma toNat_digitChar (hlt : digit < 10) : digit.digitChar.toNat = 48 + digit := by
  revert digit
  decide

/-- One of the ten characters is that of a digit. -/
lemma exists_digit_of_isDigit (h : isDigit c = true) : ∃ digit < 10, digit.digitChar = c := by
  rw [isDigit, Bool.and_eq_true, decide_eq_true_eq, decide_eq_true_eq] at h
  have hlow : 48 ≤ c.toNat := h.1
  have hhigh : c.toNat ≤ 57 := h.2
  have hlt : c.toNat - 48 < 10 := by omega
  refine ⟨c.toNat - 48, hlt, Char.toNat_inj.1 ?_⟩
  rw [toNat_digitChar hlt]
  omega

/-- A further digit multiplies what stands before it by ten. -/
lemma digitsValue_append_singleton (chars : List Char) (c : Char) :
    digitsValue (chars ++ [c]) = 10 * digitsValue chars + (c.toNat - 48) := by
  rw [digitsValue, digitsValue, List.foldl_append, List.foldl_cons, List.foldl_nil]

/-- The characters of digits have their value. -/
lemma digitsValue_map (hlt : ∀ digit ∈ digits, digit < 10) :
    digitsValue (digits.map Nat.digitChar) = Nat.ofDigits 10 digits.reverse := by
  induction digits using List.reverseRecOn with
  | nil => rfl
  | append_singleton digits digit ih =>
    have hlast : digit < 10 := hlt digit (List.mem_append_right _ (List.mem_singleton_self _))
    rw [List.map_append, List.map_singleton, digitsValue_append_singleton, toNat_digitChar hlast,
      ih fun d hd => hlt d (List.mem_append_left _ hd), List.reverse_append,
      List.reverse_singleton, List.singleton_append, Nat.ofDigits_cons, Nat.add_sub_cancel_left,
      Nat.add_comm]

/-- The ten characters are those of digits. -/
lemma exists_digits_of_all (h : chars.all isDigit = true) :
    ∃ digits : List Nat, (∀ digit ∈ digits, digit < 10) ∧ digits.map Nat.digitChar = chars := by
  induction chars with
  | nil => exact ⟨[], List.forall_mem_nil _, rfl⟩
  | cons c chars ih =>
    rw [List.all_cons, Bool.and_eq_true] at h
    obtain ⟨digit, hlt, rfl⟩ := exists_digit_of_isDigit h.1
    obtain ⟨digits, hdigits, rfl⟩ := ih h.2
    exact ⟨digit :: digits, List.forall_mem_cons.2 ⟨hlt, hdigits⟩, rfl⟩

/-- One or more digits are read, and nothing else is. -/
lemma digits?_eq_some_iff :
    digits? chars = some n ↔ ∃ digits : List Nat, digits ≠ [] ∧ (∀ digit ∈ digits, digit < 10) ∧
      digits.map Nat.digitChar = chars ∧ Nat.ofDigits 10 digits.reverse = n := by
  unfold digits?
  constructor
  · intro hread
    split at hread
    · rename_i hdigits
      obtain ⟨digits, hlt, rfl⟩ := exists_digits_of_all hdigits.2
      rw [digitsValue_map hlt] at hread
      exact ⟨digits, fun hnil => hdigits.1 (by rw [hnil]; rfl), hlt, rfl, Option.some.inj hread⟩
    · cases hread
  · rintro ⟨digits, hne, hlt, rfl, rfl⟩
    have hall : (digits.map Nat.digitChar).all isDigit = true := by
      rw [List.all_map, List.all_eq_true]
      exact fun digit hmem => isDigit_digitChar (hlt digit hmem)
    rw [if_pos ⟨fun hnil => hne (List.map_eq_nil_iff.1 hnil), hall⟩, digitsValue_map hlt]

/-- A sign is no digit. -/
lemma digits?_cons_of_not (h : isDigit c = false) : digits? (c :: chars) = none := by
  rw [digits?, List.all_cons, h, if_neg]
  rintro ⟨-, ⟨⟩⟩

/-! ## Signs -/

/-- The text of a number is a sign and digits as the reader of digits reads them. -/
lemma denotes_iff :
    Denotes signed chars k ↔
      (∃ n : Nat, digits? chars = some n ∧ k = n) ∨
      (∃ rest, ∃ n : Nat, chars = '+' :: rest ∧ digits? rest = some n ∧ k = n) ∨
      signed = true ∧ ∃ rest, ∃ n : Nat, chars = '-' :: rest ∧ digits? rest = some n ∧ k = -n := by
  constructor
  · intro h
    cases h with
    | plain hne hlt => exact .inl ⟨_, digits?_eq_some_iff.2 ⟨_, hne, hlt, rfl, rfl⟩, rfl⟩
    | plus hne hlt =>
      exact .inr (.inl ⟨_, _, rfl, digits?_eq_some_iff.2 ⟨_, hne, hlt, rfl, rfl⟩, rfl⟩)
    | minus hsigned hne hlt =>
      exact .inr (.inr ⟨hsigned, _, _, rfl, digits?_eq_some_iff.2 ⟨_, hne, hlt, rfl, rfl⟩, rfl⟩)
  · rintro (⟨n, hread, rfl⟩ | ⟨rest, n, rfl, hread, rfl⟩ | ⟨hsigned, rest, n, rfl, hread, rfl⟩) <;>
      obtain ⟨digits, hne, hlt, rfl, rfl⟩ := digits?_eq_some_iff.1 hread
    · exact .plain hne hlt
    · exact .plus hne hlt
    · exact .minus hsigned hne hlt

/-- Without a `-` no number is negative. -/
lemma Denotes.exists_nat (h : Denotes false chars k) : ∃ n : Nat, k = n := by
  rcases denotes_iff.1 h with ⟨n, -, heq⟩ | ⟨-, n, -, -, heq⟩ | ⟨⟨⟩, -⟩
  · exact ⟨n, heq⟩
  · exact ⟨n, heq⟩

/-- The reader of unsigned numbers reads their texts. -/
lemma unsigned?_eq_some_iff : unsigned? chars = some n ↔ Denotes false chars n := by
  rw [denotes_iff]
  constructor
  · intro hread
    unfold unsigned? at hread
    split at hread
    · exact .inr (.inl ⟨_, n, rfl, hread, rfl⟩)
    · exact .inl ⟨n, hread, rfl⟩
  · rintro (⟨m, hread, heq⟩ | ⟨rest, m, rfl, hread, heq⟩ | ⟨⟨⟩, -⟩)
    · rw [Int.ofNat.inj heq]
      unfold unsigned?
      split
      · rw [digits?_cons_of_not (by rfl)] at hread
        cases hread
      · exact hread
    · rw [Int.ofNat.inj heq]
      exact hread

/-- The reader of signed numbers reads their texts. -/
lemma signed?_eq_some_iff : signed? chars = some k ↔ Denotes true chars k := by
  rw [denotes_iff]
  constructor
  · intro hread
    unfold signed? at hread
    split at hread
    · obtain ⟨value, hvalue, rfl⟩ := Option.map_eq_some_iff.1 hread
      obtain ⟨n, hdigits, hcast⟩ := Option.bind_eq_some_iff.1 hvalue
      cases hcast
      exact .inr (.inr ⟨rfl, _, n, rfl, hdigits, rfl⟩)
    · obtain ⟨n, hunsigned, rfl⟩ := Option.map_eq_some_iff.1 hread
      rcases denotes_iff.1 (unsigned?_eq_some_iff.1 hunsigned) with hplain | hplus | ⟨⟨⟩, -⟩
      · exact .inl hplain
      · exact .inr (.inl hplus)
  · intro h
    unfold signed?
    split
    · rename_i rest
      rcases h with ⟨n, hread, -⟩ | ⟨rest', n, ⟨⟩, -⟩ | ⟨-, rest', n, heq, hread, rfl⟩
      · rw [digits?_cons_of_not (by rfl)] at hread
        cases hread
      · cases heq
        rw [hread]
        rfl
    · rename_i hnot
      rcases h with ⟨n, hread, rfl⟩ | ⟨rest, n, rfl, hread, rfl⟩ | ⟨-, rest, n, rfl, -⟩
      · rw [unsigned?_eq_some_iff.2 (denotes_iff.2 (.inl ⟨n, hread, rfl⟩))]
        rfl
      · rw [unsigned?_eq_some_iff.2 (denotes_iff.2 (.inr (.inl ⟨rest, n, rfl, hread, rfl⟩)))]
        rfl
      · exact absurd rfl (hnot rest)

/-- A text is that of one number. -/
lemma Denotes.unique {k' : Int} (h : Denotes signed chars k) (h' : Denotes signed chars k') :
    k = k' := by
  cases signed with
  | true => exact Option.some.inj ((signed?_eq_some_iff.2 h).symm.trans (signed?_eq_some_iff.2 h'))
  | false =>
    obtain ⟨n, rfl⟩ := h.exists_nat
    obtain ⟨n', rfl⟩ := h'.exists_nat
    exact congrArg _ (Option.some.inj
      ((unsigned?_eq_some_iff.2 h).symm.trans (unsigned?_eq_some_iff.2 h')))

/-! ## Numbers of 64 bits -/

/-- An unsigned number of 64 bits is read from its texts. -/
lemma uint64?_eq_some_iff {m : UInt64} :
    uint64? text = some m ↔ Denotes false text.toList m.toNat := by
  rw [← unsigned?_eq_some_iff]
  constructor
  · intro hread
    obtain ⟨n, hn, hread⟩ := Option.bind_eq_some_iff.1 hread
    split at hread
    · cases hread
      rw [hn, UInt64.toNat_ofNat_of_lt' ‹_›]
    · cases hread
  · intro hread
    rw [uint64?, hread]
    exact (if_pos m.toNat_lt).trans (congrArg some UInt64.ofNat_toNat)

/-- A signed number of 64 bits is read from its texts. -/
lemma int64?_eq_some_iff {m : Int64} :
    int64? text = some m ↔ Denotes true text.toList m.toInt := by
  rw [← signed?_eq_some_iff]
  constructor
  · intro hread
    obtain ⟨n, hn, hread⟩ := Option.bind_eq_some_iff.1 hread
    split at hread
    · rename_i hrange
      cases hread
      rw [hn, Int64.toInt_ofInt_of_le hrange.1 (Int.lt_add_one_of_le hrange.2)]
    · cases hread
  · intro hread
    rw [int64?, hread]
    exact (if_pos ⟨m.minValue_le_toInt, m.toInt_le⟩).trans (congrArg some (Int64.ofInt_toInt m))

end PieceReplication.Integer
