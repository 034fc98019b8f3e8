import PieceReplication.Proofs.Random.Uniform
import PieceReplication.Proofs.Run.Replies
import PieceReplication.Random.Generator
import PieceReplication.Schedule.Retrieval

/-!
# The choice of a provider is uniform

A draw picks one of the records under which a piece can be retrieved (`Piece.pick?`), and each of
these records has the same number of draws, since no two choices are the same record
(`Piece.card_picks`).  A generator goes through the draws of its stream until one counts
(`Generator.choose64?_eq_some`), and the retrieval phase takes the record that this draw picks.
-/

namespace PieceReplication

/-! ## The first draw that counts -/

namespace Generator

variable {g : Generator} {n k fuel i : Nat}

/-- The generator after a number of draws. -/
def skip (g : Generator) (k : Nat) : Generator :=
  { g with taken := g.taken + 2 * k }

/-- The draw of 64 bits that comes after a number of others. -/
def draw (g : Generator) (k : Nat) : UInt64 :=
  (g.skip k).next64.1

/-- The draws after the first one are those of the generator after it. -/
lemma draw_succ : g.draw (k + 1) = (g.skip 1).draw k := by
  have hskip : g.skip (k + 1) = (g.skip 1).skip k := by
    simp only [skip, Generator.mk.injEq, true_and]
    omega
  rw [draw, hskip, draw]

/-- A draw that counts makes the choice. -/
lemma choose64?_of_counts (hn : 0 < n)
    (hcounts : Uniform.choice? 64 n (g.draw 0).toNat = some i) :
    ∃ choice, choose64? n hn (fuel + 1) g = some (choice, g.skip 1) ∧ choice.val = i := by
  have hnext : g.next64 = (g.draw 0, g.skip 1) := rfl
  rw [choose64?, hnext]
  simp only
  split
  · next found hfound =>
    exact ⟨_, rfl, Option.some.inj (hfound.symm.trans hcounts)⟩
  · next hnone => cases hnone.symm.trans hcounts

/-- A draw that does not count is followed by the next one. -/
lemma choose64?_of_not_counts (hn : 0 < n)
    (hnone : Uniform.choice? 64 n (g.draw 0).toNat = none) :
    choose64? n hn (fuel + 1) g = choose64? n hn fuel (g.skip 1) := by
  have hnext : g.next64 = (g.draw 0, g.skip 1) := rfl
  rw [choose64?, hnext]
  simp only
  split
  · next found hfound => cases hfound.symm.trans hnone
  · rfl

/-- The choice is that of the first draw that counts. -/
lemma choose64?_eq_some (hn : 0 < n) (hfuel : k < fuel)
    (hbefore : ∀ j < k, Uniform.choice? 64 n (g.draw j).toNat = none)
    (hcounts : Uniform.choice? 64 n (g.draw k).toNat = some i) :
    ∃ choice g', choose64? n hn fuel g = some (choice, g') ∧ choice.val = i := by
  induction k generalizing g fuel with
  | zero =>
    obtain ⟨fuel, rfl⟩ := Nat.exists_eq_succ_of_ne_zero hfuel.ne'
    obtain ⟨choice, hchoice, heq⟩ := choose64?_of_counts hn hcounts
    exact ⟨choice, _, hchoice, heq⟩
  | succ k ih =>
    obtain ⟨fuel, rfl⟩ := Nat.exists_eq_succ_of_ne_zero (Nat.ne_zero_of_lt hfuel)
    rw [choose64?_of_not_counts hn (hbefore 0 (Nat.succ_pos k))]
    refine ih (Nat.lt_of_succ_lt_succ hfuel) (fun j hj => ?_) (draw_succ ▸ hcounts)
    exact draw_succ ▸ hbefore (j + 1) (Nat.succ_lt_succ hj)

end Generator

/-- The choice under a fixed seed is that of the first draw of its stream that counts. -/
lemma chooseProvider_eq {text : Option String} {n k i : Nat} {hpos : 0 < n}
    (hperiod : k < Generator.period)
    (hbefore : ∀ j < k,
      Uniform.choice? 64 n ((Generator.ofSeed (fixedSeed text)).draw j).toNat = none)
    (hcounts : Uniform.choice? 64 n ((Generator.ofSeed (fixedSeed text)).draw k).toNat = some i) :
    (chooseProvider text n hpos).val = i := by
  obtain ⟨choice, g', hchoice, heq⟩ := Generator.choose64?_eq_some hpos hperiod hbefore hcounts
  -- as a function: applied, the kernel would run through the stream to compare both sides
  have hdef : chooseProvider = fun text n pos =>
      ((Generator.ofSeed (fixedSeed text)).range64 n pos).1 := rfl
  rw [hdef]
  simp only [Generator.range64, hchoice, Option.getD_some, heq]

/-! ## The record that a draw picks -/

namespace Piece

variable {piece : Piece} {index : Fin piece.records.length} {draw : Nat}

/-- The index of the record that a draw of 64 bits picks, if the draw counts. -/
def pick? (piece : Piece) (draw : Nat) : Option (Fin piece.records.length) :=
  (Uniform.choice? 64 piece.retrievable.length draw).bind fun i => piece.retrievable[i]?

/-- The records under which a piece can be retrieved are each listed once. -/
lemma nodup_retrievable : piece.retrievable.Nodup :=
  (List.nodup_finRange _).filter _

/-- A record is listed if the piece can be retrieved under it. -/
lemma mem_retrievable :
    index ∈ piece.retrievable ↔ (piece.records.get index).isRetrievable = true := by
  rw [retrievable, List.mem_filter]
  exact and_iff_right (List.mem_finRange index)

/-- The record of a choice is the one at its place. -/
lemma get_retrievable {choice : Fin piece.retrievable.length}
    (hindex : piece.retrievable[choice.val]? = some index) :
    piece.retrievable.get choice = index :=
  Option.some.inj ((List.getElem?_eq_getElem choice.isLt).symm.trans hindex)

/-- A draw picks the record at the place of its choice. -/
lemma pick?_eq_some_iff {i : Nat} (hindex : piece.retrievable[i]? = some index) :
    piece.pick? draw = some index ↔
      Uniform.choice? 64 piece.retrievable.length draw = some i := by
  rw [pick?, Option.bind_eq_some_iff]
  constructor
  · rintro ⟨j, hchoice, hj⟩
    have hlt : i < piece.retrievable.length := (List.getElem?_eq_some_iff.1 hindex).1
    have heq : i = j := (List.getElem?_inj hlt nodup_retrievable).1 (hindex.trans hj.symm)
    rw [hchoice, heq]
  · exact fun hchoice => ⟨i, hchoice, hindex⟩

/-- A draw that counts picks a record under which the piece can be retrieved. -/
lemma exists_pick? (hdraw : draw < UInt64.size) (hpos : 0 < piece.retrievable.length) {i : Nat}
    (hchoice : Uniform.choice? 64 piece.retrievable.length draw = some i) :
    i < piece.retrievable.length ∧ ∃ index, piece.retrievable[i]? = some index ∧
      piece.pick? draw = some index ∧ (piece.records.get index).isRetrievable = true := by
  have hi : i < piece.retrievable.length := Uniform.lt_of_choice? hdraw hpos hchoice
  have hplace := List.getElem?_eq_getElem hi
  exact ⟨hi, _, hplace, (pick?_eq_some_iff hplace).2 hchoice,
    mem_retrievable.1 (List.getElem_mem hi)⟩

/-- A draw that picks no record does not count. -/
lemma choice?_eq_none_of_pick? (hdraw : draw < UInt64.size) (hpos : 0 < piece.retrievable.length)
    (hnone : piece.pick? draw = none) :
    Uniform.choice? 64 piece.retrievable.length draw = none := by
  refine Option.eq_none_iff_forall_ne_some.2 fun i hchoice => ?_
  obtain ⟨-, index, -, hpick, -⟩ := exists_pick? hdraw hpos hchoice
  cases hnone.symm.trans hpick

/-- The draws that pick a record. -/
def picks (piece : Piece) (index : Fin piece.records.length) : Finset Nat :=
  (Finset.range UInt64.size).filter fun draw => piece.pick? draw = some index

/-- Each record has the same number of draws. -/
lemma card_picks (hlt : piece.retrievable.length < UInt64.size)
    (hindex : (piece.records.get index).isRetrievable = true) :
    (piece.picks index).card = Uniform.share 64 piece.retrievable.length := by
  obtain ⟨i, hi, hget⟩ := List.getElem_of_mem (mem_retrievable.2 hindex)
  have hplace : piece.retrievable[i]? = some index := hget ▸ List.getElem?_eq_getElem hi
  have hpicks : piece.picks index = Uniform.draws 64 piece.retrievable.length i :=
    Finset.filter_congr fun draw _ => pick?_eq_some_iff hplace
  rw [hpicks, Uniform.card_draws hlt hi]

end Piece

/-! ## The record that the retrieval phase takes -/

/-- The retrieval phase takes the record at the place of the choice that its surroundings make. -/
lemma Retrieval.execute_chooseRecord {σ : Type} (setup : Setup) (piece : Piece)
    (hpos : 0 < piece.retrievable.length) (w : Worker) (surroundings : Surroundings σ)
    (isStopping : Bool) (state : σ) :
    ((chooseRecord setup piece).execute surroundings isStopping state w).halt =
      .done (.ok (some (piece.retrievable.get (surroundings.choose state _ hpos).1)), w) := by
  rw [chooseRecord, dif_pos hpos, reportSeed]
  split
  · rfl
  · split
    · rfl
    · rfl

/-- **Uniformity of the choice.**  For a piece that can be retrieved under `n` records the zone is
computed without an overflow or an underflow; each draw that counts makes one of the `n` choices and
so picks one of these records; each of them is picked by the same number of draws, which is a power
of two, so none is out of reach; and at least half of the draws count.  Under a fixed seed the
retrieval phase takes the record that the first draw that counts picks. -/
theorem Piece.choice_uniform (piece : Piece) (hpos : 0 < piece.retrievable.length)
    (hlt : piece.retrievable.length < UInt64.size) :
    (Uniform.zone 64 piece.retrievable.length + 1 =
        piece.retrievable.length <<< Uniform.leadingZeros 64 piece.retrievable.length ∧
      piece.retrievable.length <<< Uniform.leadingZeros 64 piece.retrievable.length <
        UInt64.size ∧
      UInt64.size ≤
        2 * piece.retrievable.length <<< Uniform.leadingZeros 64 piece.retrievable.length) ∧
    (∀ draw < UInt64.size, ∀ i, Uniform.choice? 64 piece.retrievable.length draw = some i →
      i < piece.retrievable.length ∧ ∃ index, piece.retrievable[i]? = some index ∧
        piece.pick? draw = some index ∧ (piece.records.get index).isRetrievable = true) ∧
    (∀ index, (piece.records.get index).isRetrievable = true →
      (piece.picks index).card = 2 ^ Uniform.leadingZeros 64 piece.retrievable.length) ∧
    UInt64.size ≤ 2 * ((Finset.range UInt64.size).filter fun draw =>
      (Uniform.choice? 64 piece.retrievable.length draw).isSome).card ∧
    ∀ (setup : Setup) (w : Worker) {σ : Type} (surroundings : Surroundings σ) (isStopping : Bool)
      (state : σ) (k : Nat) (index : Fin piece.records.length),
      (∀ state n pos, (surroundings.choose state n pos).1 = chooseProvider setup.seed n pos) →
      k < Generator.period →
      (∀ j < k, piece.pick? ((Generator.ofSeed (fixedSeed setup.seed)).draw j).toNat = none) →
      piece.pick? ((Generator.ofSeed (fixedSeed setup.seed)).draw k).toNat = some index →
      ((Retrieval.chooseRecord setup piece).execute surroundings isStopping state w).halt =
        .done (.ok (some index), w) := by
  have hword : piece.retrievable.length < 2 ^ 64 := hlt
  obtain ⟨hfits, hhalf⟩ := Uniform.mul_share_bounds hpos hword
  have hshift : piece.retrievable.length <<< Uniform.leadingZeros 64 piece.retrievable.length =
      piece.retrievable.length * Uniform.share 64 piece.retrievable.length :=
    Nat.shiftLeft_eq _ _
  have hzone : 0 < piece.retrievable.length * Uniform.share 64 piece.retrievable.length :=
    Nat.mul_pos hpos (Nat.two_pow_pos _)
  refine ⟨?_, fun draw hdraw i => exists_pick? hdraw hpos, fun index => card_picks hlt, ?_, ?_⟩
  · rw [hshift, Uniform.zone_eq]
    exact ⟨Nat.sub_add_cancel hzone, hfits, hhalf⟩
  · exact (Uniform.card_counting hpos hword).symm ▸ hhalf
  · intro setup w σ surroundings isStopping state k index hchoose hperiod hbefore hpick
    obtain ⟨i, hchoice, hplace⟩ := Option.bind_eq_some_iff.1 hpick
    have hnone : ∀ j < k, Uniform.choice? 64 piece.retrievable.length
        ((Generator.ofSeed (fixedSeed setup.seed)).draw j).toNat = none := fun j hj =>
      choice?_eq_none_of_pick? (UInt64.toNat_lt_size _) hpos (hbefore j hj)
    have hi : (chooseProvider setup.seed _ hpos).val = i :=
      chooseProvider_eq hperiod hnone hchoice
    rw [Retrieval.execute_chooseRecord setup piece hpos, hchoose, get_retrievable (hi ▸ hplace)]

/-- A piece that is known by four deals, one of which was never proved. -/
def Sample.sharedPiece : Piece where
  records := [1, 2, 3, 4].map fun dealId =>
    ⟨dealId, ⟨⟨"piece"⟩, 0, false, ⟨"client"⟩, ⟨"provider"⟩, "", 0, 0⟩, ⟨⟨"root"⟩, ""⟩,
      ⟨if dealId = 2 then -1 else 1, 0, 0⟩, 0⟩

theorem Piece.choice_uniform_shared :
    0 < Sample.sharedPiece.retrievable.length ∧
      Sample.sharedPiece.retrievable.length < UInt64.size ∧
      (Sample.sharedPiece.picks ⟨0, by decide⟩).card = 1 <<< 62 ∧
      (Sample.sharedPiece.picks ⟨2, by decide⟩).card = 1 <<< 62 ∧
      (Sample.sharedPiece.picks ⟨3, by decide⟩).card = 1 <<< 62 := by
  have hthree : Sample.sharedPiece.retrievable.length = 3 := by decide
  have hpos : 0 < Sample.sharedPiece.retrievable.length := hthree ▸ by decide
  have hlt : Sample.sharedPiece.retrievable.length < UInt64.size := hthree ▸ by decide
  have hshare : 2 ^ Uniform.leadingZeros 64 Sample.sharedPiece.retrievable.length = 1 <<< 62 := by
    rw [hthree]
    decide
  obtain ⟨-, -, hpicks, -⟩ := choice_uniform Sample.sharedPiece hpos hlt
  exact ⟨hpos, hlt, (hpicks _ (by decide)).trans hshare, (hpicks _ (by decide)).trans hshare,
    (hpicks _ (by decide)).trans hshare⟩

end PieceReplication
