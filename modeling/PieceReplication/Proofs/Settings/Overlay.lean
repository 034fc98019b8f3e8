import Mathlib.Data.Option.Basic
import Mathlib.Tactic.Common
import PieceReplication.Proofs.Text.Integers
import PieceReplication.Settings.Environment

/-!
# Settings and the variables that override them

Each of the six variables has a setting, a type and values that it admits.  `Variable.Reads` says
which byte strings are values of a variable and of which number; with the variable at such a value
the setting is that number, and with any other value, or none, it stays as it was.  So a variable
bears on its own setting only, what it does does not depend on the setting before it, and overriding
twice is overriding once.
-/

namespace PieceReplication

/-! ## What the variables stand for -/

namespace Variable

/-- Whether the setting is a signed number. -/
def signed : Variable → Bool
  | scanStart => true
  | _ => false

/-- The numbers of the setting's type, which has 64 bits. -/
def Fits (v : Variable) (n : Int) : Prop :=
  if v.signed = true then -2 ^ 63 ≤ n ∧ n < 2 ^ 63 else 0 ≤ n ∧ n < 2 ^ 64

/-- The numbers that the setting admits. -/
def Admits : Variable → Int → Prop
  | loopWait, n => 0 < n
  | retrieveParallel, n => 0 < n
  | dealParallel, n => 0 < n
  | retrieveTryMax, _ => True
  | scanStart, n => 0 ≤ n
  | inventoryCapacity, n => n ≠ 0

/-- A text is a value of the variable: that of a number of its type which the setting admits. -/
def Accepts (v : Variable) (text : String) (n : Int) : Prop :=
  Integer.Denotes v.signed text.toList n ∧ v.Fits n ∧ v.Admits n

/-- A byte string is a value of the variable if it is the bytes of a text that is. -/
def Reads (v : Variable) (value : Bytes) (n : Int) : Prop :=
  ∃ text, value = Bytes.ofText text ∧ v.Accepts text n

/-- The pause is given in seconds and kept in milliseconds. -/
def scale : Variable → Int
  | loopWait => 1000
  | _ => 1

end Variable

/-- The number that a setting has. -/
def Config.setting (config : Config) : Variable → Int
  | .loopWait => config.loopWait
  | .retrieveParallel => config.retrieveParallel.toNat
  | .dealParallel => config.dealParallel.toNat
  | .retrieveTryMax => config.retrieveTryMax.toNat
  | .scanStart => config.scanStart.toInt
  | .inventoryCapacity => config.inventoryCapacity.1.toNat

/-- A variable is set to a value of a number. -/
def Environment.Gives (environment : Environment) (v : Variable) (n : Int) : Prop :=
  ∃ value, environment v = some value ∧ v.Reads value n

variable {bytes : Bytes} {text value : String} {config config' : Config} {v w : Variable}
  {n n' : Int}
  {environment environment' : Environment}

/-! ## Text -/

namespace Bytes

/-- An array of bytes is listed from any of its positions on. -/
lemma toList_loop_eq (array : ByteArray) (i : Nat) (front : List UInt8) :
    ByteArray.toList.loop array i front = front.reverse ++ array.data.toList.drop i := by
  have hlength : array.data.toList.length = array.size := Array.length_toList
  induction hrest : array.size - i generalizing i front with
  | zero =>
    rw [ByteArray.toList.loop.eq_1, if_neg (by omega),
      List.drop_of_length_le (hlength ▸ Nat.le_of_sub_eq_zero hrest), List.append_nil]
  | succ rest ih =>
    have hlt : i < array.data.toList.length := by omega
    have hget : array.get! i = array.data.toList[i] :=
      (getElem!_pos array.data i hlt).trans (Array.getElem_toList _).symm
    rw [ByteArray.toList.loop.eq_1, if_pos (by omega), ih _ _ (by omega), hget,
      List.drop_eq_getElem_cons hlt, List.reverse_cons, List.append_assoc, List.singleton_append]

/-- An array of bytes is the array of its list. -/
lemma toList_eq_data (array : ByteArray) : array.toList = array.data.toList :=
  toList_loop_eq array 0 []

/-- A byte string is the text of which it is the bytes. -/
lemma text?_eq_some_iff : text? bytes = some text ↔ bytes = ofText text := by
  have htext : text? bytes = if h : (ByteArray.mk bytes.toArray).IsValidUTF8 then
      some (String.fromUTF8 _ h) else none := rfl
  rw [htext, ofText, toList_eq_data]
  constructor
  · intro hread
    split at hread
    · cases hread
      rfl
    · cases hread
  · rintro rfl
    exact dif_pos text.isValidUTF8

end Bytes

/-! ## One variable -/

/-- A text of an unsigned number that fits is read as the number. -/
lemma Integer.exists_uint64? (hdenotes : Integer.Denotes false text.toList n)
    (hfits : 0 ≤ n ∧ n < 2 ^ 64) : ∃ m : UInt64, uint64? text = some m ∧ n = m.toNat := by
  obtain ⟨k, rfl⟩ := hdenotes.exists_nat
  have hk : (UInt64.ofNat k).toNat = k :=
    UInt64.toNat_ofNat_of_lt' (Int.ofNat_lt.1 hfits.2)
  exact ⟨UInt64.ofNat k, uint64?_eq_some_iff.2 (hk.symm ▸ hdenotes), congrArg _ hk.symm⟩

/-- The number of an unsigned variable fits. -/
lemma Variable.fits_toNat (hunsigned : v.signed = false) (m : UInt64) : v.Fits m.toNat := by
  have hlt := m.toNat_lt
  rw [Fits, hunsigned, if_neg Bool.false_ne_true]
  exact ⟨Int.natCast_nonneg _, by omega⟩

/-- The reading of a setting that has to be positive. -/
lemma Config.bind_guard_eq_some_iff {α : Type} {f : UInt64 → α} {a : α} :
    (do let m ← Integer.uint64? text; guard (0 < m); return f m) = some a ↔
      ∃ m, Integer.uint64? text = some m ∧ 0 < m.toNat ∧ f m = a := by
  constructor
  · intro h
    obtain ⟨m, hm, h⟩ := Option.bind_eq_some_iff.1 h
    obtain ⟨_, hpos, h⟩ := Option.bind_eq_some_iff.1 h
    exact ⟨m, hm, UInt64.lt_iff_toNat_lt.1 ((Option.guard_eq_some' _).1 hpos), Option.some.inj h⟩
  · rintro ⟨m, hm, hpos, rfl⟩
    exact Option.bind_eq_some_iff.2 ⟨m, hm, Option.bind_eq_some_iff.2
      ⟨(), (Option.guard_eq_some' _).2 (UInt64.lt_iff_toNat_lt.2 hpos), rfl⟩⟩

/-- A positive number of 64 bits is accepted where only such numbers are admitted. -/
lemma Variable.accepts_toNat {m : UInt64} (hunsigned : v.signed = false)
    (hm : Integer.uint64? text = some m) (hadmits : v.Admits m.toNat) :
    v.Accepts text m.toNat :=
  ⟨hunsigned ▸ Integer.uint64?_eq_some_iff.1 hm, fits_toNat hunsigned m, hadmits⟩

/-- A capacity is that of its number. -/
lemma Config.capacity?_eq_some_iff {m : UInt64} {capacity : Capacity} :
    capacity? m = some capacity ↔ capacity.1 = m := by
  unfold capacity?
  constructor
  · intro h
    split at h
    · cases h
      rfl
    · cases h
  · rintro rfl
    exact dif_pos capacity.2

/-- Where an override succeeds, the text is a value of the variable, the setting becomes its number
and nothing else changes. -/
lemma Config.override?_sound (h : config.override? v text = some (config', value)) :
    (∃ n, v.Accepts text n ∧ config'.setting v = v.scale * n) ∧
      (∀ w, w ≠ v → config'.setting w = config.setting w) ∧
      config'.pauseWhileSyncing = config.pauseWhileSyncing := by
  cases v with
  | loopWait =>
    obtain ⟨m, hm, hpos, ⟨⟩⟩ := bind_guard_eq_some_iff.1 h
    refine ⟨⟨m.toNat, Variable.accepts_toNat rfl hm (Int.natCast_pos.2 hpos),
      Int.natCast_mul _ _⟩, fun w hne => ?_, rfl⟩
    cases w <;> first | exact absurd rfl hne | rfl
  | retrieveParallel =>
    obtain ⟨m, hm, hpos, ⟨⟩⟩ := bind_guard_eq_some_iff.1 h
    refine ⟨⟨m.toNat, Variable.accepts_toNat rfl hm (Int.natCast_pos.2 hpos),
      (Int.one_mul _).symm⟩, fun w hne => ?_, rfl⟩
    cases w <;> first | exact absurd rfl hne | rfl
  | dealParallel =>
    obtain ⟨m, hm, hpos, ⟨⟩⟩ := bind_guard_eq_some_iff.1 h
    refine ⟨⟨m.toNat, Variable.accepts_toNat rfl hm (Int.natCast_pos.2 hpos),
      (Int.one_mul _).symm⟩, fun w hne => ?_, rfl⟩
    cases w <;> first | exact absurd rfl hne | rfl
  | retrieveTryMax =>
    obtain ⟨m, hm, ⟨⟩⟩ := Option.bind_eq_some_iff.1 h
    refine ⟨⟨m.toNat, Variable.accepts_toNat rfl hm trivial, (Int.one_mul _).symm⟩,
      fun w hne => ?_, rfl⟩
    cases w <;> first | exact absurd rfl hne | rfl
  | scanStart =>
    obtain ⟨m, hm, h⟩ := Option.bind_eq_some_iff.1 h
    obtain ⟨_, hnonneg, ⟨⟩⟩ := Option.bind_eq_some_iff.1 h
    have hadmits : 0 ≤ m.toInt := Int64.le_iff_toInt_le.1 ((Option.guard_eq_some' _).1 hnonneg)
    refine ⟨⟨m.toInt, ⟨Integer.int64?_eq_some_iff.1 hm, ⟨m.le_toInt, m.toInt_lt⟩, hadmits⟩,
      (Int.one_mul _).symm⟩, fun w hne => ?_, rfl⟩
    cases w <;> first | exact absurd rfl hne | rfl
  | inventoryCapacity =>
    obtain ⟨m, hm, h⟩ := Option.bind_eq_some_iff.1 h
    obtain ⟨capacity, hcapacity, ⟨⟩⟩ := Option.bind_eq_some_iff.1 h
    obtain rfl := capacity?_eq_some_iff.1 hcapacity
    have hadmits : (capacity.1.toNat : Int) ≠ 0 := fun hzero =>
      capacity.2 (UInt64.toNat_inj.1 (Int.ofNat_eq_zero.1 hzero))
    refine ⟨⟨capacity.1.toNat, Variable.accepts_toNat rfl hm hadmits, (Int.one_mul _).symm⟩,
      fun w hne => ?_, rfl⟩
    cases w <;> first | exact absurd rfl hne | rfl

/-- A value of the variable is taken, whatever the configuration is. -/
lemma Config.exists_override?_eq_some (config : Config) (h : v.Accepts text n) :
    ∃ config' value, config.override? v text = some (config', value) := by
  obtain ⟨hdenotes, hfits, hadmits⟩ := h
  cases v with
  | loopWait | retrieveParallel | dealParallel =>
    obtain ⟨m, hm, rfl⟩ := Integer.exists_uint64? hdenotes hfits
    exact ⟨_, _, bind_guard_eq_some_iff.2 ⟨m, hm, Int.natCast_pos.1 hadmits, rfl⟩⟩
  | retrieveTryMax =>
    obtain ⟨m, hm, rfl⟩ := Integer.exists_uint64? hdenotes hfits
    exact ⟨_, _, Option.bind_eq_some_iff.2 ⟨m, hm, rfl⟩⟩
  | scanStart =>
    have hm : (Int64.ofInt n).toInt = n := Int64.toInt_ofInt_of_le hfits.1 hfits.2
    have hread : Integer.int64? text = some (Int64.ofInt n) :=
      Integer.int64?_eq_some_iff.2 (hm.symm ▸ hdenotes)
    have hnonneg : (0 : Int64) ≤ Int64.ofInt n := Int64.le_iff_toInt_le.2 (hm.symm ▸ hadmits)
    exact ⟨_, _, Option.bind_eq_some_iff.2 ⟨_, hread, Option.bind_eq_some_iff.2
      ⟨(), (Option.guard_eq_some' _).2 hnonneg, rfl⟩⟩⟩
  | inventoryCapacity =>
    obtain ⟨m, hm, rfl⟩ := Integer.exists_uint64? hdenotes hfits
    have hne : m ≠ 0 := fun hzero => hadmits (congrArg (fun m => (m.toNat : Int)) hzero)
    exact ⟨_, _, Option.bind_eq_some_iff.2 ⟨m, hm, Option.bind_eq_some_iff.2
      ⟨⟨m, hne⟩, capacity?_eq_some_iff.2 rfl, rfl⟩⟩⟩

/-! ## All variables -/

/-- One configuration is another one after some variables were looked at. -/
structure Config.Overlaid (environment : Environment) (vs : List Variable)
    (config config' : Config) : Prop where
  given : ∀ v ∈ vs, ∀ n, environment.Gives v n → config'.setting v = v.scale * n
  kept : ∀ v, (v ∉ vs ∨ ∀ n, ¬environment.Gives v n) → config'.setting v = config.setting v
  others : config'.pauseWhileSyncing = config.pauseWhileSyncing

/-- Looking at one variable uses its value, if it has one. -/
lemma Config.overlaid_applyVariable (config : Config) (environment : Environment) (v : Variable) :
    Overlaid environment [v] config (config.applyVariable environment v).1 := by
  unfold applyVariable
  have hgives : ∀ {n}, environment.Gives v n →
      ∃ text, (environment v).bind Bytes.text? = some text ∧ v.Accepts text n := by
    rintro n ⟨value, hvalue, text, rfl, haccepts⟩
    exact ⟨text, by rw [hvalue, Option.bind_some, Bytes.text?_eq_some_iff.2 rfl], haccepts⟩
  split
  · rename_i hnone
    have hnot : ∀ n, ¬environment.Gives v n := fun n h => by
      obtain ⟨text, htext, -⟩ := hgives h
      rw [hnone] at htext
      cases htext
    exact ⟨fun w hw n h => absurd (List.mem_singleton.1 hw ▸ h) (hnot n), fun _ _ => rfl, rfl⟩
  · rename_i text hsome
    obtain ⟨value, hvalue, htext⟩ := Option.bind_eq_some_iff.1 hsome
    split
    · rename_i config' shown hoverride
      obtain ⟨⟨n, haccepts, hsetting⟩, hkept, hothers⟩ := override?_sound hoverride
      refine ⟨fun w hw m h => ?_, fun w hw => ?_, hothers⟩
      · obtain rfl := List.mem_singleton.1 hw
        obtain ⟨text', htext', haccepts'⟩ := hgives h
        rw [hsome] at htext'
        cases htext'
        rw [hsetting, haccepts.1.unique haccepts'.1]
      · refine hkept w fun heq => ?_
        rcases hw with hmem | hnot
        · exact hmem (List.mem_singleton.2 heq)
        · exact hnot n (heq ▸ ⟨value, hvalue, text, Bytes.text?_eq_some_iff.1 htext, haccepts⟩)
    · rename_i hnone
      have hnot : ∀ n, ¬environment.Gives v n := fun n h => by
        obtain ⟨text', htext', haccepts⟩ := hgives h
        rw [hsome] at htext'
        cases htext'
        obtain ⟨config', shown, hoverride⟩ := config.exists_override?_eq_some haccepts
        rw [hnone] at hoverride
        cases hoverride
      exact ⟨fun w hw n h => absurd (List.mem_singleton.1 hw ▸ h) (hnot n), fun _ _ => rfl, rfl⟩

/-- Looking at variables in turn uses the value of each, if it has one. -/
lemma Config.overlaid_applyVariables (config : Config) (environment : Environment)
    (vs : List Variable) :
    Overlaid environment vs config (applyVariables environment config vs).1 := by
  induction vs generalizing config with
  | nil => exact ⟨fun v hv => absurd hv List.not_mem_nil, fun _ _ => rfl, rfl⟩
  | cons v rest ih =>
    have hfirst := config.overlaid_applyVariable environment v
    have hrest := ih (config.applyVariable environment v).1
    refine ⟨fun w hw n h => ?_, fun w hw => ?_, hrest.others.trans hfirst.others⟩
    · by_cases hmem : w ∈ rest
      · exact hrest.given w hmem n h
      · have heq : w ∈ [v] :=
          List.mem_singleton.2 ((List.mem_cons.1 hw).resolve_right hmem)
        exact (hrest.kept w (.inl hmem)).trans (hfirst.given w heq n h)
    · refine (hrest.kept w ?_).trans (hfirst.kept w ?_)
      · exact hw.imp_left fun hnot hmem => hnot (List.mem_cons_of_mem v hmem)
      · exact hw.imp_left fun hnot hmem => hnot (List.mem_singleton.1 hmem ▸ List.mem_cons_self)

/-- Every variable is looked at. -/
lemma Variable.mem_all (v : Variable) : v ∈ all := by
  cases v <;> decide

/-- The overlay of an environment uses the value of each variable that has one. -/
lemma Config.overlaid_withEnvironment (config : Config) (environment : Environment) :
    Overlaid environment Variable.all config (config.withEnvironment environment).1 :=
  config.overlaid_applyVariables environment Variable.all

/-- The settings and the switch that no variable overrides are the whole configuration. -/
lemma Config.ext_setting (hsettings : ∀ v, config.setting v = config'.setting v)
    (hpause : config.pauseWhileSyncing = config'.pauseWhileSyncing) : config = config' := by
  obtain ⟨wait, retrieve, deal, tries, start, capacity, pause⟩ := config
  obtain ⟨wait', retrieve', deal', tries', start', capacity', pause'⟩ := config'
  have hwait := Int.ofNat.inj (hsettings .loopWait)
  have hretrieve := UInt64.toNat_inj.1 (Int.ofNat.inj (hsettings .retrieveParallel))
  have hdeal := UInt64.toNat_inj.1 (Int.ofNat.inj (hsettings .dealParallel))
  have htries := UInt64.toNat_inj.1 (Int.ofNat.inj (hsettings .retrieveTryMax))
  have hstart := Int64.toInt_inj.1 (hsettings .scanStart)
  have hcapacity := Subtype.ext (UInt64.toNat_inj.1 (Int.ofNat.inj (hsettings .inventoryCapacity)))
  simp only at *
  subst_vars
  rfl

/-- What holds of a setting and of all numbers that are admitted for it holds after an overlay. -/
lemma Config.setting_withEnvironment_of (P : Int → Prop) (config : Config)
    (environment : Environment) (v : Variable) (hbase : P (config.setting v))
    (hadmits : ∀ n, v.Admits n → v.Fits n → P (v.scale * n)) :
    P ((config.withEnvironment environment).1.setting v) := by
  have hoverlaid := config.overlaid_withEnvironment environment
  by_cases h : ∃ n, environment.Gives v n
  · obtain ⟨n, hgives⟩ := h
    obtain ⟨value, -, text, -, -, hfits, hadmitted⟩ := id hgives
    exact hoverlaid.given v v.mem_all n hgives ▸ hadmits n hadmitted hfits
  · exact hoverlaid.kept v (.inr (not_exists.1 h)) ▸ hbase

/-- After an overlay each setting is the number that its variable gives, or what it was before if
the variable gives none; no variable bears on another setting; a second overlay changes nothing; and
over the standard configuration every setting is usable. -/
theorem Config.withEnvironment_settings :
    (∀ (config : Config) (environment : Environment) (v : Variable),
      (∀ n, environment.Gives v n →
        (config.withEnvironment environment).1.setting v = v.scale * n) ∧
      ((∀ n, ¬environment.Gives v n) →
        (config.withEnvironment environment).1.setting v = config.setting v) ∧
      (config.withEnvironment environment).1.pauseWhileSyncing = config.pauseWhileSyncing) ∧
    (∀ (config : Config) (environment environment' : Environment) (v : Variable),
      environment v = environment' v →
        (config.withEnvironment environment).1.setting v =
          (config.withEnvironment environment').1.setting v) ∧
    (∀ (config : Config) (environment : Environment),
      ((config.withEnvironment environment).1.withEnvironment environment).1 =
        (config.withEnvironment environment).1) ∧
    ∀ environment : Environment,
      1000 ≤ (standard.withEnvironment environment).1.loopWait ∧
      1 ≤ (standard.withEnvironment environment).1.retrieveParallel ∧
      1 ≤ (standard.withEnvironment environment).1.dealParallel ∧
      1 ≤ (standard.withEnvironment environment).1.inventoryCapacity.1 ∧
      0 ≤ (standard.withEnvironment environment).1.scanStart := by
  refine ⟨fun config environment v => ?_, fun config environment environment' v heq => ?_,
    fun config environment => ?_, fun environment => ?_⟩
  · have hoverlaid := config.overlaid_withEnvironment environment
    exact ⟨hoverlaid.given v v.mem_all, fun hnot => hoverlaid.kept v (.inr hnot), hoverlaid.others⟩
  · have hoverlaid := config.overlaid_withEnvironment environment
    have hoverlaid' := config.overlaid_withEnvironment environment'
    have hgives : ∀ n, environment.Gives v n ↔ environment'.Gives v n := fun n => by
      rw [Environment.Gives, heq, Environment.Gives]
    by_cases h : ∃ n, environment.Gives v n
    · obtain ⟨n, hn⟩ := h
      rw [hoverlaid.given v v.mem_all n hn, hoverlaid'.given v v.mem_all n ((hgives n).1 hn)]
    · have hnot := not_exists.1 h
      have hnot' : ∀ n, ¬environment'.Gives v n := fun n hn => hnot n ((hgives n).2 hn)
      rw [hoverlaid.kept v (.inr hnot), hoverlaid'.kept v (.inr hnot')]
  · have honce := config.overlaid_withEnvironment environment
    have htwice := (config.withEnvironment environment).1.overlaid_withEnvironment environment
    refine ext_setting (fun v => ?_) htwice.others
    by_cases h : ∃ n, environment.Gives v n
    · obtain ⟨n, hn⟩ := h
      rw [htwice.given v v.mem_all n hn, honce.given v v.mem_all n hn]
    · exact htwice.kept v (.inr (not_exists.1 h))
  · have hwait := setting_withEnvironment_of (1000 ≤ ·) standard environment .loopWait (by decide)
      fun n (hpos : 0 < n) _ => show 1000 ≤ 1000 * n by omega
    have hretrieve := setting_withEnvironment_of (1 ≤ ·) standard environment .retrieveParallel
      (by decide) fun n (hpos : 0 < n) _ => show 1 ≤ 1 * n by omega
    have hdeal := setting_withEnvironment_of (1 ≤ ·) standard environment .dealParallel
      (by decide) fun n (hpos : 0 < n) _ => show 1 ≤ 1 * n by omega
    have hcapacity := setting_withEnvironment_of (1 ≤ ·) standard environment .inventoryCapacity
      (by decide) fun n (hne : n ≠ 0) hfits =>
        show 1 ≤ 1 * n by have hnonneg : 0 ≤ n := hfits.1; omega
    have hstart := setting_withEnvironment_of (0 ≤ ·) standard environment .scanStart (by decide)
      fun n (hnonneg : 0 ≤ n) _ => show 0 ≤ 1 * n by omega
    exact ⟨Int.ofNat_le.1 hwait, UInt64.le_iff_toNat_le.2 (Int.ofNat_le.1 hretrieve),
      UInt64.le_iff_toNat_le.2 (Int.ofNat_le.1 hdeal),
      UInt64.le_iff_toNat_le.2 (Int.ofNat_le.1 hcapacity), Int64.le_iff_toInt_le.2 hstart⟩

/-- Half a minute, written at length, and a number of retrievals that is no number. -/
def Sample.halfMinute : Environment
  | .loopWait => some (Bytes.ofText "+030")
  | .retrieveParallel => some (Bytes.ofText "-0")
  | _ => none

theorem Config.withEnvironment_settings_sample :
    Sample.halfMinute.Gives .loopWait 30 ∧
      (standard.withEnvironment Sample.halfMinute).1.setting .loopWait = 30000 ∧
      (∀ n, ¬Sample.halfMinute.Gives .retrieveParallel n) ∧
      (standard.withEnvironment Sample.halfMinute).1.setting .retrieveParallel = 16 := by
  have hgives : Sample.halfMinute.Gives .loopWait 30 :=
    ⟨_, rfl, "+030", rfl, show Integer.Denotes false ('+' :: [0, 3, 0].map Nat.digitChar) _ from
      .plus (by decide) (by decide), ⟨by decide, by decide⟩, show (0 : Int) < 30 by decide⟩
  have hnot : ∀ n, ¬Sample.halfMinute.Gives .retrieveParallel n := by
    rintro n ⟨value, hvalue, text, rfl, hdenotes, -⟩
    have hbytes := Bytes.text?_eq_some_iff.2 (Option.some.inj hvalue)
    have htext : "-0" = text :=
      Option.some.inj ((Bytes.text?_eq_some_iff.2 rfl).symm.trans hbytes)
    obtain ⟨k, rfl⟩ := Integer.Denotes.exists_nat hdenotes
    have hread := Integer.unsigned?_eq_some_iff.2 hdenotes
    have hnone : Integer.unsigned? "-0".toList = none := by decide
    rw [← htext, hnone] at hread
    cases hread
  have hsettings := withEnvironment_settings.1 standard Sample.halfMinute
  exact ⟨hgives, (hsettings .loopWait).1 30 hgives, hnot, (hsettings .retrieveParallel).2.1 hnot⟩

end PieceReplication
