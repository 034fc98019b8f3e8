import Mathlib.Data.List.Find
import Mathlib.Data.List.Nodup
import Mathlib.Tactic.Common
import PieceReplication.Settings.Document

/-!
# Documents of configurations

The document of a configuration has one field for each setting, and reading it gives the
configuration again, but for the pause between ticks, of which only the nearest second is written
(`Config.rounded`).

Reading a document looks up seven names.  So it does not matter in which order the fields stand, nor
which fields stand there besides, and a setting whose field is missing has its default
(`Config.Edited.setting?_eq`).  The round trip is the case in which no field is missing.
-/

namespace PieceReplication

variable {fields fields' : List (String × JsonValue)} {name : String} {value : JsonValue}
  {config : Config} {removed : List String}

/-! ## Looking fields up -/

namespace JsonValue

/-- The fields of an object; any other value has none. -/
def entries : JsonValue → List (String × JsonValue)
  | object fields => fields
  | _ => []

/-- Fields that were left out by their names are not found, and the others are. -/
lemma field?_filter (p : String → Bool) :
    field? (fields.filter fun entry => p entry.1) name =
      if p name = true then field? fields name else none := by
  rw [field?, field?, ← List.filter_reverse, List.find?_filter]
  split
  · next hname =>
    refine congrArg (Option.map Prod.snd) (List.find?_congr fun entry _ => ?_)
    by_cases heq : entry.1 = name <;> simp [heq, hname]
  · next hname =>
    rw [Option.map_eq_none_iff, List.find?_eq_none]
    intro entry _
    by_cases heq : entry.1 = name <;> simp [heq, hname]

/-- If no two fields have the same name, a look-up finds the field with its name. -/
lemma field?_eq_some_iff (hnodup : (fields.map Prod.fst).Nodup) :
    field? fields name = some value ↔ (name, value) ∈ fields := by
  rw [field?, Option.map_eq_some_iff]
  constructor
  · rintro ⟨⟨name', value'⟩, hfound, rfl⟩
    have hname : name' = name := by simpa using List.find?_some hfound
    exact hname ▸ List.mem_reverse.1 (List.mem_of_find?_eq_some hfound)
  · intro hmem
    have hsome : (fields.reverse.find? fun entry => entry.1 == name).isSome := by
      rw [List.find?_isSome]
      exact ⟨_, List.mem_reverse.2 hmem, beq_self_eq_true name⟩
    obtain ⟨entry, hfound⟩ := Option.isSome_iff_exists.1 hsome
    have hname : entry.1 = name := by simpa using List.find?_some hfound
    have hentry : entry = (name, value) :=
      List.inj_on_of_nodup_map hnodup (List.mem_reverse.1 (List.mem_of_find?_eq_some hfound)) hmem
        hname
    exact ⟨entry, hfound, congrArg Prod.snd hentry⟩

/-- If no two fields have the same name, a look-up does not depend on their order. -/
lemma field?_eq_of_perm (hperm : fields.Perm fields') (hnodup : (fields'.map Prod.fst).Nodup) :
    field? fields name = field? fields' name := by
  ext value
  rw [field?_eq_some_iff ((hperm.map Prod.fst).nodup_iff.2 hnodup), field?_eq_some_iff hnodup,
    hperm.mem_iff]

/-! ## Reading a number back -/

/-- An unsigned number is read back. -/
lemma uint64?_integer (n : UInt64) : (integer n.toNat).uint64? = some n := by
  have hfits : (0 : Int) ≤ n.toNat ∧ (n.toNat : Int) < UInt64.size :=
    ⟨Int.natCast_nonneg _, Int.ofNat_lt.2 n.toNat_lt_size⟩
  rw [uint64?, if_pos hfits, Int.toNat_natCast, UInt64.ofNat_toNat]

/-- A signed number is read back. -/
lemma int64?_integer (n : Int64) : (integer n.toInt).int64? = some n := by
  have hfits : Int64.minValue.toInt ≤ n.toInt ∧ n.toInt ≤ Int64.maxValue.toInt :=
    ⟨n.minValue_le_toInt, n.toInt_le⟩
  rw [int64?, if_pos hfits, Int64.ofInt_toInt]

end JsonValue

namespace Config

/-! ## What is written -/

/-- The configuration with the pause in whole seconds. -/
def rounded (config : Config) : Config :=
  { config with loopWait := 1000 * config.waitSeconds }

/-- The configuration in which the settings of some fields have their defaults. -/
def reset (config : Config) (removed : List String) : Config where
  loopWait := if "loop_waiting" ∈ removed then standard.loopWait else config.loopWait
  retrieveParallel :=
    if "retrieve_parallel_num" ∈ removed then standard.retrieveParallel else config.retrieveParallel
  dealParallel :=
    if "deal_parallel_num" ∈ removed then standard.dealParallel else config.dealParallel
  retrieveTryMax :=
    if "retrieve_try_count_max" ∈ removed then standard.retrieveTryMax else config.retrieveTryMax
  scanStart := if "scan_start" ∈ removed then standard.scanStart else config.scanStart
  inventoryCapacity :=
    if "inventory_capacity" ∈ removed then standard.inventoryCapacity else config.inventoryCapacity
  pauseWhileSyncing :=
    if "pause_while_syncing" ∈ removed then standard.pauseWhileSyncing else config.pauseWhileSyncing

/-- Fields are those of a configuration's document without some that were removed, and with others
of unknown names, in any order. -/
def Edited (config : Config) (removed : List String) (fields : List (String × JsonValue)) : Prop :=
  ∃ unknown : List (String × JsonValue), (∀ entry ∈ unknown, entry.1 ∉ fieldNames) ∧
    fields.Perm ((config.toJson.entries.filter fun entry => entry.1 ∉ removed) ++ unknown)

/-- The fields of a document stand in the order of the settings. -/
lemma map_fst_entries (config : Config) : config.toJson.entries.map Prod.fst = fieldNames := rfl

/-- No two fields of a document have the same name. -/
lemma nodup_entries (config : Config) : (config.toJson.entries.map Prod.fst).Nodup :=
  config.map_fst_entries ▸ by decide

/-- The fields with known names are those that were left, in some order. -/
lemma Edited.perm (hedited : config.Edited removed fields) :
    (fields.filter fun entry => entry.1 ∈ fieldNames).Perm
      (config.toJson.entries.filter fun entry => entry.1 ∉ removed) := by
  obtain ⟨unknown, hunknown, hperm⟩ := hedited
  have hown : ∀ entry ∈ config.toJson.entries.filter fun entry => entry.1 ∉ removed,
      decide (entry.1 ∈ fieldNames) = true := fun entry hkept =>
    decide_eq_true (config.map_fst_entries ▸ List.mem_map_of_mem (List.mem_of_mem_filter hkept))
  have hothers : ∀ entry ∈ unknown, ¬decide (entry.1 ∈ fieldNames) = true := fun entry hentry =>
    decide_eq_true_iff.not.2 (hunknown entry hentry)
  refine (hperm.filter _).trans (.of_eq ?_)
  rw [List.filter_append, List.filter_eq_self.2 hown, List.filter_eq_nil_iff.2 hothers,
    List.append_nil]

/-- A look-up finds what was written, unless the field was removed. -/
lemma Edited.field?_eq (hedited : config.Edited removed fields)
    (hwritten : (name, value) ∈ config.toJson.entries) :
    JsonValue.field? fields name = if name ∈ removed then none else some value := by
  have hname : name ∈ fieldNames := config.map_fst_entries ▸ List.mem_map_of_mem hwritten
  have hkept : ((config.toJson.entries.filter fun entry => entry.1 ∉ removed).map Prod.fst).Nodup :=
    config.nodup_entries.sublist (List.filter_sublist.map Prod.fst)
  calc JsonValue.field? fields name
      = JsonValue.field? (fields.filter fun entry => entry.1 ∈ fieldNames) name := by
        rw [JsonValue.field?_filter (· ∈ fieldNames), if_pos (decide_eq_true hname)]
    _ = JsonValue.field? (config.toJson.entries.filter fun entry => entry.1 ∉ removed) name :=
        JsonValue.field?_eq_of_perm hedited.perm hkept
    _ = if name ∈ removed then none else some value := by
        rw [JsonValue.field?_filter (· ∉ removed),
          (JsonValue.field?_eq_some_iff config.nodup_entries).2 hwritten]
        by_cases hremoved : name ∈ removed <;> simp [hremoved]

/-- A setting is what its field was written for, or the default if that field was removed. -/
lemma Edited.setting?_eq {α : Type} {standard setting : α} (read : JsonValue → Option α)
    (hedited : config.Edited removed fields) (i : Nat)
    (hwritten : config.toJson.entries[i]? = some (name, value))
    (hread : read value = some setting) :
    setting? fields name standard read =
      some (if name ∈ removed then standard else setting) := by
  rw [setting?, hedited.field?_eq (List.mem_of_getElem? hwritten)]
  by_cases hremoved : name ∈ removed <;> simp [hremoved, hread]

/-! ## What is read -/

/-- The pause is read back in whole seconds. -/
lemma uint64?_waitSeconds (hwait : config.loopWait < UInt64.size) :
    (JsonValue.integer config.waitSeconds).uint64?.map ofSeconds =
      some config.rounded.loopWait := by
  have hlt : config.waitSeconds < UInt64.size := by
    have hsize : 1000 ≤ UInt64.size := by decide
    unfold waitSeconds
    omega
  have hread := JsonValue.uint64?_integer (UInt64.ofNat config.waitSeconds)
  rw [UInt64.toNat_ofNat_of_lt' hlt] at hread
  rw [hread, Option.map_some, ofSeconds, UInt64.toNat_ofNat_of_lt' hlt, rounded]

/-- An edited document is read as the configuration in which the settings of the removed fields have
their defaults. -/
lemma Edited.ofFields?_eq (hedited : config.Edited removed fields)
    (hwait : config.loopWait < UInt64.size) :
    ofFields? fields = some (config.rounded.reset removed) := by
  have hcapacity : (JsonValue.integer config.inventoryCapacity.1.toNat).uint64?.bind capacity? =
      some config.inventoryCapacity := by
    rw [JsonValue.uint64?_integer, Option.bind_some, capacity?, dif_pos config.inventoryCapacity.2]
  unfold ofFields?
  rw [hedited.setting?_eq (fun value => value.uint64?.map ofSeconds) 0 rfl
      (uint64?_waitSeconds hwait),
    hedited.setting?_eq JsonValue.uint64? 1 rfl (JsonValue.uint64?_integer _),
    hedited.setting?_eq JsonValue.uint64? 2 rfl (JsonValue.uint64?_integer _),
    hedited.setting?_eq JsonValue.uint64? 3 rfl (JsonValue.uint64?_integer _),
    hedited.setting?_eq JsonValue.int64? 4 rfl (JsonValue.int64?_integer _),
    hedited.setting?_eq (fun value => value.uint64?.bind capacity?) 5 rfl hcapacity,
    hedited.setting?_eq JsonValue.bool? 6 rfl rfl]
  rfl

/-- The document of a configuration is one from which no field was removed. -/
lemma edited_toJson (config : Config) : config.Edited [] config.toJson.entries := by
  refine ⟨[], fun entry hmem => absurd hmem List.not_mem_nil, ?_⟩
  rw [List.append_nil, List.filter_eq_self.2 fun entry _ => by simp]

/-- The pause is rounded to the nearest second, halves up. -/
lemma rounded_loopWait (config : Config) :
    1000 ∣ config.rounded.loopWait ∧ config.rounded.loopWait ≤ config.loopWait + 500 ∧
      config.loopWait < config.rounded.loopWait + 500 := by
  have heq : config.rounded.loopWait = 1000 * ((config.loopWait + 500) / 1000) := rfl
  omega

/-- Only a pause that is no whole number of seconds is lost. -/
lemma rounded_eq_self_iff : config.rounded = config ↔ 1000 ∣ config.loopWait := by
  obtain ⟨hdvd, hle, hlt⟩ := config.rounded_loopWait
  constructor
  · intro heq
    rwa [heq] at hdvd
  · intro hwhole
    have hwait : 1000 * config.waitSeconds = config.loopWait := by
      have hseconds : config.waitSeconds = (config.loopWait + 500) / 1000 := rfl
      omega
    rw [rounded, hwait]

/-- Rounding again changes nothing. -/
lemma waitSeconds_rounded (config : Config) : config.rounded.waitSeconds = config.waitSeconds := by
  have heq : config.rounded.waitSeconds = (1000 * config.waitSeconds + 500) / 1000 := rfl
  omega

/-- **Round trip.**  Reading the document of a configuration succeeds and gives the configuration
with the pause in whole seconds, so that nothing is lost if and only if the pause is whole, and the
document of what was read is the same.  If some fields are removed from the document and others of
unknown names added, in any order, then the settings of the removed fields have their defaults. -/
theorem ofJson?_toJson (config : Config) (hwait : config.loopWait < UInt64.size) :
    (∃ milliseconds, 1000 ∣ milliseconds ∧ milliseconds ≤ config.loopWait + 500 ∧
        config.loopWait < milliseconds + 500 ∧
        ofJson? config.toJson = some { config with loopWait := milliseconds }) ∧
      (ofJson? config.toJson = some config ↔ 1000 ∣ config.loopWait) ∧
      (ofJson? config.toJson).map toJson = some config.toJson ∧
      ∀ removed fields, config.Edited removed fields →
        ofJson? (.object fields) = (ofJson? config.toJson).map (reset · removed) := by
  have hread : ofJson? config.toJson = some config.rounded :=
    config.edited_toJson.ofFields?_eq hwait
  obtain ⟨hdvd, hle, hlt⟩ := config.rounded_loopWait
  refine ⟨⟨_, hdvd, hle, hlt, hread⟩, ?_, ?_, fun removed fields hedited => ?_⟩
  · rw [hread, Option.some_inj, rounded_eq_self_iff]
  · rw [hread, Option.map_some, toJson, waitSeconds_rounded]
    rfl
  · rw [hread, Option.map_some]
    exact hedited.ofFields?_eq hwait

end Config

/-- Settings, two of them at the ends of their ranges, with a pause of one second and a half. -/
def Sample.settings : Config :=
  { Config.standard with
    loopWait := 1500
    retrieveParallel := 3
    retrieveTryMax := 18446744073709551615
    scanStart := Int64.minValue }

/-- The document of these settings without two of its fields, with one of an unknown name, the other
way round. -/
def Sample.editedSettings : List (String × JsonValue) :=
  [("comment", .string "edited"), ("pause_while_syncing", .bool false),
   ("inventory_capacity", .integer 1000000), ("scan_start", .integer Int64.minValue.toInt),
   ("deal_parallel_num", .integer 16), ("loop_waiting", .integer 2)]

theorem Config.ofJson?_toJson_sample :
    Sample.settings.loopWait < UInt64.size ∧
      Sample.settings.Edited ["retrieve_parallel_num", "retrieve_try_count_max"]
        Sample.editedSettings ∧
      ofJson? (.object Sample.editedSettings) =
        some { standard with loopWait := 2000, scanStart := Int64.minValue } := by
  have hwait : Sample.settings.loopWait < UInt64.size := by decide
  have hedited : Sample.settings.Edited ["retrieve_parallel_num", "retrieve_try_count_max"]
      Sample.editedSettings := by
    refine ⟨[("comment", .string "edited")], by decide, ?_⟩
    exact (List.reverse_perm _).symm.trans (.of_eq rfl)
  obtain ⟨⟨milliseconds, hdvd, hle, hlt, hread⟩, -, -, hedits⟩ :=
    ofJson?_toJson Sample.settings hwait
  have hpause : milliseconds = 2000 := by
    have hsample : Sample.settings.loopWait = 1500 := rfl
    omega
  subst hpause
  refine ⟨hwait, hedited, ?_⟩
  rw [hedits _ _ hedited, hread]
  decide

end PieceReplication
