import RethGnosis.Aura.BoundaryCalls
import RethGnosis.Block.State
import RethGnosis.Library.Rlp
import RethGnosis.Spec.Json

set_option autoImplicit false

/-!
# The `aura` section of a genesis file

`AuraConfig::from_json_value` of `aura/config.rs`. The keys of its three transition maps are
decimal strings, one validator set can be written in three ways, and a single reward contract
may stand beside the map of reward contracts. What a parsed section says of a block is the last
entry with the greatest number up to the block's, and every configuration of `u64` numbers has
a section that parses to it.
-/
namespace RethGnosis
open Entries Json

inductive RawValidatorSetKind where
  | list (list : List Address)
  | safeContract (safeContract : Address)
  | contract (contract : Address)

structure RawAuraConfig where
  stepDuration : ℕ
  validators : BTreeMap ℕ RawValidatorSetKind
  blockRewardContractAddress : Option Address
  blockRewardContractTransition : Option ℕ
  blockRewardContractTransitions : Option (BTreeMap ℕ Address)
  posdaoTransition : Option ℕ
  rewriteBytecode : Option (BTreeMap ℕ (BTreeMap Address Bytes))

/-- `serde_json::Error`: of serde's own, or made with `custom`. -/
inductive ConfigError where
  | data
  | custom (message : String)
deriving DecidableEq

def auraFields : List String :=
  ["stepDuration", "validators", "blockRewardContractAddress", "blockRewardContractTransition",
    "blockRewardContractTransitions", "posdaoTransition", "rewriteBytecode"]

section Parse
variable (readers : JsonReaders)

/-- Untagged: the first of the three fields that is there and can be read. -/
def RawValidatorSetKind.deserialize : Json → Option RawValidatorSetKind
  | object members =>
    (((members.lookup "list").bind (readVec readers.address)).map list).or
      ((((members.lookup "safeContract").bind readers.address).map safeContract).or
        (((members.lookup "contract").bind readers.address).map contract))
  | _ => none

def readAddressKey (key : String) : Option Address := readers.address (.string key)

def deserializeValidators (value : Json) : Option (BTreeMap ℕ RawValidatorSetKind) := do
  let field ← value.structFields ["multi"]
  (field "multi").bind (readMap parseU64 (RawValidatorSetKind.deserialize readers))

def RawAuraConfig.deserialize (value : Json) : Option RawAuraConfig := do
  let field ← value.structFields auraFields
  let stepDuration ← (field "stepDuration").bind readU64
  let validators ← (field "validators").bind (deserializeValidators readers)
  let address ← readOptional readers.address (field "blockRewardContractAddress")
  let transition ← readOptional readU64 (field "blockRewardContractTransition")
  let transitions ← readOptional (readMap parseU64 readers.address)
    (field "blockRewardContractTransitions")
  let posdaoTransition ← readOptional readU64 (field "posdaoTransition")
  let rewriteBytecode ← readOptional
    (readMap parseU64 (readMap (readAddressKey readers) readers.bytes)) (field "rewriteBytecode")
  return ⟨stepDuration, validators, address, transition, transitions, posdaoTransition,
    rewriteBytecode⟩

def RawValidatorSetKind.validatorKind : RawValidatorSetKind → ValidatorSetKind
  | list validators => .list validators
  | safeContract address => .contract address
  | contract address => .contract address

namespace RawAuraConfig
variable (raw : RawAuraConfig)

def sets : BTreeMap ℕ ValidatorSetKind :=
  insertAll (raw.validators.toList.map (fun entry => (entry.1, entry.2.validatorKind))) ∅

def legacyTransitions : BTreeMap ℕ Address :=
  match raw.blockRewardContractAddress with
  | some addr => (∅ : BTreeMap ℕ Address).insert (raw.blockRewardContractTransition.getD 0) addr
  | none => ∅

/-- The single contract first, then the map over it. -/
def rewardTransitions : BTreeMap ℕ Address :=
  match raw.blockRewardContractTransitions with
  | some transitions => insertAll transitions.toList raw.legacyTransitions
  | none => raw.legacyTransitions

def rewrites : BTreeMap ℕ (BTreeMap Address Bytes) :=
  match raw.rewriteBytecode with
  | some rewrites => insertAll rewrites.toList ∅
  | none => ∅

end RawAuraConfig

def missingPosdaoTransition : String :=
  "AuRa chain spec must include `posdaoTransition` (use a far-future block " ++
    "number if POSDAO never activates on this chain)"

def RawAuraConfig.auraConfig (raw : RawAuraConfig) : Except ConfigError AuraConfig :=
  match ValidatorSet.new raw.sets with
  | .error .empty => .error (.custom "validator set must not be empty")
  | .ok validators =>
    match raw.posdaoTransition with
    | none => .error (.custom missingPosdaoTransition)
    | some posdaoTransition =>
      .ok
        { stepDuration := raw.stepDuration
          validators := validators
          blockRewardContractTransitions := raw.rewardTransitions
          posdaoTransition := posdaoTransition
          rewriteBytecode := raw.rewrites }

def AuraConfig.fromJsonValue (value : Json) : Except ConfigError AuraConfig :=
  match RawAuraConfig.deserialize readers value with
  | none => .error .data
  | some raw => raw.auraConfig

end Parse

section Section
variable (readers : JsonReaders) (value : Json)

def auraField (name : String) : Option Json :=
  (value.structFields auraFields).bind (fun field => field name)

def multiField : Json :=
  ((auraField value "validators").bind (fun validators =>
    (validators.structFields ["multi"]).bind (fun field => field "multi"))).getD null

def validatorEntries : List (ℕ × ValidatorSetKind) :=
  ((multiField value).entries parseU64 (RawValidatorSetKind.deserialize readers)).map
    (fun entry => (entry.1, entry.2.validatorKind))

def optionalField {α : Type} (read : Json → Option α) (name : String) : Option α :=
  (readOptional read (auraField value name)).join

def legacyEntry : List (ℕ × Address) :=
  match optionalField value readers.address "blockRewardContractAddress" with
  | some addr => [((optionalField value readU64 "blockRewardContractTransition").getD 0, addr)]
  | none => []

def rewardEntries : List (ℕ × Address) :=
  legacyEntry readers value ++
    ((auraField value "blockRewardContractTransitions").getD null).entries parseU64 readers.address

def rewriteEntries : List (ℕ × BTreeMap Address Bytes) :=
  ((auraField value "rewriteBytecode").getD null).entries parseU64
    (readMap (readAddressKey readers) readers.bytes)

/-- The field is missing, `null`, or can be read. -/
def OptionalField {α : Type} (read : Json → Option α) (name : String) : Prop :=
  ∃ a, readOptional read (auraField value name) = some a

structure AuraSection : Prop where
  stepDuration : ∃ n, (auraField value "stepDuration").bind readU64 = some n
  validators : (multiField value).Readable parseU64 (RawValidatorSetKind.deserialize readers)
  nonempty : validatorEntries readers value ≠ []
  rewardContract : OptionalField value readers.address "blockRewardContractAddress"
  rewardTransition : OptionalField value readU64 "blockRewardContractTransition"
  rewardContracts :
    OptionalField value (readMap parseU64 readers.address) "blockRewardContractTransitions"
  posdaoTransition : ∃ n, (auraField value "posdaoTransition").bind readU64 = some n
  rewrites : OptionalField value
    (readMap parseU64 (readMap (readAddressKey readers) readers.bytes)) "rewriteBytecode"

/-- What the configuration says at a block is the section's latest entry. -/
structure Describes (config : AuraConfig) : Prop where
  stepDuration : (auraField value "stepDuration").bind readU64 = some config.stepDuration
  posdaoTransition : (auraField value "posdaoTransition").bind readU64 =
    some config.posdaoTransition
  validators : ∀ n kind, config.validators.kindAt n = some kind ↔
    Latest (validatorEntries readers value) n kind
  rewards : ∀ n contract, transitionAt config.blockRewardContractTransitions n = some contract ↔
    Latest (rewardEntries readers value) n contract
  rewrites : ∀ n, config.rewriteBytecode[n]? = lastOf (rewriteEntries readers value) n

structure RawAuraConfig.ReadFrom (raw : RawAuraConfig) : Prop where
  stepDuration : (auraField value "stepDuration").bind readU64 = some raw.stepDuration
  validators : readMap parseU64 (RawValidatorSetKind.deserialize readers) (multiField value) =
    some raw.validators
  rewardContract : readOptional readers.address (auraField value "blockRewardContractAddress") =
    some raw.blockRewardContractAddress
  rewardTransition : readOptional readU64 (auraField value "blockRewardContractTransition") =
    some raw.blockRewardContractTransition
  rewardContracts : readOptional (readMap parseU64 readers.address)
    (auraField value "blockRewardContractTransitions") = some raw.blockRewardContractTransitions
  posdaoTransition : readOptional readU64 (auraField value "posdaoTransition") =
    some raw.posdaoTransition
  rewrites : readOptional (readMap parseU64 (readMap (readAddressKey readers) readers.bytes))
    (auraField value "rewriteBytecode") = some raw.rewriteBytecode

end Section

section Reading
variable {readers : JsonReaders} {value : Json} {raw : RawAuraConfig}

theorem bind_deserializeValidators :
    (auraField value "validators").bind (deserializeValidators readers) =
      readMap parseU64 (RawValidatorSetKind.deserialize readers) (multiField value) := by
  unfold multiField
  cases auraField value "validators" with
  | none => rfl
  | some validators =>
    simp only [Option.bind_some, deserializeValidators, bind]
    cases validators.structFields ["multi"] with
    | none => rfl
    | some field =>
      simp only [Option.bind_some]
      cases field "multi" <;> rfl

theorem deserialize_eq_some_iff :
    RawAuraConfig.deserialize readers value = some raw ↔ raw.ReadFrom readers value := by
  have hvalidators := @bind_deserializeValidators readers value
  have hfield : ∀ name, auraField value name =
      (value.structFields auraFields).bind (fun field => field name) := fun _ => rfl
  rw [hfield] at hvalidators
  constructor
  · intro h
    simp only [RawAuraConfig.deserialize, bind, Option.bind_eq_some_iff, pure,
      Option.some.injEq] at h
    obtain ⟨field, hfields, n, hn, validators, hmulti, addr, haddr, transition, htransition,
      transitions, htransitions, posdao, hposdao, rewrites, hrewrites, rfl⟩ := h
    rw [hfields, Option.bind_some, Option.bind_eq_some_iff.mpr hmulti] at hvalidators
    constructor <;> simp only [hfield, hfields, Option.bind_some]
    · exact Option.bind_eq_some_iff.mpr hn
    · exact hvalidators.symm
    · exact haddr
    · exact htransition
    · exact htransitions
    · exact hposdao
    · exact hrewrites
  · intro h
    cases hfields : value.structFields auraFields with
    | none =>
      have hstep := h.stepDuration
      rw [hfield, hfields] at hstep
      cases hstep
    | some field =>
      have hread := h.validators
      rw [← hvalidators, hfields, Option.bind_some] at hread
      obtain ⟨hstep, -, haddr, htransition, htransitions, hposdao, hrewrites⟩ := h
      simp only [hfield, hfields, Option.bind_some] at hstep haddr htransition htransitions
      simp only [hfield, hfields, Option.bind_some] at hposdao hrewrites
      simp only [RawAuraConfig.deserialize, hfields, hstep, hread, haddr, htransition,
        htransitions, hposdao, hrewrites, bind, pure, Option.bind_some]

theorem insertAll_optional {α : Type} {read : Json → Option α} {field : Option Json}
    {m : Option (BTreeMap ℕ α)} (h : readOptional (readMap parseU64 read) field = some m) :
    insertAll ((field.getD null).entries parseU64 read) ∅ = m.getD ∅ := by
  have hread : ∀ written, (readMap parseU64 read written).map some = some m →
      insertAll (written.entries parseU64 read) ∅ = m.getD ∅ := by
    intro written hwritten
    obtain ⟨map, hmap, rfl⟩ := Option.map_eq_some_iff.mp hwritten
    rw [(readMap_eq_some_iff.mp hmap).2, Option.getD_some]
  have hnone : some none = some m → insertAll ([] : List (ℕ × α)) ∅ = m.getD ∅ := by
    intro hm
    rw [← Option.some.inj hm]
    rfl
  cases field with
  | none => exact hnone h
  | some written =>
    cases written with
    | null => exact hnone h
    | bool b => exact hread _ h
    | number asU64 => exact hread _ h
    | string text => exact hread _ h
    | array items => exact hread _ h
    | object members => exact hread _ h

theorem RawAuraConfig.ReadFrom.sets (h : raw.ReadFrom readers value) :
    raw.sets = insertAll (validatorEntries readers value) ∅ := by
  obtain ⟨-, hentries⟩ := readMap_eq_some_iff.mp h.validators
  refine Std.ExtTreeMap.ext_getElem? ?_
  intro k
  rw [RawAuraConfig.sets, getElem?_insertAll_toList, hentries, getElem?_insertAll_empty,
    getElem?_insertAll_empty, validatorEntries, lastOf_map]

theorem RawAuraConfig.ReadFrom.legacyTransitions (h : raw.ReadFrom readers value) :
    raw.legacyTransitions = insertAll (legacyEntry readers value) ∅ := by
  unfold RawAuraConfig.legacyTransitions legacyEntry optionalField
  rw [h.rewardContract, h.rewardTransition, Option.join_some, Option.join_some]
  cases raw.blockRewardContractAddress <;> rfl

theorem RawAuraConfig.ReadFrom.rewardTransitions (h : raw.ReadFrom readers value) :
    raw.rewardTransitions = insertAll (rewardEntries readers value) ∅ := by
  have hmap := insertAll_optional h.rewardContracts
  refine Std.ExtTreeMap.ext_getElem? ?_
  intro k
  have hk := congrArg (fun m : BTreeMap ℕ Address => m[k]?) hmap
  simp only [getElem?_insertAll_empty] at hk
  rw [getElem?_insertAll_empty, rewardEntries, lastOf_append, hk]
  unfold RawAuraConfig.rewardTransitions
  cases raw.blockRewardContractTransitions with
  | none =>
    rw [h.legacyTransitions, getElem?_insertAll_empty, Option.getD_none,
      Std.ExtTreeMap.getElem?_empty, Option.none_or]
  | some transitions =>
    rw [getElem?_insertAll, lastOf_toList, h.legacyTransitions, getElem?_insertAll_empty,
      Option.getD_some]

theorem RawAuraConfig.ReadFrom.rewrites_get (h : raw.ReadFrom readers value) (n : ℕ) :
    raw.rewrites[n]? = lastOf (rewriteEntries readers value) n := by
  have hmap := insertAll_optional h.rewrites
  have hrewrites : raw.rewrites = raw.rewriteBytecode.getD ∅ := by
    unfold RawAuraConfig.rewrites
    cases raw.rewriteBytecode with
    | none => rfl
    | some rewrites => exact insertAll_toList rewrites
  rw [rewriteEntries, ← getElem?_insertAll_empty, hmap, hrewrites]

structure RawAuraConfig.Gives (raw : RawAuraConfig) (config : AuraConfig) : Prop where
  stepDuration : config.stepDuration = raw.stepDuration
  validators : config.validators.sets = raw.sets
  rewards : config.blockRewardContractTransitions = raw.rewardTransitions
  posdaoTransition : raw.posdaoTransition = some config.posdaoTransition
  rewrites : config.rewriteBytecode = raw.rewrites

theorem auraConfig_eq_ok_iff {config : AuraConfig} :
    raw.auraConfig = .ok config ↔ raw.Gives config := by
  unfold RawAuraConfig.auraConfig ValidatorSet.new
  constructor
  · intro h
    by_cases hempty : raw.sets.isEmpty = false
    · rw [dif_pos hempty] at h
      cases hposdao : raw.posdaoTransition with
      | none =>
        simp only [hposdao] at h
        cases h
      | some posdaoTransition =>
        simp only [hposdao] at h
        obtain rfl := Except.ok.inj h
        exact ⟨rfl, rfl, rfl, hposdao, rfl⟩
    · rw [dif_neg hempty] at h
      cases h
  · obtain ⟨stepDuration, ⟨sets, hnonempty⟩, rewards, posdaoTransition, rewrites⟩ := config
    rintro ⟨rfl, rfl, rfl, hposdao, rfl⟩
    rw [dif_pos hnonempty]
    simp only [hposdao]

theorem fromJsonValue_eq_ok_iff {config : AuraConfig} :
    AuraConfig.fromJsonValue readers value = .ok config ↔
      ∃ raw : RawAuraConfig, raw.ReadFrom readers value ∧ raw.Gives config := by
  unfold AuraConfig.fromJsonValue
  constructor
  · intro h
    cases hraw : RawAuraConfig.deserialize readers value with
    | none =>
      rw [hraw] at h
      cases h
    | some raw =>
      rw [hraw] at h
      exact ⟨raw, deserialize_eq_some_iff.mp hraw, auraConfig_eq_ok_iff.mp h⟩
  · rintro ⟨raw, hraw, hgives⟩
    rw [deserialize_eq_some_iff.mpr hraw]
    exact auraConfig_eq_ok_iff.mpr hgives

theorem RawAuraConfig.Gives.describes {config : AuraConfig} (hgives : raw.Gives config)
    (h : raw.ReadFrom readers value) : Describes readers value config := by
  have hvalidators : config.validators.sets = insertAll (validatorEntries readers value) ∅ :=
    hgives.validators.trans h.sets
  have hrewards : config.blockRewardContractTransitions =
      insertAll (rewardEntries readers value) ∅ := hgives.rewards.trans h.rewardTransitions
  refine ⟨?_, ?_, ?_, ?_, ?_⟩
  · rw [h.stepDuration, hgives.stepDuration]
  · exact readOptional_u64.mp (h.posdaoTransition.trans (congrArg some hgives.posdaoTransition))
  · intro n kind
    rw [← floor_insertAll_eq_some_iff, ← hvalidators]
    rfl
  · intro n contract
    rw [← floor_insertAll_eq_some_iff, ← hrewards]
    rfl
  · intro n
    rw [hgives.rewrites, h.rewrites_get]

theorem RawAuraConfig.Gives.auraSection {config : AuraConfig} (hgives : raw.Gives config)
    (h : raw.ReadFrom readers value) : AuraSection readers value := by
  refine ⟨⟨_, h.stepDuration⟩, (readMap_eq_some_iff.mp h.validators).1, ?_, ⟨_, h.rewardContract⟩,
    ⟨_, h.rewardTransition⟩, ⟨_, h.rewardContracts⟩, ?_, ⟨_, h.rewrites⟩⟩
  · intro hnil
    have hempty := config.validators.nonempty
    rw [hgives.validators, h.sets, isEmpty_insertAll, hnil] at hempty
    cases hempty
  · exact ⟨_, (hgives.describes h).posdaoTransition⟩

theorem AuraSection.accepted (h : AuraSection readers value) :
    ∃ config, AuraConfig.fromJsonValue readers value = .ok config := by
  obtain ⟨stepDuration, hstep⟩ := h.stepDuration
  obtain ⟨addr, haddr⟩ := h.rewardContract
  obtain ⟨transition, htransition⟩ := h.rewardTransition
  obtain ⟨transitions, htransitions⟩ := h.rewardContracts
  obtain ⟨posdaoTransition, hposdao⟩ := h.posdaoTransition
  obtain ⟨rewrites, hrewrites⟩ := h.rewrites
  have hmap := readMap_eq_some_iff.mpr ⟨h.validators, rfl⟩
  have hraw : RawAuraConfig.ReadFrom readers value ⟨stepDuration, _, addr, transition, transitions,
      some posdaoTransition, rewrites⟩ :=
    ⟨hstep, hmap, haddr, htransition, htransitions, readOptional_u64.mpr hposdao, hrewrites⟩
  have hnonempty : (insertAll (validatorEntries readers value) ∅).isEmpty = false := by
    rw [isEmpty_insertAll]
    exact List.isEmpty_eq_false_iff.mpr h.nonempty
  exact ⟨⟨stepDuration, ⟨_, hnonempty⟩, _, posdaoTransition, _⟩,
    fromJsonValue_eq_ok_iff.mpr ⟨_, hraw, rfl, hraw.sets.symm, rfl, rfl, rfl⟩⟩

end Reading

structure AuraConfig.FitsU64 (config : AuraConfig) : Prop where
  stepDuration : config.stepDuration < 2 ^ 64
  posdaoTransition : config.posdaoTransition < 2 ^ 64
  validators : ∀ k ∈ config.validators.sets, k < 2 ^ 64
  rewards : ∀ k ∈ config.blockRewardContractTransitions, k < 2 ^ 64
  rewrites : ∀ k ∈ config.rewriteBytecode, k < 2 ^ 64

structure JsonReaders.Writes (readers : JsonReaders) (addressText : Address → String)
    (bytesText : Bytes → String) : Prop where
  address : ∀ a, readers.address (.string (addressText a)) = some a
  bytes : ∀ b, readers.bytes (.string (bytesText b)) = some b

section Write
variable (addressText : Address → String) (bytesText : Bytes → String)

def writeAddress (a : Address) : Json := .string (addressText a)

def writeBytes (b : Bytes) : Json := .string (bytesText b)

def writeKind : ValidatorSetKind → Json
  | .list validators => .object [("list", .array (validators.map (writeAddress addressText)))]
  | .contract address => .object [("contract", writeAddress addressText address)]

def writeTransitions {α : Type} (write : α → Json) (m : BTreeMap ℕ α) : Json :=
  .object (m.toList.map (fun e => (e.1.repr, write e.2)))

def writeRewrites (rewrites : BTreeMap Address Bytes) : Json :=
  .object (rewrites.toList.map (fun e => (addressText e.1, writeBytes bytesText e.2)))

def writeU64 (n : ℕ) : Json := .number (some (UInt64.ofNat n))

def AuraConfig.toJson (config : AuraConfig) : Json :=
  .object
    [ ("stepDuration", writeU64 config.stepDuration),
      ("validators",
        .object [("multi", writeTransitions (writeKind addressText) config.validators.sets)]),
      ("blockRewardContractTransitions",
        writeTransitions (writeAddress addressText) config.blockRewardContractTransitions),
      ("posdaoTransition", writeU64 config.posdaoTransition),
      ("rewriteBytecode",
        writeTransitions (writeRewrites addressText bytesText) config.rewriteBytecode) ]

end Write

section Written
variable {readers : JsonReaders} {value : Json} {addressText : Address → String}
  {bytesText : Bytes → String}

theorem lt_of_mem_insertAll {α : Type} {l : List (ℕ × α)} (h : ∀ e ∈ l, e.1 < 2 ^ 64) :
    ∀ k ∈ insertAll l ∅, k < 2 ^ 64 := by
  intro k hk
  rw [Std.ExtTreeMap.mem_iff_isSome_getElem?, getElem?_insertAll_empty,
    Option.isSome_iff_exists] at hk
  obtain ⟨a, ha⟩ := hk
  exact h (k, a) (mem_of_lastOf ha)

theorem optionalField_u64_lt {name : String} {n : ℕ}
    (h : optionalField value readU64 name = some n) : n < 2 ^ 64 := by
  have hfield := readOptional_u64.mp (Option.join_eq_some_iff.mp h)
  obtain ⟨written, -, hread⟩ := Option.bind_eq_some_iff.mp hfield
  exact readU64_lt hread

theorem legacyEntry_lt : ∀ e ∈ legacyEntry readers value, e.1 < 2 ^ 64 := by
  intro e he
  unfold legacyEntry at he
  split at he
  · obtain rfl := List.mem_singleton.mp he
    cases htransition : optionalField value readU64 "blockRewardContractTransition" with
    | none => exact Nat.two_pow_pos 64
    | some n => exact optionalField_u64_lt htransition
  · cases he

theorem RawAuraConfig.Gives.fitsU64 {raw : RawAuraConfig} {config : AuraConfig}
    (hgives : raw.Gives config) (h : raw.ReadFrom readers value) : config.FitsU64 := by
  have hdescribes := hgives.describes h
  obtain ⟨_, -, hstep⟩ := Option.bind_eq_some_iff.mp hdescribes.stepDuration
  obtain ⟨_, -, hposdao⟩ := Option.bind_eq_some_iff.mp hdescribes.posdaoTransition
  refine ⟨readU64_lt hstep, readU64_lt hposdao, ?_, ?_, ?_⟩
  · rw [hgives.validators, h.sets]
    refine lt_of_mem_insertAll ?_
    intro e he
    obtain ⟨entry, hentry, rfl⟩ := List.mem_map.mp he
    exact entries_lt hentry
  · rw [hgives.rewards, h.rewardTransitions]
    refine lt_of_mem_insertAll ?_
    intro e he
    rcases List.mem_append.mp he with hlegacy | hentry
    · exact legacyEntry_lt e hlegacy
    · exact entries_lt hentry
  · intro k hk
    rw [Std.ExtTreeMap.mem_iff_isSome_getElem?, hdescribes.rewrites, Option.isSome_iff_exists] at hk
    obtain ⟨rewrites, hlast⟩ := hk
    exact entries_lt (mem_of_lastOf hlast)

def rawKind : ValidatorSetKind → RawValidatorSetKind
  | .list validators => .list validators
  | .contract address => .contract address

theorem validatorKind_rawKind (kind : ValidatorSetKind) : (rawKind kind).validatorKind = kind := by
  cases kind <;> rfl

theorem readKind_written (hwrites : readers.Writes addressText bytesText)
    (kind : ValidatorSetKind) :
    RawValidatorSetKind.deserialize readers (writeKind addressText kind) = some (rawKind kind) := by
  cases kind with
  | list validators =>
    have hlist : readVec readers.address (.array (validators.map (writeAddress addressText))) =
        some validators := readVec_written hwrites.address validators
    simp [writeKind, RawValidatorSetKind.deserialize, List.lookup_cons, hlist, rawKind]
  | contract address =>
    have haddress := hwrites.address address
    simp [writeKind, RawValidatorSetKind.deserialize, List.lookup_cons, writeAddress, haddress,
      rawKind]

theorem readTransitions_written {α : Type} {read : Json → Option α} {write : α → Json}
    {m : BTreeMap ℕ α} (hfits : ∀ k ∈ m, k < 2 ^ 64) (hread : ∀ a, read (write a) = some a) :
    readOptional (readMap parseU64 read) (some (writeTransitions write m)) = some (some m) := by
  have hm := readMap_written_self (fun k hk => parseU64_repr (hfits k hk)) hread
  exact congrArg (Option.map some) hm

def AuraConfig.rawSection (config : AuraConfig) : RawAuraConfig where
  stepDuration := config.stepDuration
  validators := insertAll (config.validators.sets.toList.map (fun e => (e.1, rawKind e.2))) ∅
  blockRewardContractAddress := none
  blockRewardContractTransition := none
  blockRewardContractTransitions := some config.blockRewardContractTransitions
  posdaoTransition := some config.posdaoTransition
  rewriteBytecode := some config.rewriteBytecode

theorem rawSection_readFrom {config : AuraConfig} (hwrites : readers.Writes addressText bytesText)
    (hfits : config.FitsU64) :
    config.rawSection.ReadFrom readers (config.toJson addressText bytesText) := by
  have hrewrites : ∀ rewrites, readMap (readAddressKey readers) readers.bytes
      (writeRewrites addressText bytesText rewrites) = some rewrites := fun rewrites =>
    readMap_written_self (fun a _ => hwrites.address a) hwrites.bytes
  constructor <;>
    simp only [auraField, multiField, AuraConfig.toJson, structFields, Option.bind_some,
      List.lookup_cons, String.reduceBEq, Option.getD_some]
  · exact readU64_number hfits.stepDuration
  · exact readMap_written (fun k hk => parseU64_repr (hfits.validators k hk))
      (readKind_written hwrites)
  · rfl
  · rfl
  · exact readTransitions_written hfits.rewards hwrites.address
  · exact congrArg (Option.map some) (readU64_number hfits.posdaoTransition)
  · exact readTransitions_written hfits.rewrites hrewrites

theorem rawSection_gives (config : AuraConfig) : config.rawSection.Gives config := by
  refine ⟨rfl, ?_, ?_, rfl, (insertAll_toList _).symm⟩
  · refine Std.ExtTreeMap.ext_getElem? ?_
    intro k
    rw [RawAuraConfig.sets, getElem?_insertAll_toList, AuraConfig.rawSection,
      getElem?_insertAll_toList, Option.map_map]
    cases config.validators.sets[k]? with
    | none => rfl
    | some kind => exact congrArg some (validatorKind_rawKind kind).symm
  · exact (insertAll_toList _).symm

theorem fromJsonValue_toJson {config : AuraConfig} (hwrites : readers.Writes addressText bytesText)
    (hfits : config.FitsU64) :
    AuraConfig.fromJsonValue readers (config.toJson addressText bytesText) = .ok config :=
  fromJsonValue_eq_ok_iff.mpr
    ⟨config.rawSection, rawSection_readFrom hwrites hfits, rawSection_gives config⟩

end Written

/-- A section is accepted exactly if its fields can be read, it has a validator set and it has a
POSDAO transition; what the configuration says of each block is the section's latest entry; and the
configurations that sections give are those of `u64` numbers. -/
theorem aura_section_parses {readers : JsonReaders} {addressText : Address → String}
    {bytesText : Bytes → String} (hwrites : readers.Writes addressText bytesText) :
    (∀ value, (∃ config, AuraConfig.fromJsonValue readers value = .ok config) ↔
      AuraSection readers value) ∧
    (∀ value config, AuraConfig.fromJsonValue readers value = .ok config →
      Describes readers value config) ∧
    ∀ config, (∃ value, AuraConfig.fromJsonValue readers value = .ok config) ↔
      config.FitsU64 := by
  refine ⟨?_, ?_, ?_⟩
  · intro value
    constructor
    · rintro ⟨config, hok⟩
      obtain ⟨raw, hraw, hgives⟩ := fromJsonValue_eq_ok_iff.mp hok
      exact hgives.auraSection hraw
    · exact AuraSection.accepted
  · intro value config hok
    obtain ⟨raw, hraw, hgives⟩ := fromJsonValue_eq_ok_iff.mp hok
    exact hgives.describes hraw
  · intro config
    constructor
    · rintro ⟨value, hok⟩
      obtain ⟨raw, hraw, hgives⟩ := fromJsonValue_eq_ok_iff.mp hok
      exact hgives.fitsU64 hraw
    · intro hfits
      exact ⟨_, fromJsonValue_toJson hwrites hfits⟩

section Reference

def hexValue (c : Char) : Option ℕ :=
  if c.isDigit then some (c.toNat - '0'.toNat)
  else if 'a' ≤ c ∧ c ≤ 'f' then some (c.toNat - 'a'.toNat + 10)
  else if 'A' ≤ c ∧ c ≤ 'F' then some (c.toNat - 'A'.toNat + 10)
  else none

def readHexDigits : List Char → Option Bytes
  | [] => some []
  | high :: low :: rest =>
    (hexValue high).bind (fun h => (hexValue low).bind (fun l =>
      (readHexDigits rest).map (fun bytes => UInt8.ofNat (16 * h + l) :: bytes)))
  | [_] => none

def readHex (text : String) : Option Bytes :=
  match text.toList with
  | '0' :: 'x' :: digits => readHexDigits digits
  | digits => readHexDigits digits

def addressOfBytes (bytes : Bytes) : Option Address :=
  if bytes.length = 20 then some (BitVec.ofNat 160 (Rlp.value bytes)) else none

def hexReaders : JsonReaders where
  address value :=
    match value with
    | .string text => (readHex text).bind addressOfBytes
    | _ => none
  bytes value :=
    match value with
    | .string text => readHex text
    | _ => none

def displayAddress (a : Address) : String := displayBytes (Rlp.fixedBytes 20 a.toNat)

theorem hexValue_hexDigit : ∀ n < 16, hexValue (hexDigit n) = some n := by decide

theorem readHexDigits_hexEncode (bytes : Bytes) :
    readHexDigits (hexEncode bytes).toList = some bytes := by
  unfold hexEncode
  rw [String.toList_ofList]
  induction bytes with
  | nil => rfl
  | cons byte rest ih =>
    have hlt := byte.toNat_lt
    have hbyte : UInt8.ofNat (16 * (byte.toNat / 16) + byte.toNat % 16) = byte := by
      rw [Nat.div_add_mod, UInt8.ofNat_toNat]
    rw [List.flatMap_cons, List.cons_append, List.cons_append, List.nil_append, readHexDigits,
      hexValue_hexDigit _ (by omega), hexValue_hexDigit _ (by omega), Option.bind_some,
      Option.bind_some, ih, Option.map_some, hbyte]

theorem readHex_displayBytes (bytes : Bytes) : readHex (displayBytes bytes) = some bytes := by
  have hdigits := readHexDigits_hexEncode bytes
  have htext : (displayBytes bytes).toList = '0' :: 'x' :: (hexEncode bytes).toList := by
    unfold displayBytes
    rw [String.toList_append]
    rfl
  rw [readHex, htext]
  exact hdigits

theorem addressOfBytes_fixedBytes (a : Address) :
    addressOfBytes (Rlp.fixedBytes 20 a.toNat) = some a := by
  have hlt : a.toNat < 256 ^ 20 := lt_of_lt_of_eq a.isLt (by decide)
  rw [addressOfBytes, if_pos (Rlp.length_fixedBytes 20 a.toNat), Rlp.value_fixedBytes_of_lt hlt,
    BitVec.ofNat_toNat, BitVec.setWidth_eq]

theorem hexReaders_address (text : String) :
    hexReaders.address (.string text) = (readHex text).bind addressOfBytes := rfl

theorem hexReaders_bytes (text : String) : hexReaders.bytes (.string text) = readHex text := rfl

theorem hexReaders_writes : hexReaders.Writes displayAddress displayBytes := by
  constructor
  · intro a
    rw [hexReaders_address, displayAddress, readHex_displayBytes, Option.bind_some,
      addressOfBytes_fixedBytes]
  · intro b
    rw [hexReaders_bytes, readHex_displayBytes]

def gnosisSection : Json :=
  .object
    [ ("stepDuration", .number (some 5)),
      ("blockReward", .number (some 0)),
      ("validators", .object [("multi", .object
        [ ("0", .object [("list", .array [.string "0xcace5b3c29211740e595850e80478416ee77ca21"])]),
          ("1300", .object
            [("safeContract", .string "0x22e1229a2c5b95a60983b5577f745a603284f535")]),
          ("9186425", .object
            [("contract", .string "0xB87BE9f7196F2AE084Ca1DE6af5264292976e013")]) ])]),
      ("blockRewardContractAddress", .string "0x867305d19606aadba405ce534e303d0e225f9556"),
      ("blockRewardContractTransition", .number (some 1310)),
      ("blockRewardContractTransitions", .object
        [("9186425", .string "0x481c034c6d9441db23ea48de68bcae812c5d39ba")]),
      ("posdaoTransition", .number (some 9186425)),
      ("rewriteBytecode", .object
        [("21735000", .object
          [("0xf8D1677c8a0c961938bf2f9aDc3F3CFDA759A9d9", .string "0x6080604052")])]) ]

theorem gnosisSection_validators :
    validatorEntries hexReaders gnosisSection =
      [ (0, .list [0xcace5b3c29211740e595850e80478416ee77ca21#160]),
        (1300, .contract 0x22e1229a2c5b95a60983b5577f745a603284f535#160),
        (9186425, .contract 0xB87BE9f7196F2AE084Ca1DE6af5264292976e013#160) ] := by
  decide +kernel

theorem gnosisSection_rewards :
    rewardEntries hexReaders gnosisSection =
      [ (1310, 0x867305d19606aadba405ce534e303d0e225f9556#160),
        (9186425, 0x481c034c6d9441db23ea48de68bcae812c5d39ba#160) ] := by
  decide +kernel

theorem gnosisSection_accepted : AuraSection hexReaders gnosisSection where
  stepDuration := ⟨5, by decide +kernel⟩
  validators := by
    intro member hmember
    have hall : ∀ member ∈
        [ ("0", .object [("list", .array [.string "0xcace5b3c29211740e595850e80478416ee77ca21"])]),
          ("1300", .object
            [("safeContract", .string "0x22e1229a2c5b95a60983b5577f745a603284f535")]),
          ("9186425", .object
            [("contract", .string "0xB87BE9f7196F2AE084Ca1DE6af5264292976e013")]) ],
        (readMember parseU64 (RawValidatorSetKind.deserialize hexReaders) member).isSome =
          true := by
      decide +kernel
    exact Option.isSome_iff_exists.mp (hall member hmember)
  nonempty := by
    rw [gnosisSection_validators]
    exact List.cons_ne_nil _ _
  rewardContract := ⟨some 0x867305d19606aadba405ce534e303d0e225f9556#160, by decide +kernel⟩
  rewardTransition := ⟨some 1310, by decide +kernel⟩
  rewardContracts := Option.isSome_iff_exists.mp (by decide +kernel)
  posdaoTransition := ⟨9186425, by decide +kernel⟩
  rewrites := Option.isSome_iff_exists.mp (by decide +kernel)

theorem aura_section_parses_gnosis :
    ∃ config, AuraConfig.fromJsonValue hexReaders gnosisSection = .ok config ∧
      config.validators.kindAt 1299 =
        some (.list [0xcace5b3c29211740e595850e80478416ee77ca21#160]) ∧
      config.validators.kindAt 9186424 =
        some (.contract 0x22e1229a2c5b95a60983b5577f745a603284f535#160) ∧
      transitionAt config.blockRewardContractTransitions 9186424 =
        some 0x867305d19606aadba405ce534e303d0e225f9556#160 ∧
      config.FitsU64 := by
  obtain ⟨haccepted, hdescribes, hfits⟩ := aura_section_parses hexReaders_writes
  obtain ⟨config, hok⟩ := (haccepted gnosisSection).mpr gnosisSection_accepted
  have hsection := hdescribes gnosisSection config hok
  refine ⟨config, hok, (hsection.validators 1299 _).mpr ?_, (hsection.validators 9186424 _).mpr ?_,
    (hsection.rewards 9186424 _).mpr ?_, (hfits config).mp ⟨gnosisSection, hok⟩⟩
  · rw [gnosisSection_validators]
    exact ⟨0, by decide, by decide, by decide⟩
  · rw [gnosisSection_validators]
    exact ⟨1300, by decide, by decide, by decide⟩
  · rw [gnosisSection_rewards]
    exact ⟨1310, by decide, by decide, by decide⟩

end Reference

end RethGnosis
