import RethGnosis.Library.NetMetering
import RethGnosis.Evm.Cfg

set_option autoImplicit false

/-!
# Storage writes before Petersburg

`sstore_eip1283` and the instruction table of `create_evm`. revm's gas formulas, its
journal and its own SSTORE are parameters; `get_cfg_env` sets five entries of the gas
table and leaves the others as revm has them for the spec.
-/
namespace RethGnosis

structure SpecGasParams where
  coldStorageCost : ℕ
  sstoreClearingSlotRefund : ℕ
deriving DecidableEq

structure SstoreGasParams extends GasParams, SpecGasParams
deriving DecidableEq

structure SStoreResult where
  originalValue : U256
  presentValue : U256
  newValue : U256
deriving DecidableEq

inductive InstructionResult where
  | stateChangeDuringStaticCall
  | stackUnderflow
  | outOfGas
  | fatalExternalError
deriving DecidableEq

/-- What SSTORE reads and changes of the interpreter and of the host `η`. -/
structure InstructionContext (η : Type) where
  isStatic : Bool
  stack : List U256
  targetAddress : Address
  remaining : ℕ
  refunded : ℤ
  gasParams : SstoreGasParams
  host : η

structure Instruction (η : Type) where
  run : InstructionContext η → Except InstructionResult (InstructionContext η)
  staticGas : ℕ

/-- The interpreter charges the static gas, then runs the instruction. -/
def Instruction.execute {η : Type} (instruction : Instruction η) (context : InstructionContext η) :
    Except InstructionResult (InstructionContext η) :=
  if context.remaining < instruction.staticGas then .error .outOfGas
  else instruction.run { context with remaining := context.remaining - instruction.staticGas }

/-- revm's own part of a storage write. `sstore` answers with the slot's values, whether it was
cold, and the host after the write. -/
structure RevmSstore (η : Type) where
  specGasParams : SpecId → SpecGasParams
  sstoreDynamicGas : SstoreGasParams → (isIstanbul : Bool) → SStoreResult → (isCold : Bool) → ℕ
  sstoreRefund : SstoreGasParams → (isIstanbul : Bool) → SStoreResult → ℤ
  sstore : η → Address → (index value : U256) → Option (SStoreResult × Bool × η)
  mainnetSstore : Instruction η

section Instruction
variable {η : Type} (revm : RevmSstore η)

def sstoreEip1283 (context : InstructionContext η) :
    Except InstructionResult (InstructionContext η) :=
  if context.isStatic then .error .stateChangeDuringStaticCall
  else
    match context.stack with
    | index :: value :: rest =>
      if context.remaining < context.gasParams.sstoreStatic then .error .outOfGas
      else
        let remaining := context.remaining - context.gasParams.sstoreStatic
        match revm.sstore context.host context.targetAddress index value with
        | none => .error .fatalExternalError
        | some (stateLoad, isCold, host) =>
          let dynamicGas := revm.sstoreDynamicGas context.gasParams true stateLoad isCold
          if remaining < dynamicGas then .error .outOfGas
          else
            .ok { context with
              stack := rest
              remaining := remaining - dynamicGas
              refunded := context.refunded + revm.sstoreRefund context.gasParams true stateLoad
              host := host }
    | _ => .error .stackUnderflow

def createEvmSstore (cfg : CfgEnv) : Instruction η :=
  if cfg.spec = .CONSTANTINOPLE then ⟨sstoreEip1283 revm, 0⟩ else revm.mainnetSstore

def CfgEnv.sstoreGasParams (cfg : CfgEnv) : SstoreGasParams where
  toGasParams := cfg.gasParams
  toSpecGasParams := revm.specGasParams cfg.spec

end Instruction

/-- revm's formulas from Istanbul on, its table at Constantinople, and its journal; `slot` is the
original and the present value of a storage slot. -/
structure RevmSstore.Laws {η : Type} (revm : RevmSstore η)
    (slot : η → Address → U256 → U256 × U256) : Prop where
  dynamicGas : ∀ (gas : SstoreGasParams) (vals : SStoreResult) (isCold : Bool),
    revm.sstoreDynamicGas gas true vals isCold =
      (if isCold then gas.coldStorageCost else 0) +
        if vals.newValue ≠ vals.presentValue ∧ vals.originalValue = vals.presentValue then
          if vals.originalValue = 0 then gas.sstoreSetWithoutLoadCost
          else gas.sstoreResetWithoutColdLoadCost
        else 0
  refund : ∀ (gas : SstoreGasParams) (vals : SStoreResult),
    revm.sstoreRefund gas true vals =
      if vals.newValue = vals.presentValue then 0
      else if vals.originalValue = vals.presentValue ∧ vals.newValue = 0 then
        (gas.sstoreClearingSlotRefund : ℤ)
      else
        (if vals.originalValue ≠ 0 then
          if vals.presentValue = 0 then -(gas.sstoreClearingSlotRefund : ℤ)
          else if vals.newValue = 0 then (gas.sstoreClearingSlotRefund : ℤ)
          else 0
        else 0) +
        if vals.originalValue = vals.newValue then
          if vals.originalValue = 0 then (gas.sstoreSetRefund : ℤ)
          else (gas.sstoreResetRefund : ℤ)
        else 0
  coldStorageCost : (revm.specGasParams .CONSTANTINOPLE).coldStorageCost = 0
  clearingSlotRefund : (revm.specGasParams .CONSTANTINOPLE).sstoreClearingSlotRefund = 15000
  sstore : ∀ (host : η) (address : Address) (index value : U256) (vals : SStoreResult)
    (isCold : Bool) (next : η), revm.sstore host address index value = some (vals, isCold, next) →
      vals = ⟨(slot host address index).1, (slot host address index).2, value⟩

def eip1283 : NetMetering.Schedule where
  noop := 200
  set := 20000
  reset := 5000
  clear := 15000
  noop_le_set := by decide
  noop_le_reset := by decide

def eip1283GasParams : SstoreGasParams where
  toGasParams := .eip1283
  coldStorageCost := 0
  sstoreClearingSlotRefund := 15000

section Write
variable {η : Type} {revm : RevmSstore η} {slot : η → Address → U256 → U256 × U256}

theorem sstoreGasParams_eq (hlaws : revm.Laws slot) {cfg : CfgEnv}
    (hspec : cfg.spec = .CONSTANTINOPLE) (hgas : cfg.gasParams = .eip1283) :
    cfg.sstoreGasParams revm = eip1283GasParams := by
  have hcold := hlaws.coldStorageCost
  have hclear := hlaws.clearingSlotRefund
  unfold CfgEnv.sstoreGasParams eip1283GasParams
  rw [hspec, hgas]
  generalize revm.specGasParams .CONSTANTINOPLE = unchanged at hcold hclear ⊢
  cases unchanged
  dsimp only at hcold hclear
  rw [hcold, hclear]

theorem dynamicGas_eip1283 (hlaws : revm.Laws slot) (original current new : U256)
    (isCold : Bool) :
    200 + revm.sstoreDynamicGas eip1283GasParams true ⟨original, current, new⟩ isCold =
      NetMetering.cost eip1283 original current new := by
  have hcold : (if isCold then eip1283GasParams.coldStorageCost else 0) = 0 := ite_self 0
  rw [hlaws.dynamicGas, hcold, Nat.zero_add, NetMetering.cost]
  dsimp only
  by_cases hsame : current = new
  · rw [if_pos hsame, if_neg (fun h => h.1 hsame.symm)]
    rfl
  · rw [if_neg hsame]
    by_cases hclean : original = current
    · rw [if_pos ⟨Ne.symm hsame, hclean⟩, if_pos hclean]
      split_ifs <;> rfl
    · rw [if_neg (fun h => hclean h.2), if_neg hclean]
      rfl

theorem refund_eip1283 (hlaws : revm.Laws slot) (original current new : U256) :
    revm.sstoreRefund eip1283GasParams true ⟨original, current, new⟩ =
      NetMetering.refund eip1283 original current new := by
  have hset : (eip1283GasParams.sstoreSetRefund : ℤ) = eip1283.set - eip1283.noop := by decide
  have hreset : (eip1283GasParams.sstoreResetRefund : ℤ) = eip1283.reset - eip1283.noop := by
    decide
  have hclear : (eip1283GasParams.sstoreClearingSlotRefund : ℤ) = eip1283.clear := rfl
  rw [hlaws.refund, NetMetering.refund, hset, hreset, hclear]
  dsimp only
  by_cases hsame : current = new
  · rw [if_pos hsame.symm, if_pos hsame]
  · rw [if_neg (Ne.symm hsame), if_neg hsame]
    by_cases hclean : original = current
    · subst hclean
      by_cases hn : new = 0
      · have ho : original ≠ 0 := fun ho => hsame (ho.trans hn.symm)
        simp [ho, hn]
      · simp only [hn, hsame, and_false, ↓reduceIte, Int.add_zero]
        split_ifs <;> rfl
    · rw [if_neg (fun h => hclean h.1), if_neg hclean, NetMetering.clearRefund,
        NetMetering.restoreRefund]
      by_cases ho : original = 0
      · simp [ho]
      · simp [ho]

theorem sstoreEip1283_run (hlaws : revm.Laws slot) {context : InstructionContext η}
    (hgas : context.gasParams = eip1283GasParams) (hstatic : context.isStatic = false)
    {index value : U256} {rest : List U256} (hstack : context.stack = index :: value :: rest)
    {original current : U256}
    (hslot : slot context.host context.targetAddress index = (original, current))
    {vals : SStoreResult} {isCold : Bool} {next : η}
    (hload : revm.sstore context.host context.targetAddress index value =
      some (vals, isCold, next)) :
    sstoreEip1283 revm context =
      if context.remaining < NetMetering.cost eip1283 original current value then
        .error .outOfGas
      else
        .ok { context with
          stack := rest
          remaining := context.remaining - NetMetering.cost eip1283 original current value
          refunded := context.refunded + NetMetering.refund eip1283 original current value
          host := next } := by
  have hvals := hlaws.sstore _ _ _ _ _ _ _ hload
  rw [hslot] at hvals
  subst hvals
  have hdynamic := dynamicGas_eip1283 hlaws original current value isCold
  have hrefund := refund_eip1283 hlaws original current value
  have hnoop : eip1283GasParams.sstoreStatic = 200 := rfl
  unfold sstoreEip1283
  simp only [hstatic, hstack, hload, hgas, hnoop, hrefund, Bool.false_eq_true, ↓reduceIte]
  rw [← hdynamic, Nat.sub_add_eq]
  by_cases hlow : context.remaining < 200
  · rw [if_pos hlow, if_pos (by omega)]
  · rw [if_neg hlow]
    split_ifs with hdynamicLow htotal htotal
    · rfl
    · omega
    · omega
    · rfl

theorem createEvmSstore_execute {cfg : CfgEnv} (hspec : cfg.spec = .CONSTANTINOPLE)
    (context : InstructionContext η) :
    (createEvmSstore revm cfg).execute context = sstoreEip1283 revm context := by
  rw [createEvmSstore, if_pos hspec, Instruction.execute, if_neg (Nat.not_lt_zero _)]
  rfl

end Write

/-- One SSTORE of a transaction: the context before it, the value it writes and the context after
it. -/
structure SlotWrite (η : Type) where
  before : InstructionContext η
  value : U256
  after : InstructionContext η

def SlotWrite.cost {η : Type} (write : SlotWrite η) : ℤ :=
  write.before.remaining - write.after.remaining

def SlotWrite.refund {η : Type} (write : SlotWrite η) : ℤ :=
  write.after.refunded - write.before.refunded

section Sequence
variable {η : Type} (revm : RevmSstore η) (slot : η → Address → U256 → U256 × U256)
  (cfg : CfgEnv) (address : Address) (index original : U256)

structure Writes (current : U256) (write : SlotWrite η) : Prop where
  gasParams : write.before.gasParams = cfg.sstoreGasParams revm
  target : write.before.targetAddress = address
  stack : ∃ rest, write.before.stack = index :: write.value :: rest
  slot : slot write.before.host address index = (original, current)
  runs : (createEvmSstore revm cfg).execute write.before = .ok write.after

/-- The writes to the slot, one after the other; between two of them anything may run that leaves
the slot alone. -/
def WritesInTurn : U256 → List (SlotWrite η) → Prop
  | _, [] => True
  | current, write :: rest =>
    Writes revm slot cfg address index original current write ∧ WritesInTurn write.value rest

end Sequence

section Metering
variable {η : Type} {revm : RevmSstore η} {slot : η → Address → U256 → U256 × U256}
  {cfg : CfgEnv} {address : Address} {index original current : U256}

theorem sstoreEip1283_ok {context after : InstructionContext η} {value : U256} {rest : List U256}
    (hstack : context.stack = index :: value :: rest)
    (h : sstoreEip1283 revm context = .ok after) :
    context.isStatic = false ∧ ∃ vals isCold next,
      revm.sstore context.host context.targetAddress index value = some (vals, isCold, next) := by
  unfold sstoreEip1283 at h
  simp only [hstack] at h
  split_ifs at h with hstatic hlow
  refine ⟨by simpa using hstatic, ?_⟩
  cases hload : revm.sstore context.host context.targetAddress index value with
  | none =>
    rw [hload] at h
    cases h
  | some loaded => exact ⟨loaded.1, loaded.2.1, loaded.2.2, rfl⟩

theorem Writes.metered (hlaws : revm.Laws slot) (hspec : cfg.spec = .CONSTANTINOPLE)
    (hgas : cfg.gasParams = .eip1283) {write : SlotWrite η}
    (h : Writes revm slot cfg address index original current write) :
    write.cost = NetMetering.cost eip1283 original current write.value ∧
      write.refund = NetMetering.refund eip1283 original current write.value := by
  obtain ⟨rest, hstack⟩ := h.stack
  have hruns := h.runs
  have htarget := h.target
  have hparams := h.gasParams
  rw [createEvmSstore_execute hspec] at hruns
  rw [sstoreGasParams_eq hlaws hspec hgas] at hparams
  obtain ⟨hstatic, vals, isCold, next, hload⟩ := sstoreEip1283_ok hstack hruns
  subst htarget
  rw [sstoreEip1283_run hlaws hparams hstatic hstack h.slot hload] at hruns
  split_ifs at hruns with henough
  have hafter := Except.ok.inj hruns
  unfold SlotWrite.cost SlotWrite.refund
  rw [← hafter]
  dsimp only
  omega

theorem WritesInTurn.take {writes : List (SlotWrite η)}
    (h : WritesInTurn revm slot cfg address index original current writes) (j : ℕ) :
    WritesInTurn revm slot cfg address index original current (writes.take j) := by
  induction writes generalizing current j with
  | nil =>
    rw [List.take_nil]
    exact trivial
  | cons write rest ih =>
    cases j with
    | zero => exact trivial
    | succ j => exact ⟨h.1, ih h.2 j⟩

theorem WritesInTurn.sums (hlaws : revm.Laws slot) (hspec : cfg.spec = .CONSTANTINOPLE)
    (hgas : cfg.gasParams = .eip1283) {writes : List (SlotWrite η)}
    (h : WritesInTurn revm slot cfg address index original current writes) :
    (writes.map SlotWrite.cost).sum =
        NetMetering.totalCost eip1283 original current (writes.map SlotWrite.value) ∧
      (writes.map SlotWrite.refund).sum =
        NetMetering.totalRefund eip1283 original current (writes.map SlotWrite.value) := by
  induction writes generalizing current with
  | nil => exact ⟨rfl, rfl⟩
  | cons write rest ih =>
    obtain ⟨hcost, hrefund⟩ := h.1.metered hlaws hspec hgas
    obtain ⟨hcosts, hrefunds⟩ := ih h.2
    simp only [List.map_cons, List.sum_cons, NetMetering.totalCost, NetMetering.totalRefund,
      Int.natCast_add]
    exact ⟨by rw [hcost, hcosts], by rw [hrefund, hrefunds]⟩

end Metering

/-- What all writes cost beyond 200 each, by the original and the last value. -/
def netCost (original last : U256) : ℤ :=
  if last = original then 0
  else if original = 0 then 19800
  else if last = 0 then 4800 - 15000
  else 4800

theorem net_eip1283 (original last : U256) :
    NetMetering.net eip1283 original last = netCost original last := by
  unfold NetMetering.net netCost
  split_ifs <;> rfl

/-- In the environment of a pre-merge Constantinople header an SSTORE that loads its slot is priced
by EIP-1283; over the writes to a slot in one transaction the refund never falls below zero, and
cost less refund is 200 for each write plus the net cost of the last value. -/
theorem sstore_net_metering {η : Type} {revm : RevmSstore η}
    {slot : η → Address → U256 → U256 × U256} (hlaws : revm.Laws slot) {source : EnvSource}
    {chainSpec : GnosisChainSpec} {header : GnosisHeader}
    (hpre : source.isPreMerge header = true)
    (hspec : gnosisRevmSpec source chainSpec header = .CONSTANTINOPLE) :
    let cfg := (evmEnv source chainSpec header).1
    (∀ (context : InstructionContext η) (index value : U256) (rest : List U256)
        (original current : U256) (vals : SStoreResult) (isCold : Bool) (next : η),
      context.gasParams = cfg.sstoreGasParams revm → context.isStatic = false →
      context.stack = index :: value :: rest →
      slot context.host context.targetAddress index = (original, current) →
      revm.sstore context.host context.targetAddress index value = some (vals, isCold, next) →
        (createEvmSstore revm cfg).execute context =
          if context.remaining < NetMetering.cost eip1283 original current value then
            .error .outOfGas
          else
            .ok { context with
              stack := rest
              remaining := context.remaining - NetMetering.cost eip1283 original current value
              refunded := context.refunded + NetMetering.refund eip1283 original current value
              host := next }) ∧
    ∀ (address : Address) (index original : U256) (writes : List (SlotWrite η))
        (last : SlotWrite η),
      WritesInTurn revm slot cfg address index original original writes →
      writes.getLast? = some last →
        (∀ j, 0 ≤ ((writes.take j).map SlotWrite.refund).sum) ∧
        (writes.map SlotWrite.cost).sum - (writes.map SlotWrite.refund).sum =
          200 * writes.length + netCost original last.value := by
  have hcfg : (evmEnv source chainSpec header).1.spec = .CONSTANTINOPLE := by
    rw [evmEnv_spec, hspec]
  have hgas := evmEnv_gasParams source chainSpec header hpre hspec
  refine ⟨?_, ?_⟩
  · intro context index value rest original current vals isCold next hparams hstatic hstack hslot
      hload
    rw [sstoreGasParams_eq hlaws hcfg hgas] at hparams
    rw [createEvmSstore_execute hcfg]
    exact sstoreEip1283_run hlaws hparams hstatic hstack hslot hload
  · intro address index original writes last hwrites hlast
    constructor
    · intro j
      rw [((hwrites.take j).sums hlaws hcfg hgas).2]
      exact NetMetering.totalRefund_nonneg _
    · obtain ⟨hcosts, hrefunds⟩ := hwrites.sums hlaws hcfg hgas
      have hend : (writes.map SlotWrite.value).getLastD original = last.value := by
        rw [List.getLastD_eq_getLast?, List.getLast?_map, hlast]
        rfl
      rw [hcosts, hrefunds, NetMetering.totalCost_sub_totalRefund, hend, net_eip1283, net_eip1283,
        List.length_map]
      have hstart : netCost original original = 0 := if_pos rfl
      rw [hstart, Int.sub_zero]
      rfl

section Reference

def oneSlotRevm : RevmSstore (U256 × U256) where
  specGasParams := fun spec =>
    { coldStorageCost := if spec.isEnabledIn .BERLIN then 2100 else 0
      sstoreClearingSlotRefund := if spec.isEnabledIn .LONDON then 4800 else 15000 }
  sstoreDynamicGas := fun gas isIstanbul vals isCold =>
    if isIstanbul then
      (if isCold then gas.coldStorageCost else 0) +
        if vals.newValue ≠ vals.presentValue ∧ vals.originalValue = vals.presentValue then
          if vals.originalValue = 0 then gas.sstoreSetWithoutLoadCost
          else gas.sstoreResetWithoutColdLoadCost
        else 0
    else if vals.presentValue = 0 ∧ vals.newValue ≠ 0 then gas.sstoreSetWithoutLoadCost
    else gas.sstoreResetWithoutColdLoadCost
  sstoreRefund := fun gas isIstanbul vals =>
    if isIstanbul then
      if vals.newValue = vals.presentValue then 0
      else if vals.originalValue = vals.presentValue ∧ vals.newValue = 0 then
        (gas.sstoreClearingSlotRefund : ℤ)
      else
        (if vals.originalValue ≠ 0 then
          if vals.presentValue = 0 then -(gas.sstoreClearingSlotRefund : ℤ)
          else if vals.newValue = 0 then (gas.sstoreClearingSlotRefund : ℤ)
          else 0
        else 0) +
        if vals.originalValue = vals.newValue then
          if vals.originalValue = 0 then (gas.sstoreSetRefund : ℤ)
          else (gas.sstoreResetRefund : ℤ)
        else 0
    else if vals.presentValue ≠ 0 ∧ vals.newValue = 0 then gas.sstoreClearingSlotRefund
    else 0
  sstore := fun host _ _ value => some (⟨host.1, host.2, value⟩, false, (host.1, value))
  mainnetSstore := ⟨fun _ => .error .fatalExternalError, 0⟩

theorem oneSlotRevm_laws : oneSlotRevm.Laws (fun host _ _ => host) where
  dynamicGas := fun _ _ _ => rfl
  refund := fun _ _ => rfl
  coldStorageCost := rfl
  clearingSlotRefund := rfl
  sstore := by
    intro host address index value vals isCold next h
    cases h
    rfl

def constantinopleSource : EnvSource where
  mainnetGasParams := fun _ => ⟨5000, 15000, 0, 15000, 0⟩
  isPreMerge := fun header => header.mixHash.isNone
  revmSpec := fun _ _ => .MERGE
  blobParamsAtTimestamp := fun _ _ => none
  calcBlobFee := fun _ _ => 0

def constantinopleSpec : GnosisChainSpec where
  chainId := 100
  genesis := ⟨∅⟩
  hardforks := [(.ethereum .Constantinople, .block 0)]
  depositContract := none
  balancerHardforkConfig := none
  auraConfig := none

def slotContext (value : U256) (remaining : ℕ) (refunded : ℤ) (host : U256 × U256) :
    InstructionContext (U256 × U256) :=
  ⟨false, [3, value], 9#160, remaining, refunded, eip1283GasParams, host⟩

def fillAndEmpty : List (SlotWrite (U256 × U256)) :=
  [ { before := slotContext 7 100000 0 (0, 0)
      value := 7
      after := { slotContext 7 80000 0 (0, 7) with stack := [] } },
    { before := slotContext 0 80000 0 (0, 7)
      value := 0
      after := { slotContext 0 79800 19800 (0, 0) with stack := [] } } ]

theorem fillAndEmpty_inTurn :
    WritesInTurn oneSlotRevm (fun host _ _ => host)
      (evmEnv constantinopleSource constantinopleSpec default).1 9#160 3 0 0 fillAndEmpty :=
  ⟨⟨rfl, rfl, ⟨[], rfl⟩, rfl, rfl⟩, ⟨rfl, rfl, ⟨[], rfl⟩, rfl, rfl⟩, trivial⟩

theorem sstore_net_metering_fillAndEmpty :
    (∀ j, 0 ≤ ((fillAndEmpty.take j).map SlotWrite.refund).sum) ∧
      (fillAndEmpty.map SlotWrite.cost).sum - (fillAndEmpty.map SlotWrite.refund).sum =
        200 * fillAndEmpty.length + netCost 0 0 :=
  (@sstore_net_metering _ _ _ oneSlotRevm_laws constantinopleSource constantinopleSpec default rfl
    rfl).2 9#160 3 0 fillAndEmpty _ fillAndEmpty_inTurn rfl

end Reference

end RethGnosis
