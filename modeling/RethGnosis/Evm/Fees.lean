import RethGnosis.Evm.Handler

set_option autoImplicit false

/-!
# Fee conservation

The six journals around the fee steps of one transaction and what each step does
to the balances. With the base fee check switched off (pre-merge), a non-free
transaction may offer less than the base fee, and the collector is still credited
the full base fee: the shortfall is minted.
-/
namespace RethGnosis
open Ledger

structure FeeStages (ε : Type) where
  start : Journal ε
  deducted : Journal ε
  prepared : Journal ε
  executed : Journal ε
  reimbursed : Journal ε
  rewarded : Journal ε

section Fees
variable {ε : Type} (revm : Revm ε) (feeCollector : Address) (cfg : CfgEnv) (block : BlockEnv)
  (tx : TxEnv) (gas : Gas) (stages : FeeStages ε)

/-- A transaction the handler executes; `prepared` to `executed` is the EVM's own work. -/
structure Executes : Prop where
  validated : revm.validateEnv cfg block tx = .ok ()
  deducted : revm.deductCaller cfg block tx stages.start = .ok stages.deducted
  prepared : validateAgainstStateAndDeductCaller revm feeCollector cfg block tx stages.start =
    .ok stages.prepared
  gasLimit : gas.limit = tx.gasLimit
  reimbursed : revm.reimburseCaller block tx gas stages.executed = .ok stages.reimbursed
  rewarded : rewardBeneficiary revm feeCollector cfg block tx gas stages.reimbursed =
    .ok stages.rewarded

def burned : ℕ := if cfg.spec.isEnabledIn .PRAGUE then 0 else blobFee revm block tx

def feeTaken : ℕ := gas.used * price revm block tx + blobFee revm block tx

def parties : Finset Address := {tx.caller, block.beneficiary, feeCollector}

structure FeesConserved : Prop where
  /-- What the beneficiary and the collector get, with what is burned, is the fee taken. -/
  credited : ∀ accounts : Finset Address, parties feeCollector block tx ⊆ accounts →
    total accounts stages.prepared.balances + total accounts stages.rewarded.balances +
        burned revm cfg block tx =
      total accounts stages.deducted.balances + total accounts stages.reimbursed.balances +
        feeTaken revm block tx gas
  /-- The fee steps together change the total of balances by the burned amount only. -/
  total : ∀ accounts : Finset Address, parties feeCollector block tx ⊆ accounts →
    total accounts stages.prepared.balances + total accounts stages.rewarded.balances +
        burned revm cfg block tx =
      total accounts stages.start.balances + total accounts stages.executed.balances

/-- The supply is far from `2 ^ 256`, so that no credit of a fee saturates. -/
def SupplyFits : Prop :=
  total (parties feeCollector block tx) stages.start.balances +
    total (parties feeCollector block tx) stages.executed.balances +
      block.basefee * gas.used ≤ u256Max

def tip : ℕ := (price revm block tx - block.basefee) * gas.used

def basefeeCredit : ℕ := if tx.isFree then 0 else block.basefee * gas.used

/-- The part of the base fee credit that the sender did not pay. -/
def shortfall : ℕ := if tx.isFree then 0 else (block.basefee - price revm block tx) * gas.used

def feeLimit : ℕ := tx.gasLimit * price revm block tx + blobFee revm block tx

def blobCredit : ℕ := if cfg.spec.isEnabledIn .PRAGUE then blobFee revm block tx else 0

structure StageBalances : Prop where
  enough : feeLimit revm block tx ≤ stages.start.balances tx.caller
  deducted : stages.deducted.balances =
    debit tx.caller (feeLimit revm block tx) stages.start.balances
  prepared : stages.prepared.balances =
    credit feeCollector (blobCredit revm cfg block tx) stages.deducted.balances
  reimbursed : stages.reimbursed.balances =
    credit tx.caller ((gas.limit - gas.used) * price revm block tx) stages.executed.balances
  rewarded : stages.rewarded.balances =
    credit feeCollector (basefeeCredit block tx gas)
      (credit block.beneficiary (tip revm block tx gas) stages.reimbursed.balances)

end Fees

section Stages
variable {ε : Type} {revm : Revm ε} {feeCollector : Address} {cfg : CfgEnv} {block : BlockEnv}
  {tx : TxEnv} {gas : Gas} {stages : FeeStages ε}

theorem caller_mem : tx.caller ∈ parties feeCollector block tx := by simp [parties]

theorem beneficiary_mem : block.beneficiary ∈ parties feeCollector block tx := by simp [parties]

theorem collector_mem : feeCollector ∈ parties feeCollector block tx := by simp [parties]

theorem price_eq_zero_of_free (hrevm : revm.Laws) (hfree : tx.isFree = true) :
    price revm block tx = 0 := by
  rw [price, hrevm.effectiveGasPrice, eip1559Price_of_free hfree]

theorem basefee_le_price_iff (hrevm : revm.Laws) :
    block.basefee ≤ price revm block tx ↔ block.basefee ≤ tx.gasPrice := by
  rw [price, hrevm.effectiveGasPrice, le_eip1559Price_iff]

theorem balances_eq_credit {journal credited : Journal ε} {a : Address} {x : ℕ}
    (h : credited.balances = creditUpTo u256Max a x journal.balances)
    (hfits : journal.balances a + x ≤ u256Max) :
    credited.balances = credit a x journal.balances := by
  rw [h, creditUpTo_eq hfits]

theorem prepared_balances {journal deducted prepared : Journal ε}
    (hdeduct : revm.deductCaller cfg block tx journal = .ok deducted)
    (h : validateAgainstStateAndDeductCaller revm feeCollector cfg block tx journal = .ok prepared)
    (hfits : deducted.balances feeCollector + blobFee revm block tx ≤ u256Max) :
    prepared.balances =
      credit feeCollector (blobCredit revm cfg block tx) deducted.balances := by
  have hcost : blobGasCost revm block tx = blobFee revm block tx := by
    unfold blobGasCost blobFee at *
    split_ifs at hfits ⊢
    · exact min_eq_left ((Nat.le_add_left _ _).trans hfits)
    · rfl
  simp only [validateAgainstStateAndDeductCaller, hdeduct] at h
  unfold blobCredit
  split_ifs at h ⊢
  · have hcredit := creditFeeCollector_balances h
    rw [hcost] at hcredit
    exact balances_eq_credit hcredit hfits
  · rw [Except.ok.injEq] at h
    subst h
    simp [credit]

theorem rewarded_balances {journal rewarded : Journal ε} (hrevm : revm.Laws)
    (hlondon : cfg.spec.isEnabledIn .LONDON = true)
    (h : rewardBeneficiary revm feeCollector cfg block tx gas journal = .ok rewarded)
    (htip : journal.balances block.beneficiary + tip revm block tx gas ≤ u256Max)
    (hbasefee : credit block.beneficiary (tip revm block tx gas) journal.balances feeCollector +
      block.basefee * gas.used ≤ u256Max) :
    rewarded.balances = credit feeCollector (basefeeCredit block tx gas)
      (credit block.beneficiary (tip revm block tx gas) journal.balances) := by
  unfold rewardBeneficiary at h
  cases hreward : revm.rewardBeneficiary cfg block tx gas journal with
  | error e => simp [hreward] at h
  | ok tipped =>
    have htipped := balances_eq_credit
      (hrevm.rewardBeneficiary cfg block tx gas journal tipped hlondon hreward) htip
    rw [← tip] at htipped
    rw [← htipped] at hbasefee ⊢
    simp only [hreward, hlondon, ↓reduceIte] at h
    unfold basefeeCredit
    split_ifs at h ⊢
    · rw [Except.ok.injEq] at h
      subst h
      simp [credit]
    · exact balances_eq_credit (creditFeeCollector_balances h) hbasefee

theorem feeLimit_eq (hgas : gas.limit = tx.gasLimit) :
    feeLimit revm block tx =
      gas.used * price revm block tx + (gas.limit - gas.used) * price revm block tx +
        blobFee revm block tx := by
  have hused := gas.used_le
  rw [feeLimit, ← hgas, ← Nat.add_mul, Nat.add_sub_cancel' hused]

theorem tip_le : tip revm block tx gas ≤ gas.used * price revm block tx := by
  rw [tip, mul_comm gas.used]
  exact Nat.mul_le_mul_right _ (Nat.sub_le _ _)

theorem Executes.stageBalances (hrevm : revm.Laws) (hlondon : cfg.spec.isEnabledIn .LONDON = true)
    (h : Executes revm feeCollector cfg block tx gas stages)
    (hsupply : SupplyFits feeCollector block tx gas stages) :
    StageBalances revm feeCollector cfg block tx gas stages := by
  obtain ⟨henough, hdeducted⟩ := hrevm.deductCaller cfg block tx _ _ h.deducted
  have hlimit := @feeLimit_eq ε revm block tx gas h.gasLimit
  have htip := @tip_le ε revm block tx gas
  have hcaller := @caller_mem feeCollector block tx
  have hstart := total_debit hcaller henough
  rw [← hdeducted, ← feeLimit] at hstart
  unfold SupplyFits at hsupply
  have hcollector := le_total (@collector_mem feeCollector block tx) stages.deducted.balances
  have hprepared := prepared_balances h.deducted h.prepared (by omega)
  have hsender := le_total hcaller stages.executed.balances
  have hreimbursed := balances_eq_credit
    (hrevm.reimburseCaller block tx gas _ _ h.reimbursed) (by omega)
  have hexecuted := total_credit hcaller ((gas.limit - gas.used) * price revm block tx)
    stages.executed.balances
  rw [← hreimbursed] at hexecuted
  have hbeneficiary := @beneficiary_mem feeCollector block tx
  have hauthor := le_total hbeneficiary stages.reimbursed.balances
  have htipped := total_credit hbeneficiary (tip revm block tx gas) stages.reimbursed.balances
  have hpaid := le_total (@collector_mem feeCollector block tx)
    (credit block.beneficiary (tip revm block tx gas) stages.reimbursed.balances)
  have hrewarded := rewarded_balances hrevm hlondon h.rewarded (by omega) (by omega)
  exact ⟨henough, hdeducted, hprepared, hreimbursed, hrewarded⟩

theorem StageBalances.totals (h : StageBalances revm feeCollector cfg block tx gas stages)
    {accounts : Finset Address} (hparties : parties feeCollector block tx ⊆ accounts) :
    total accounts stages.deducted.balances + feeLimit revm block tx =
        total accounts stages.start.balances ∧
      total accounts stages.prepared.balances =
        total accounts stages.deducted.balances + blobCredit revm cfg block tx ∧
      total accounts stages.reimbursed.balances = total accounts stages.executed.balances +
        (gas.limit - gas.used) * price revm block tx ∧
      total accounts stages.rewarded.balances = total accounts stages.reimbursed.balances +
        tip revm block tx gas + basefeeCredit block tx gas := by
  have hcaller := hparties (@caller_mem feeCollector block tx)
  have hcollector := hparties (@collector_mem feeCollector block tx)
  have hbeneficiary := hparties (@beneficiary_mem feeCollector block tx)
  rw [h.deducted, h.prepared, h.reimbursed, h.rewarded]
  exact ⟨total_debit hcaller h.enough, by rw [total_credit hcollector, h.deducted],
    total_credit hcaller _ _, by
      rw [total_credit hcollector, total_credit hbeneficiary, h.reimbursed]⟩

/-- Tip and base fee credit exceed the gas fee by the shortfall. -/
theorem tip_add_basefeeCredit (hrevm : revm.Laws) :
    tip revm block tx gas + basefeeCredit block tx gas =
      gas.used * price revm block tx + shortfall revm block tx gas := by
  unfold tip basefeeCredit shortfall
  split_ifs with hfree
  · rw [price_eq_zero_of_free hrevm hfree]
    simp
  · rw [← Nat.add_mul, mul_comm gas.used, ← Nat.add_mul]
    congr 1
    omega

theorem blobCredit_add_burned :
    blobCredit revm cfg block tx + burned revm cfg block tx = blobFee revm block tx := by
  unfold blobCredit burned
  split_ifs <;> omega

theorem feesConserved_iff_shortfall (hrevm : revm.Laws) (hgas : gas.limit = tx.gasLimit)
    (h : StageBalances revm feeCollector cfg block tx gas stages) :
    FeesConserved revm feeCollector cfg block tx gas stages ↔ shortfall revm block tx gas = 0 := by
  have hlimit := @feeLimit_eq ε revm block tx gas hgas
  have hcredits := @tip_add_basefeeCredit ε revm block tx gas hrevm
  have hblob := @blobCredit_add_burned ε revm cfg block tx
  constructor
  · intro hconserved
    have hparties := Finset.Subset.refl (parties feeCollector block tx)
    obtain ⟨hdeducted, hprepared, hreimbursed, hrewarded⟩ := h.totals hparties
    have htotal := hconserved.total _ hparties
    omega
  · intro hzero
    constructor <;> intro accounts hparties
    · obtain ⟨hdeducted, hprepared, hreimbursed, hrewarded⟩ := h.totals hparties
      unfold feeTaken
      omega
    · obtain ⟨hdeducted, hprepared, hreimbursed, hrewarded⟩ := h.totals hparties
      omega

theorem shortfall_eq_zero_iff (hrevm : revm.Laws) :
    shortfall revm block tx gas = 0 ↔
      tx.isFree = true ∨ gas.used = 0 ∨ block.basefee ≤ tx.gasPrice := by
  rw [← basefee_le_price_iff hrevm]
  unfold shortfall
  split_ifs with hfree
  · simp [hfree]
  · rw [Nat.mul_eq_zero, Nat.sub_eq_zero_iff_le]
    tauto

end Stages

/-- From London on, the fees of a transaction are conserved exactly when the block is
post-merge, the transaction is free or used no gas, or it offers at least the base fee. -/
theorem feesConserved_iff {ε : Type} {revm : Revm ε} {feeCollector : Address}
    {mainnetGasParams : SpecId → GasParams} {chainSpec : GnosisChainSpec} {spec : SpecId}
    {timestamp : ℕ} {isPreMerge : Bool} {block : BlockEnv} {tx : TxEnv} {gas : Gas}
    {stages : FeeStages ε} (hrevm : revm.Laws) (hlondon : spec.isEnabledIn .LONDON = true)
    (h : Executes revm feeCollector
      (getCfgEnv mainnetGasParams chainSpec spec timestamp isPreMerge) block tx gas stages)
    (hsupply : SupplyFits feeCollector block tx gas stages) :
    FeesConserved revm feeCollector
        (getCfgEnv mainnetGasParams chainSpec spec timestamp isPreMerge) block tx gas stages ↔
      isPreMerge = false ∨ tx.isFree = true ∨ gas.used = 0 ∨ block.basefee ≤ tx.gasPrice := by
  have hspec : (getCfgEnv mainnetGasParams chainSpec spec timestamp isPreMerge).spec.isEnabledIn
      .LONDON = true := by
    rw [getCfgEnv_spec, hlondon]
  rw [feesConserved_iff_shortfall hrevm h.gasLimit (h.stageBalances hrevm hspec hsupply),
    shortfall_eq_zero_iff hrevm]
  constructor
  · exact Or.inr
  · rintro (hpost | hcases)
    · have hcheck := getCfgEnv_disableBaseFee mainnetGasParams chainSpec spec timestamp isPreMerge
      rw [hpost, Bool.false_and] at hcheck
      rw [← basefee_le_price_iff hrevm]
      exact .inr (.inr (hrevm.basefee_le _ block tx h.validated (hpost ▸ hcheck)))
    · exact hcases

def modifyBalance (a : Address) (f : ℕ → ℕ) (journal : Journal Unit) :
    Except Unit (Journal Unit) :=
  match journal a with
  | .error e => .error e
  | .ok account =>
    .ok (Function.update journal a (.ok { account with
      info := { account.info with balance := f account.info.balance } }))

def referenceFee (block : BlockEnv) (tx : TxEnv) : ℕ :=
  tx.gasLimit * tx.eip1559Price block.basefee +
    if tx.txType = .eip4844 then block.blobGasprice * (131072 * tx.blobHashes.length) else 0

def referenceRevm : Revm Unit where
  effectiveGasPrice tx basefee := tx.eip1559Price basefee
  totalBlobGas tx := 131072 * tx.blobHashes.length
  validateEnv cfg block tx :=
    if cfg.disableBaseFee = false ∧ tx.gasPrice < block.basefee then .error () else .ok ()
  deductCaller _ block tx journal :=
    if referenceFee block tx ≤ journal.balances tx.caller then
      modifyBalance tx.caller (fun balance => balance - referenceFee block tx) journal
    else
      .error ()
  reimburseCaller block tx gas journal :=
    modifyBalance tx.caller (fun balance => saturatingAdd balance
      ((gas.limit - gas.used) * tx.eip1559Price block.basefee)) journal
  rewardBeneficiary _ block tx gas journal :=
    modifyBalance block.beneficiary (fun balance => saturatingAdd balance
      ((tx.eip1559Price block.basefee - block.basefee) * gas.used)) journal

theorem modifyBalance_balances {a : Address} {f : ℕ → ℕ} {journal modified : Journal Unit}
    (h : modifyBalance a f journal = .ok modified) :
    modified.balances = Function.update journal.balances a (f (journal.balances a)) := by
  unfold modifyBalance at h
  cases hload : journal a with
  | error e => simp [hload] at h
  | ok account =>
    simp only [hload, Except.ok.injEq] at h
    subst h
    funext b
    by_cases hb : b = a
    · subst hb
      simp [Journal.balances, hload]
    · simp [Journal.balances, Function.update_of_ne hb]

theorem referenceRevm_laws : referenceRevm.Laws where
  effectiveGasPrice _ _ := rfl
  basefee_le cfg block tx hvalid hcheck := by
    simp only [referenceRevm, hcheck, true_and, ite_eq_right_iff, reduceCtorEq, imp_false,
      not_lt] at hvalid
    exact (le_eip1559Price_iff tx block.basefee).mpr hvalid
  deductCaller cfg block tx journal deducted h := by
    simp only [referenceRevm] at h
    by_cases hbalance : referenceFee block tx ≤ journal.balances tx.caller
    · rw [if_pos hbalance] at h
      exact ⟨hbalance, modifyBalance_balances h⟩
    · rw [if_neg hbalance] at h
      contradiction
  reimburseCaller block tx gas journal reimbursed h := by
    simp only [referenceRevm] at h
    exact modifyBalance_balances h
  rewardBeneficiary cfg block tx gas journal rewarded _ h := by
    simp only [referenceRevm] at h
    exact modifyBalance_balances h

def openingJournal : Journal Unit := fun a =>
  .ok
    { info := { AccountInfo.default with balance := if a = 1#160 then 100000 else 0 }
      originalInfo := AccountInfo.default
      transactionId := 0
      storage := ∅
      status := AccountStatus.Touched }

def paidGas : Gas := ⟨100, 60, 0, by decide, by decide⟩

def paidBlock (basefee : ℕ) : BlockEnv := ⟨20, 2#160, 0, 30000000, basefee, 0, none, none, 0⟩

def legacyTx (gasPrice : ℕ) : TxEnv where
  txType := .legacy
  caller := 1#160
  gasLimit := 100
  gasPrice := gasPrice
  kind := .call 4#160
  value := 0
  data := []
  nonce := 0
  chainId := none
  accessList := []
  gasPriorityFee := none
  blobHashes := []
  maxFeePerBlobGas := 0
  authorizationList := []

def londonSpec : GnosisChainSpec := ⟨100, ⟨∅⟩, [(.ethereum .London, .block 0)], none, none, none⟩

def londonCfg (isPreMerge : Bool) : CfgEnv :=
  getCfgEnv (fun _ => ⟨0, 0, 0, 0, 0⟩) londonSpec .LONDON 0 isPreMerge

def orElse (journal : Journal Unit) (result : Except Unit (Journal Unit)) : Journal Unit :=
  match result with
  | .ok updated => updated
  | .error () => journal

def idleStages (cfg : CfgEnv) (block : BlockEnv) (tx : TxEnv) (gas : Gas) : FeeStages Unit :=
  let deducted := orElse openingJournal (referenceRevm.deductCaller cfg block tx openingJournal)
  let prepared := orElse deducted
    (validateAgainstStateAndDeductCaller referenceRevm 3#160 cfg block tx openingJournal)
  let reimbursed := orElse prepared (referenceRevm.reimburseCaller block tx gas prepared)
  { start := openingJournal
    deducted := deducted
    prepared := prepared
    executed := prepared
    reimbursed := reimbursed
    rewarded := orElse reimbursed
      (rewardBeneficiary referenceRevm 3#160 cfg block tx gas reimbursed) }

theorem feesConserved_iff_paidBasefee :
    FeesConserved referenceRevm 3#160 (londonCfg true) (paidBlock 7) (legacyTx 10) paidGas
        (idleStages (londonCfg true) (paidBlock 7) (legacyTx 10) paidGas) ↔
      true = false ∨ (legacyTx 10).isFree = true ∨ paidGas.used = 0 ∨
        (paidBlock 7).basefee ≤ (legacyTx 10).gasPrice :=
  feesConserved_iff referenceRevm_laws (by decide) ⟨rfl, rfl, rfl, rfl, rfl, rfl⟩
    (by unfold SupplyFits; decide +kernel)

/-- A pre-merge transaction at price 1 under base fee 7: the sender pays 60, the collector
gets 420. -/
theorem unpaidBasefee_minted :
    Executes referenceRevm 3#160 (londonCfg true) (paidBlock 7) (legacyTx 1) paidGas
        (idleStages (londonCfg true) (paidBlock 7) (legacyTx 1) paidGas) ∧
      total (parties 3#160 (paidBlock 7) (legacyTx 1))
          (idleStages (londonCfg true) (paidBlock 7) (legacyTx 1) paidGas).start.balances =
        100000 ∧
      total (parties 3#160 (paidBlock 7) (legacyTx 1))
          (idleStages (londonCfg true) (paidBlock 7) (legacyTx 1) paidGas).rewarded.balances =
        100360 ∧
      ¬ FeesConserved referenceRevm 3#160 (londonCfg true) (paidBlock 7) (legacyTx 1) paidGas
        (idleStages (londonCfg true) (paidBlock 7) (legacyTx 1) paidGas) := by
  refine ⟨⟨rfl, rfl, rfl, rfl, rfl, rfl⟩, by decide +kernel, by decide +kernel, ?_⟩
  intro hconserved
  have htotal := hconserved.total _ (Finset.Subset.refl _)
  revert htotal
  decide +kernel

end RethGnosis
