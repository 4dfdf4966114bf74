import RethGnosis.Library.Ledger
import RethGnosis.Evm.Cfg

set_option autoImplicit false

/-!
# Fees of an executed transaction

The two handler methods this repository overrides, around revm's own fee steps:
the caller is debited up front and reimbursed after execution, the beneficiary
gets the tip, and the handler credits the fee collector with the blob fee (from
Prague) and the base fee of non-free transactions (from London).
-/
namespace RethGnosis

def saturatingMul (a b : U256) : U256 := min (a * b) u256Max

/-- The journal's answer at each address: an account, or the database's error. -/
abbrev Journal (ε : Type) := Address → Except ε Account

def Journal.balances {ε : Type} (journal : Journal ε) (a : Address) : ℕ :=
  match journal a with
  | .ok account => account.info.balance
  | .error _ => 0

/-- The gas of a finished transaction; refunds are capped at a fraction of what was spent. -/
structure Gas where
  limit : ℕ
  totalGasSpent : ℕ
  refunded : ℕ
  spent_le : totalGasSpent ≤ limit
  refunded_le : refunded ≤ totalGasSpent

def Gas.used (gas : Gas) : ℕ := gas.totalGasSpent - gas.refunded

theorem Gas.used_le (gas : Gas) : gas.used ≤ gas.limit :=
  (Nat.sub_le _ _).trans gas.spent_le

structure Revm (ε : Type) where
  effectiveGasPrice : TxEnv → ℕ → ℕ
  totalBlobGas : TxEnv → ℕ
  validateEnv : CfgEnv → BlockEnv → TxEnv → Except ε Unit
  deductCaller : CfgEnv → BlockEnv → TxEnv → Journal ε → Except ε (Journal ε)
  reimburseCaller : BlockEnv → TxEnv → Gas → Journal ε → Except ε (Journal ε)
  rewardBeneficiary : CfgEnv → BlockEnv → TxEnv → Gas → Journal ε → Except ε (Journal ε)

def BlockEnv.blobGasprice (block : BlockEnv) : ℕ :=
  match block.blobExcessGasAndPrice with
  | some blob => blob.blobGasprice
  | none => 0

/-- The handler's credit: load the account, add, set the balance, touch. -/
def creditFeeCollector {ε : Type} (feeCollector : Address) (amount : U256) (journal : Journal ε) :
    Except ε (Journal ε) :=
  match journal feeCollector with
  | .error e => .error e
  | .ok account =>
    .ok (Function.update journal feeCollector (.ok { account with
      info := { account.info with balance := saturatingAdd account.info.balance amount }
      status := account.status.union AccountStatus.Touched }))

/-- No gas price and no priority fee: a service transaction. -/
def TxEnv.isFree (tx : TxEnv) : Bool := tx.gasPrice == 0 && tx.gasPriorityFee.getD 0 == 0

def TxEnv.eip1559Price (tx : TxEnv) (basefee : ℕ) : ℕ :=
  if tx.txType = .legacy ∨ tx.txType = .eip2930 then tx.gasPrice
  else tx.gasPriorityFee.elim tx.gasPrice (fun fee => min tx.gasPrice (basefee + fee))

section Handler
variable {ε : Type} (revm : Revm ε) (feeCollector : Address) (cfg : CfgEnv) (block : BlockEnv)
  (tx : TxEnv)

def blobGasCost : U256 :=
  if tx.txType = .eip4844 then saturatingMul block.blobGasprice (revm.totalBlobGas tx) else 0

def validateAgainstStateAndDeductCaller (journal : Journal ε) : Except ε (Journal ε) :=
  match revm.deductCaller cfg block tx journal with
  | .error e => .error e
  | .ok deducted =>
    if cfg.spec.isEnabledIn .PRAGUE then
      creditFeeCollector feeCollector (blobGasCost revm block tx) deducted
    else
      .ok deducted

def rewardBeneficiary (gas : Gas) (journal : Journal ε) : Except ε (Journal ε) :=
  match revm.rewardBeneficiary cfg block tx gas journal with
  | .error e => .error e
  | .ok rewarded =>
    if cfg.spec.isEnabledIn .LONDON then
      if tx.isFree then .ok rewarded
      else creditFeeCollector feeCollector (block.basefee * gas.used) rewarded
    else
      .ok rewarded

def blobFee : ℕ :=
  if tx.txType = .eip4844 then block.blobGasprice * revm.totalBlobGas tx else 0

def price : ℕ := revm.effectiveGasPrice tx block.basefee

end Handler

/-- revm's documented fee handling, from London on. -/
structure Revm.Laws {ε : Type} (revm : Revm ε) : Prop where
  effectiveGasPrice : ∀ (tx : TxEnv) (basefee : ℕ),
    revm.effectiveGasPrice tx basefee = tx.eip1559Price basefee
  basefee_le : ∀ (cfg : CfgEnv) (block : BlockEnv) (tx : TxEnv),
    revm.validateEnv cfg block tx = .ok () → cfg.disableBaseFee = false →
      block.basefee ≤ price revm block tx
  deductCaller : ∀ (cfg : CfgEnv) (block : BlockEnv) (tx : TxEnv) (journal deducted : Journal ε),
    revm.deductCaller cfg block tx journal = .ok deducted →
      tx.gasLimit * price revm block tx + blobFee revm block tx ≤ journal.balances tx.caller ∧
      deducted.balances = Ledger.debit tx.caller
        (tx.gasLimit * price revm block tx + blobFee revm block tx) journal.balances
  reimburseCaller : ∀ (block : BlockEnv) (tx : TxEnv) (gas : Gas) (journal reimbursed : Journal ε),
    revm.reimburseCaller block tx gas journal = .ok reimbursed →
      reimbursed.balances = Ledger.creditUpTo u256Max tx.caller
        ((gas.limit - gas.used) * price revm block tx) journal.balances
  rewardBeneficiary : ∀ (cfg : CfgEnv) (block : BlockEnv) (tx : TxEnv) (gas : Gas)
      (journal rewarded : Journal ε), cfg.spec.isEnabledIn .LONDON = true →
    revm.rewardBeneficiary cfg block tx gas journal = .ok rewarded →
      rewarded.balances = Ledger.creditUpTo u256Max block.beneficiary
        ((price revm block tx - block.basefee) * gas.used) journal.balances

theorem eip1559Price_of_free {tx : TxEnv} (hfree : tx.isFree = true) (basefee : ℕ) :
    tx.eip1559Price basefee = 0 := by
  simp only [TxEnv.isFree, Bool.and_eq_true, beq_iff_eq] at hfree
  unfold TxEnv.eip1559Price
  split_ifs
  · exact hfree.1
  · cases tx.gasPriorityFee <;> simp [hfree.1]

theorem le_eip1559Price_iff (tx : TxEnv) (basefee : ℕ) :
    basefee ≤ tx.eip1559Price basefee ↔ basefee ≤ tx.gasPrice := by
  unfold TxEnv.eip1559Price
  split_ifs
  · rfl
  · cases tx.gasPriorityFee <;> simp

theorem creditFeeCollector_balances {ε : Type} {feeCollector : Address} {amount : U256}
    {journal credited : Journal ε}
    (h : creditFeeCollector feeCollector amount journal = .ok credited) :
    credited.balances = Ledger.creditUpTo u256Max feeCollector amount journal.balances := by
  unfold creditFeeCollector at h
  cases hload : journal feeCollector with
  | error e => simp [hload] at h
  | ok account =>
    simp only [hload, Except.ok.injEq] at h
    subst h
    funext a
    by_cases ha : a = feeCollector
    · subst ha
      simp [Journal.balances, Ledger.creditUpTo, hload, saturatingAdd]
    · simp [Journal.balances, Ledger.creditUpTo, Function.update_of_ne ha]

end RethGnosis
