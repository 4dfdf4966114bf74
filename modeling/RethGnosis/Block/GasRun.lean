import RethGnosis.Library.Run
import RethGnosis.Block.TrackerFrame
import RethGnosis.Block.SilentChanges

set_option autoImplicit false

/-!
# The gas of a block over a run of transactions

Transactions are offered to the executor one by one. One that is rejected leaves the state
as it is, one that is executed is committed. The check made before an execution is what
keeps the next subtraction from underflowing.
-/
namespace RethGnosis
open Fallible Run

section Gas
variable {δ ε : Type} (ext : Externals δ ε) (executor : GnosisBlockExecutor)

/-- `execute_transaction_without_commit`, and `commit_transaction` of its result if there is one. -/
def offer (tx : TransactionSigned) (s : ExecState δ) : ExecState δ :=
  final (executeTransaction ext executor tx s)

def gasOf (v : TransactionSigned × ExecState δ) : Option ℕ :=
  (value (executeTransactionWithoutCommit ext executor v.1 v.2)).map
    (fun output => output.result.result.txGasUsed)

def committedGas (txs : List TransactionSigned) (s : ExecState δ) : List ℕ :=
  (visits (offer ext executor) txs s).filterMap (gasOf ext executor)

def blockAvailableGas (s : ExecState δ) : ℕ :=
  (executor.block.gasLimit + 2 ^ 64 - s.gasUsed) % 2 ^ 64

structure GasLaws : Prop where
  used : ∀ db tx result, ext.transact executor.cfg executor.block executor.feeCollector db
    (ext.txEnv tx) = .ok result → result.result.txGasUsed ≤ tx.gasLimit
  receipt : ∀ txType result cumulative,
    (ext.buildReceipt txType result cumulative).cumulativeGasUsed = cumulative

structure GasInv (gas : List ℕ) (s : ExecState δ) : Prop where
  gasUsed : s.gasUsed = gas.sum
  le_limit : gas.sum ≤ executor.block.gasLimit
  receipts : 0 :: s.receipts.map Receipt.cumulativeGasUsed = gas.scanl (· + ·) 0

variable {ext executor}

theorem executeTransactionWithoutCommit_run (tx : TransactionSigned) (s : ExecState δ) :
    executeTransactionWithoutCommit ext executor tx s =
      if blockAvailableGas executor s < tx.gasLimit then
        .error (.error (.transactionGasLimitMoreThanAvailableBlockGas tx.gasLimit
          (blockAvailableGas executor s))) s
      else
        match ext.transact executor.cfg executor.block executor.feeCollector s.db
            (ext.txEnv tx) with
        | .error e => .error (.error (.evm tx.hash (ext.displayError e))) s
        | .ok result => .ok ⟨result, tx.blobGasUsed.getD 0, tx.txType⟩ s := by
  unfold executeTransactionWithoutCommit blockAvailableGas
  rw [get_bind_run]
  by_cases hgas : (executor.block.gasLimit + 2 ^ 64 - s.gasUsed) % 2 ^ 64 < tx.gasLimit
  · rw [if_pos hgas, if_pos hgas]
    rfl
  · rw [if_neg hgas, if_neg hgas]
    cases ext.transact executor.cfg executor.block executor.feeCollector s.db (ext.txEnv tx) with
    | error e => rfl
    | ok result => rfl

theorem offer_cases (tx : TransactionSigned) (s : ExecState δ) :
    (gasOf ext executor (tx, s) = none ∧ offer ext executor tx s = s) ∨
    ∃ output, executeTransactionWithoutCommit ext executor tx s = .ok output s ∧
      tx.gasLimit ≤ blockAvailableGas executor s ∧
      ext.transact executor.cfg executor.block executor.feeCollector s.db (ext.txEnv tx) =
        .ok output.result ∧
      offer ext executor tx s = final (commitTransaction ext executor output s) := by
  have hrun := @executeTransactionWithoutCommit_run δ ε ext executor tx s
  rw [gasOf, offer, executeTransaction]
  by_cases hgas : blockAvailableGas executor s < tx.gasLimit
  · rw [if_pos hgas] at hrun
    refine .inl ⟨?_, final_bind_error hrun _⟩
    rw [hrun]
    rfl
  · rw [if_neg hgas] at hrun
    cases hresult : ext.transact executor.cfg executor.block executor.feeCollector s.db
        (ext.txEnv tx) with
    | error e =>
      rw [hresult] at hrun
      refine .inl ⟨?_, final_bind_error hrun _⟩
      rw [hrun]
      rfl
    | ok result =>
      rw [hresult] at hrun
      refine .inr ⟨_, hrun, Nat.le_of_not_lt hgas, rfl, ?_⟩
      rw [final_bind_ok hrun, final_bind_pure]

theorem commitTransaction_gasUsed (output : EthTxResult) (s : ExecState δ) :
    (final (commitTransaction ext executor output s)).gasUsed =
      (s.gasUsed + output.result.result.txGasUsed) % 2 ^ 64 := rfl

theorem commitTransaction_receipts (output : EthTxResult) (s : ExecState δ) :
    (final (commitTransaction ext executor output s)).receipts =
      s.receipts ++ [ext.buildReceipt output.txType output.result.result
        ((s.gasUsed + output.result.result.txGasUsed) % 2 ^ 64)] := rfl

theorem GasInv.blockAvailableGas_eq (hlimit : executor.block.gasLimit ≤ u64Max) {gas : List ℕ}
    {s : ExecState δ} (h : GasInv executor gas s) :
    blockAvailableGas executor s = executor.block.gasLimit - s.gasUsed := by
  have hle := h.le_limit
  have hmax : u64Max = 2 ^ 64 - 1 := rfl
  unfold blockAvailableGas
  rw [h.gasUsed]
  omega

theorem GasInv.commit (hlaws : GasLaws ext executor) (hlimit : executor.block.gasLimit ≤ u64Max)
    {gas : List ℕ} {s : ExecState δ} (h : GasInv executor gas s) {output : EthTxResult}
    (hfits : output.result.result.txGasUsed ≤ blockAvailableGas executor s) :
    GasInv executor (gas ++ [output.result.result.txGasUsed])
      (final (commitTransaction ext executor output s)) := by
  have hle := h.le_limit
  have hsum := h.gasUsed
  have hmax : u64Max = 2 ^ 64 - 1 := rfl
  rw [h.blockAvailableGas_eq hlimit] at hfits
  have hnowrap : (s.gasUsed + output.result.result.txGasUsed) % 2 ^ 64 =
      gas.sum + output.result.result.txGasUsed := by
    rw [hsum]
    exact Nat.mod_eq_of_lt (by omega)
  constructor
  · rw [commitTransaction_gasUsed, hnowrap, List.sum_append, List.sum_singleton]
  · rw [List.sum_append, List.sum_singleton]
    omega
  · rw [commitTransaction_receipts, hnowrap, List.map_append, List.map_singleton, hlaws.receipt,
      List.scanl_append, ← List.sum_eq_foldl, ← h.receipts]
    rfl

theorem GasInv.offer (hlaws : GasLaws ext executor) (hlimit : executor.block.gasLimit ≤ u64Max)
    {gas : List ℕ} {s : ExecState δ} (h : GasInv executor gas s) (tx : TransactionSigned) :
    GasInv executor (gas ++ (gasOf ext executor (tx, s)).toList) (offer ext executor tx s) := by
  rcases @offer_cases δ ε ext executor tx s with
    ⟨hnone, hsame⟩ | ⟨output, hrun, hfits, hresult, hoffer⟩
  · rw [hnone, hsame, Option.toList_none, List.append_nil]
    exact h
  · have hgas : gasOf ext executor (tx, s) = some output.result.result.txGasUsed := by
      rw [gasOf, hrun]
      rfl
    have hused := hlaws.used _ _ _ hresult
    rw [hgas, hoffer, Option.toList_some]
    exact h.commit hlaws hlimit (Nat.le_trans hused hfits)

theorem GasInv.run (hlaws : GasLaws ext executor) (hlimit : executor.block.gasLimit ≤ u64Max)
    (txs : List TransactionSigned) {gas : List ℕ} {s : ExecState δ} (h : GasInv executor gas s) :
    GasInv executor (gas ++ committedGas ext executor txs s)
        (run (RethGnosis.offer ext executor) txs s) ∧
      ∀ v ∈ visits (RethGnosis.offer ext executor) txs s, ∃ before, GasInv executor before v.2 := by
  induction txs generalizing gas s with
  | nil =>
    rw [committedGas, visits, List.filterMap_nil, List.append_nil]
    exact ⟨h, by simp⟩
  | cons tx rest ih =>
    obtain ⟨hend, hvisits⟩ := ih (h.offer hlaws hlimit tx)
    have hcommitted : committedGas ext executor (tx :: rest) s =
        (gasOf ext executor (tx, s)).toList ++
          committedGas ext executor rest (RethGnosis.offer ext executor tx s) := by
      unfold committedGas
      rw [visits]
      cases hgas : gasOf ext executor (tx, s) with
      | none => rw [List.filterMap_cons_none hgas, Option.toList_none, List.nil_append]
      | some used => rw [List.filterMap_cons_some hgas, Option.toList_some, List.singleton_append]
    rw [hcommitted, ← List.append_assoc, Run.run, visits, List.forall_mem_cons]
    exact ⟨hend, ⟨gas, h⟩, hvisits⟩

theorem updateTracker_keeps {γ : Type} {f : ExecState δ → γ}
    (hf : ∀ s rf, f { s with rollingFinality := rf } = f s) (rewardLogs : List Log) :
    Keeps f (updateTracker executor rewardLogs) := by
  unfold updateTracker
  split
  · exact fun s => hf s _
  · exact keeps_pure _

theorem finish_ok {s t : ExecState δ} {result : BlockExecutionResult}
    (hrun : finish ext executor s = .ok result t) :
    result.receipts = s.receipts ∧ result.gasUsed = s.gasUsed ∧
      result.blobGasUsed = s.blobGasUsed := by
  have hkeeps : ∀ {γ : Type} (f : ExecState δ → γ), IgnoresEffects f →
      (∀ s rf, f { s with rollingFinality := rf } = f s) → f t = f s := by
    intro γ f hf htracker
    obtain ⟨calls, s₁, hcalls, hrest⟩ := bind_ok.mp hrun
    obtain ⟨_, s₂, hupdate, hrest⟩ := bind_ok.mp hrest
    obtain ⟨_, s₃, hincrements, hreport⟩ := bind_ok.mp hrest
    cases hreport
    rw [(applyBalanceIncrements_keeps hf ext _).ok hincrements,
      (updateTracker_keeps htracker _).ok hupdate, (finishCalls_keeps hf ext executor).ok hcalls]
  have hreported : result.receipts = t.receipts ∧ result.gasUsed = t.gasUsed ∧
      result.blobGasUsed = t.blobGasUsed := by
    obtain ⟨calls, s₁, hcalls, hrest⟩ := bind_ok.mp hrun
    obtain ⟨_, s₂, hupdate, hrest⟩ := bind_ok.mp hrest
    obtain ⟨_, s₃, hincrements, hreport⟩ := bind_ok.mp hrest
    cases hreport
    exact ⟨rfl, rfl, rfl⟩
  rw [hreported.1, hreported.2.1, hreported.2.2]
  exact ⟨hkeeps _ (fun _ _ _ => rfl) (fun _ _ => rfl), hkeeps _ (fun _ _ _ => rfl) (fun _ _ => rfl),
    hkeeps _ (fun _ _ _ => rfl) (fun _ _ => rfl)⟩

/-- The gas used stays within the block's limit, so the available gas is the difference; a rejected
transaction changes nothing; the receipts carry the running sums of the committed gas (0 first),
and `finish` reports the last of them. -/
theorem gas_within_block (hlaws : GasLaws ext executor)
    (hlimit : executor.block.gasLimit ≤ u64Max) {s : ExecState δ} (hgas : s.gasUsed = 0)
    (hreceipts : s.receipts = []) (txs : List TransactionSigned) :
    (∀ v ∈ visits (offer ext executor) txs s, v.2.gasUsed ≤ executor.block.gasLimit ∧
      blockAvailableGas executor v.2 = executor.block.gasLimit - v.2.gasUsed ∧
      (failed (executeTransactionWithoutCommit ext executor v.1 v.2) = true →
        offer ext executor v.1 v.2 = v.2)) ∧
    (run (offer ext executor) txs s).gasUsed ≤ executor.block.gasLimit ∧
    0 :: (run (offer ext executor) txs s).receipts.map Receipt.cumulativeGasUsed =
      (committedGas ext executor txs s).scanl (· + ·) 0 ∧
    ∀ result t, finish ext executor (run (offer ext executor) txs s) = .ok result t →
      result.receipts = (run (offer ext executor) txs s).receipts ∧
        result.gasUsed =
          ((result.receipts.map Receipt.cumulativeGasUsed).getLast?).getD 0 := by
  have hstart : GasInv executor [] s := by
    constructor
    · rw [hgas, List.sum_nil]
    · rw [List.sum_nil]
      exact Nat.zero_le _
    · rw [hreceipts, List.map_nil, List.scanl_nil]
  obtain ⟨hend, hvisits⟩ := hstart.run hlaws hlimit txs
  rw [List.nil_append] at hend
  refine ⟨?_, ?_, hend.receipts, ?_⟩
  · intro v hv
    obtain ⟨before, hinv⟩ := hvisits v hv
    refine ⟨?_, hinv.blockAvailableGas_eq hlimit, ?_⟩
    · rw [hinv.gasUsed]
      exact hinv.le_limit
    · intro hfailed
      rcases @offer_cases δ ε ext executor v.1 v.2 with ⟨-, hsame⟩ | ⟨output, hrun, -⟩
      · exact hsame
      · rw [hrun] at hfailed
        contradiction
  · rw [hend.gasUsed]
    exact hend.le_limit
  · intro result t hfinish
    obtain ⟨hreceipts, hgasUsed, -⟩ := finish_ok hfinish
    refine ⟨hreceipts, ?_⟩
    have hlast : (0 :: result.receipts.map Receipt.cumulativeGasUsed).getLast? =
        some result.gasUsed := by
      rw [hreceipts, hend.receipts, List.getLast?_scanl, ← List.sum_eq_foldl, hgasUsed,
        hend.gasUsed]
    rw [List.getLast?_cons, Option.some.injEq] at hlast
    exact hlast.symm

end Gas

section Metered

def meteredWorld : Externals World String :=
  { worldExternals with
    transact := fun cfg block address db tx =>
      if tx.gasLimit < 21000 then .error "intrinsic gas"
      else worldExternals.transact cfg block address db tx }

def meteredExecutor : GnosisBlockExecutor :=
  blockExecutor referenceSource balancerNode (blockAt 1000 1005) hookedState

theorem meteredWorld_laws : GasLaws meteredWorld meteredExecutor := by
  constructor
  · intro db tx result hrun
    change (if tx.gasLimit < 21000 then _ else _) = _ at hrun
    split_ifs at hrun with hintrinsic
    cases hrun
    exact Nat.le_of_not_lt hintrinsic
  · intro txType result cumulative
    cases result <;> rfl

/-- In a block of 30000 gas the first transaction fits, the second does not, the third fails. -/
theorem gas_within_block_three :
    (run (offer meteredWorld meteredExecutor) [⟨1#256, 0, 21000, none⟩, ⟨2#256, 0, 21000, none⟩,
        ⟨3#256, 0, 9000, none⟩] hookedState).gasUsed ≤ 30000 ∧
      committedGas meteredWorld meteredExecutor [⟨1#256, 0, 21000, none⟩, ⟨2#256, 0, 21000, none⟩,
        ⟨3#256, 0, 9000, none⟩] hookedState = [21000] :=
  ⟨(gas_within_block meteredWorld_laws (by decide +kernel) rfl rfl _).2.1, by decide +kernel⟩

end Metered

end RethGnosis
