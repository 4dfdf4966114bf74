import RethGnosis.Library.Fallible
import RethGnosis.Block.Executor

set_option autoImplicit false

/-!
# Steps that only change the database and what the state hook received

Every step of a block execution except the transactions, the validator refreshes and
the tracker part of `finish`. A transaction changes the counters as well, and still not
the tracker.
-/
namespace RethGnosis
open Fallible

abbrev KeepsTracker {δ φ α : Type} (m : EStateM φ (ExecState δ) α) : Prop :=
  Keeps ExecState.rollingFinality m

/-- The component shows neither the database nor the state hook. -/
def IgnoresEffects {δ γ : Type} (f : ExecState δ → γ) : Prop :=
  ∀ s db stateHook, f { s with db := db, stateHook := stateHook } = f s

theorem rollingFinality_ignores {δ : Type} :
    IgnoresEffects (ExecState.rollingFinality (δ := δ)) := fun _ _ _ => rfl

theorem receipts_ignores {δ : Type} : IgnoresEffects (ExecState.receipts (δ := δ)) :=
  fun _ _ _ => rfl

theorem failWith_keeps {δ γ α : Type} {f : ExecState δ → γ} (e : BlockExecutionError) :
    Keeps f (failWith (α := α) e) := fun _ => rfl

section Effects
variable {δ ε γ : Type} {f : ExecState δ → γ} (hf : IgnoresEffects f) (ext : Externals δ ε)
  (executor : GnosisBlockExecutor)
include hf

theorem commitState_keeps {φ : Type} (state : EvmState) :
    Keeps f (commitState ext state : EStateM φ (ExecState δ) Unit) :=
  fun s => hf s (ext.commit s.db state) s.stateHook

theorem onState_keeps (source : StateChangeSource) (state : EvmState) :
    Keeps f (onState source state) := fun s => hf s s.db _

theorem upstreamCall_keeps {α : Type} (source : StateChangeSource) (call : UpstreamCall δ α) :
    Keeps f (upstreamCall ext executor source call) := by
  refine keeps_get.bind (fun s => ?_)
  cases call executor.spec (executor.evm s.db) with
  | mk reported answer =>
    cases reported with
    | none => cases answer <;> exact fun _ => rfl
    | some state =>
      have hstate : Keeps f (onState source state >>= fun _ => commitState ext state) :=
        (onState_keeps hf source state).bind (fun _ => commitState_keeps hf ext state)
      cases answer with
      | ok a => exact hstate.bind (fun _ => keeps_pure a)
      | error e => exact hstate.bind (fun _ => keeps_throw (.error e))

theorem applyWithdrawalsContractCall_keeps (contract : Address) (withdrawals : List Withdrawal) :
    Keeps f (applyWithdrawalsContractCall ext executor contract withdrawals) := by
  refine keeps_get.bind (fun s => ?_)
  split
  · exact failWith_keeps _
  · refine (onState_keeps hf _ _).bind (fun _ => (commitState_keeps hf ext _).bind (fun _ => ?_))
    split
    · exact keeps_pure _
    · exact failWith_keeps _
    · exact failWith_keeps _

theorem applyBlockRewardsContractCall_keeps (contract coinbase : Address) :
    Keeps f (applyBlockRewardsContractCall ext executor contract coinbase) := by
  refine keeps_get.bind (fun s => ?_)
  split
  · exact failWith_keeps _
  · split
    · exact keeps_pure _
    · split
      · exact failWith_keeps _
      · exact failWith_keeps _
      · split
        · exact failWith_keeps _
        · refine (onState_keeps hf _ _).bind
            (fun _ => (commitState_keeps hf ext _).bind (fun _ => ?_))
          split
          · exact keeps_throw _
          · exact keeps_pure _

theorem applyWithdrawals_keeps (withdrawalContract : Address) (timestamp : ℕ)
    (withdrawals : Option (List Withdrawal)) :
    Keeps f (applyWithdrawals ext executor withdrawalContract timestamp withdrawals) := by
  unfold applyWithdrawals
  split
  · split
    · exact failWith_keeps _
    · exact applyWithdrawalsContractCall_keeps hf ext executor withdrawalContract _
  · exact keeps_pure _

theorem applyPostBlockSystemCalls_keeps (rewards withdrawalContract : Address) (timestamp : ℕ)
    (withdrawals : Option (List Withdrawal)) (coinbase : Address) :
    Keeps f (applyPostBlockSystemCalls ext executor rewards withdrawalContract timestamp
      withdrawals coinbase) :=
  (applyWithdrawals_keeps hf ext executor withdrawalContract timestamp withdrawals).bind (fun _ =>
    (applyBlockRewardsContractCall_keeps hf ext executor rewards coinbase).bind
      (fun _ => keeps_pure _))

theorem applyAuraRewrites_keeps (aura : AuraExecutionCtx) :
    Keeps f (applyAuraRewrites ext aura) := by
  unfold applyAuraRewrites
  split
  · exact keeps_get.bind (fun s => commitState_keeps hf ext _)
  · exact keeps_pure _

theorem applyBalancerRewrites_keeps : Keeps f (applyBalancerRewrites ext executor) := by
  unfold applyBalancerRewrites
  split
  · split
    · exact keeps_get.bind (fun s => commitState_keeps hf ext _)
    · exact keeps_pure _
  · exact keeps_pure _

theorem collectRequests_keeps : Keeps f (collectRequests ext executor) := by
  unfold collectRequests
  split
  · refine keeps_get.bind (fun s => ?_)
    split
    · exact failWith_keeps _
    · exact (upstreamCall_keeps hf ext executor _ _).bind
        (fun _ => (upstreamCall_keeps hf ext executor _ _).bind (fun _ => keeps_pure _))
  · exact keeps_pure _

theorem finishCalls_keeps : Keeps f (finishCalls ext executor) := by
  unfold finishCalls
  split
  · exact keeps_throw _
  · exact (collectRequests_keeps hf ext executor).bind
      (fun _ => (applyPostBlockSystemCalls_keeps hf ext executor _ _ _ _ _).bind
        (fun _ => keeps_pure _))

theorem applyBalanceIncrements_keeps (increments : BalanceIncrements) :
    Keeps f (applyBalanceIncrements ext increments) := by
  refine keeps_get.bind (fun s => ?_)
  split
  · exact failWith_keeps _
  · refine Keeps.bind (fun t => hf t _ t.stateHook) (fun _ => ?_)
    split
    · split
      · exact failWith_keeps _
      · exact onState_keeps hf _ _
    · exact keeps_pure _

end Effects

section Transactions
variable {δ ε : Type} (ext : Externals δ ε) (executor : GnosisBlockExecutor)

theorem executeTransactionWithoutCommit_keeps (tx : TransactionSigned) :
    KeepsTracker (executeTransactionWithoutCommit ext executor tx) := by
  refine keeps_get.bind (fun s => ?_)
  dsimp only
  split
  · exact failWith_keeps _
  · split
    · exact failWith_keeps _
    · exact keeps_pure _

theorem commitTransaction_keeps (output : EthTxResult) :
    KeepsTracker (commitTransaction ext executor output) := fun _ => rfl

theorem executeTransaction_keeps (tx : TransactionSigned) :
    KeepsTracker (executeTransaction ext executor tx) :=
  (executeTransactionWithoutCommit_keeps ext executor tx).bind
    (fun output => (commitTransaction_keeps ext executor output).bind (fun _ => keeps_pure _))

end Transactions

end RethGnosis
