import RethGnosis.Library.Run
import RethGnosis.Library.Fallible
import RethGnosis.Block.Executor

set_option autoImplicit false

/-!
# What the state hook is told

The state root can be computed from the diffs given to the hook instead of from the
database. From the two pre-block calls on, every step reports what it commits.
-/
namespace RethGnosis
open Fallible

/-- What a database holds of accounts, code and storage, and what a diff does to it. -/
structure StateView {δ ε : Type} (ext : Externals δ ε) (ω : Type) where
  accounts : δ → ω
  apply : ω → EvmState → ω
  commit : ∀ (db : δ) (state : EvmState), accounts (ext.commit db state) = apply (accounts db) state
  increments : ∀ (db db' : δ) (balanceIncrements : BalanceIncrements) (state : EvmState),
    ext.incrementBalances db balanceIncrements = some db' →
      ext.balanceIncrementState balanceIncrements db' = .ok state →
        accounts db' = apply (accounts db) state

section Report
variable {δ ε ω : Type} {ext : Externals δ ε} (view : StateView ext ω)

def StateView.replay (calls : List (StateChangeSource × EvmState)) (accounts : ω) : ω :=
  Run.run (fun call accounts => view.apply accounts call.2) calls accounts

/-- With a hook set, the diffs reported between two states lead from one's accounts to the
other's. -/
def Reported (s t : ExecState δ) : Prop :=
  ∀ calls, s.stateHook = some calls → ∃ more, t.stateHook = some (calls ++ more) ∧
    view.accounts t.db = view.replay more (view.accounts s.db)

abbrev Reports {α : Type} (m : Exec δ α) : Prop := Ensures (Reported view) m

theorem Reported.refl (s : ExecState δ) : Reported view s s := by
  intro calls hcalls
  exact ⟨[], by rw [List.append_nil, hcalls], rfl⟩

theorem Reported.trans (s t u : ExecState δ) (hst : Reported view s t) (htu : Reported view t u) :
    Reported view s u := by
  intro calls hcalls
  obtain ⟨first, hfirst, ht⟩ := hst calls hcalls
  obtain ⟨second, hsecond, hu⟩ := htu (calls ++ first) hfirst
  refine ⟨first ++ second, by rw [hsecond, List.append_assoc], ?_⟩
  rw [hu, ht]
  exact (Run.run_append first second _).symm

theorem Reported.of_same {s t : ExecState δ} (hdb : t.db = s.db)
    (hhook : t.stateHook = s.stateHook) : Reported view s t := by
  intro calls hcalls
  exact ⟨[], by rw [hhook, List.append_nil, hcalls], by rw [hdb]; rfl⟩

theorem Reports.bind {α β : Type} {m : Exec δ α} {f : α → Exec δ β} (hm : Reports view m)
    (hf : ∀ a, Reports view (f a)) : Reports view (m >>= f) :=
  Ensures.bind (Reported.trans view) hm hf

theorem reports_pure {α : Type} (a : α) : Reports view (pure a) :=
  ensures_pure (Reported.refl view) a

theorem reports_get : Reports view (get : Exec δ (ExecState δ)) := by
  intro s a t hrun
  cases hrun
  exact Reported.refl view s

theorem reports_failWith {α : Type} (e : BlockExecutionError) :
    Reports view (failWith (α := α) e) := ensures_throw _

theorem reports_commit (source : StateChangeSource) (state : EvmState) :
    Reports view (do onState source state; commitState ext state) := by
  intro s _ t hrun
  cases hrun
  intro calls hcalls
  refine ⟨[(source, state)], ?_, view.commit s.db state⟩
  simp only [hcalls, Option.map_some]

theorem reports_commit_bind {α : Type} {f : Unit → Exec δ α} (source : StateChangeSource)
    (state : EvmState) (hf : Reports view (f ())) :
    Reports view (onState source state >>= fun _ => commitState ext state >>= f) :=
  (reports_commit view source state).bind view (fun _ => hf)

end Report

section Steps
variable {δ ε ω : Type} {ext : Externals δ ε} (view : StateView ext ω)
  (executor : GnosisBlockExecutor)

theorem upstreamCall_reports {α : Type} (source : StateChangeSource) (call : UpstreamCall δ α) :
    Reports view (upstreamCall ext executor source call) := by
  refine (reports_get view).bind view (fun s => ?_)
  cases call executor.spec (executor.evm s.db) with
  | mk reported answer =>
    cases answer with
    | ok a =>
      have hanswer := reports_pure view a
      cases reported with
      | none => exact (reports_pure view ()).bind view (fun _ => hanswer)
      | some state => exact (reports_commit view source state).bind view (fun _ => hanswer)
    | error e =>
      have hanswer : Reports view (failWith e : Exec δ α) := reports_failWith view e
      cases reported with
      | none => exact (reports_pure view ()).bind view (fun _ => hanswer)
      | some state => exact (reports_commit view source state).bind view (fun _ => hanswer)

theorem applyWithdrawalsContractCall_reports (contract : Address) (withdrawals : List Withdrawal) :
    Reports view (applyWithdrawalsContractCall ext executor contract withdrawals) := by
  refine (reports_get view).bind view (fun s => ?_)
  split
  · exact reports_failWith view _
  · refine reports_commit_bind view _ _ ?_
    split
    · exact reports_pure view _
    · exact reports_failWith view _
    · exact reports_failWith view _

theorem applyBlockRewardsContractCall_reports (contract coinbase : Address) :
    Reports view (applyBlockRewardsContractCall ext executor contract coinbase) := by
  refine (reports_get view).bind view (fun s => ?_)
  split
  · exact reports_failWith view _
  · split
    · exact reports_pure view _
    · split
      · exact reports_failWith view _
      · exact reports_failWith view _
      · split
        · exact reports_failWith view _
        · refine reports_commit_bind view _ _ ?_
          split
          · exact ensures_throw _
          · exact reports_pure view _

theorem applyWithdrawals_reports (withdrawalContract : Address) (timestamp : ℕ)
    (withdrawals : Option (List Withdrawal)) :
    Reports view (applyWithdrawals ext executor withdrawalContract timestamp withdrawals) := by
  unfold applyWithdrawals
  split
  · split
    · exact reports_failWith view _
    · exact applyWithdrawalsContractCall_reports view executor withdrawalContract _
  · exact reports_pure view _

theorem applyPostBlockSystemCalls_reports (rewards withdrawalContract : Address) (timestamp : ℕ)
    (withdrawals : Option (List Withdrawal)) (coinbase : Address) :
    Reports view (applyPostBlockSystemCalls ext executor rewards withdrawalContract timestamp
      withdrawals coinbase) :=
  (applyWithdrawals_reports view executor withdrawalContract timestamp withdrawals).bind view
    (fun _ => (applyBlockRewardsContractCall_reports view executor rewards coinbase).bind view
      (fun _ => reports_pure view _))

theorem executeTransactionWithoutCommit_reports (tx : TransactionSigned) :
    Reports view (executeTransactionWithoutCommit ext executor tx) := by
  refine (reports_get view).bind view (fun s => ?_)
  dsimp only
  split
  · exact reports_failWith view _
  · split
    · exact reports_failWith view _
    · exact reports_pure view _

theorem commitTransaction_reports (output : EthTxResult) :
    Reports view (commitTransaction ext executor output) := by
  intro s _ t hrun
  cases hrun
  intro calls hcalls
  refine ⟨[(.transaction s.receipts.length, output.result.state)], ?_,
    view.commit s.db output.result.state⟩
  simp only [hcalls, Option.map_some]

theorem executeTransaction_reports (tx : TransactionSigned) :
    Reports view (executeTransaction ext executor tx) :=
  (executeTransactionWithoutCommit_reports view executor tx).bind view (fun output =>
    (commitTransaction_reports view executor output).bind view (fun _ => reports_pure view _))

theorem collectRequests_reports : Reports view (collectRequests ext executor) := by
  unfold collectRequests
  split
  · refine (reports_get view).bind view (fun s => ?_)
    split
    · exact reports_failWith view _
    · exact (upstreamCall_reports view executor _ _).bind view (fun _ =>
        (upstreamCall_reports view executor _ _).bind view (fun _ => reports_pure view _))
  · exact reports_pure view _

theorem finishCalls_reports : Reports view (finishCalls ext executor) := by
  unfold finishCalls
  split
  · exact ensures_throw _
  · exact (collectRequests_reports view executor).bind view (fun _ =>
      (applyPostBlockSystemCalls_reports view executor _ _ _ _ _).bind view (fun _ =>
        reports_pure view _))

theorem updateTracker_reports (rewardLogs : List Log) :
    Reports view (updateTracker (δ := δ) executor rewardLogs) := by
  unfold updateTracker
  split
  · intro s _ t hrun
    cases hrun
    exact Reported.of_same view rfl rfl
  · exact reports_pure view _

/-- The increments change the balances first and report afterwards, from the new balances. -/
theorem applyBalanceIncrements_reports (increments : BalanceIncrements) :
    Reports view (applyBalanceIncrements ext increments) := by
  intro s _ t hrun calls hcalls
  unfold applyBalanceIncrements at hrun
  rw [get_bind_run] at hrun
  cases hincrement : ext.incrementBalances s.db increments with
  | none =>
    rw [hincrement] at hrun
    cases hrun
  | some db =>
    rw [hincrement] at hrun
    cases hstate : ext.balanceIncrementState increments db with
    | error e =>
      simp only [hcalls, hstate] at hrun
      cases hrun
    | ok state =>
      simp only [hcalls, hstate] at hrun
      cases hrun
      refine ⟨[(.postBlockBalanceIncrements, state)], ?_,
        view.increments s.db db increments state hincrement hstate⟩
      simp only [hcalls, Option.map_some]

theorem finish_reports : Reports view (finish ext executor) :=
  (finishCalls_reports view executor).bind view (fun _ =>
    (updateTracker_reports view executor _).bind view (fun _ =>
      (applyBalanceIncrements_reports view _).bind view (fun _ =>
        (reports_get view).bind view (fun _ => reports_pure view _))))

def executeReported (ext : Externals δ ε) (executor : GnosisBlockExecutor)
    (transactions : List TransactionSigned) :
    Exec δ BlockExecutionResult := do
  upstreamCall ext executor .preBlockBlockHashesContract
    (ext.blockhashesContractCall executor.ctx.parentHash)
  upstreamCall ext executor .preBlockBeaconRootContract
    (ext.beaconRootContractCall executor.ctx.parentBeaconBlockRoot)
  transactions.forM (executeTransaction ext executor)
  finish ext executor

theorem executeReported_reports (transactions : List TransactionSigned) :
    Reports view (executeReported ext executor transactions) :=
  (upstreamCall_reports view executor _ _).bind view (fun _ =>
    (upstreamCall_reports view executor _ _).bind view (fun _ =>
      Reports.bind view (Ensures.forM (Reported.refl view) (Reported.trans view)
        (executeTransaction_reports view executor) transactions) (fun _ =>
          finish_reports view executor)))

end Steps

end RethGnosis
