import RethGnosis.Library.Ledger
import RethGnosis.Block.FailedImport

set_option autoImplicit false

/-!
# What the reward contract's answer credits

The increments are credits to an empty ledger as long as no account is given more than a
`u128`. Past that an amount panics or a sum wraps, and what the zip of the two arrays
leaves out is credited to nobody.
-/
namespace RethGnosis
open Ledger Fallible

structure CreditsExactly (receiversNative : List Address) (rewardsNative : List U256)
    (increments : BalanceIncrements) : Prop where
  exact : ∀ a, increments.getD a 0 = listed (receiversNative.zip rewardsNative) a
  total : (increments.toList.map Prod.snd).sum = rewardsNative.sum
  complete : ∀ a ∈ receiversNative, a ∈ increments

def RewardsCredited {δ : Type} (receiversNative : List Address) (rewardsNative : List U256) :
    EStateM.Result Fault (ExecState δ) (BalanceIncrements × List Log) → Prop
  | .ok (increments, _) _ => CreditsExactly receiversNative rewardsNative increments
  | .error (.error _) _ => True
  | .error (.panic _) _ => False

/-- No account is given more than a `u128`, and the zip leaves out neither a reward other than
zero nor a receiver. -/
structure Creditable (receiversNative : List Address) (rewardsNative : List U256) : Prop where
  fits : ∀ a, listed (receiversNative.zip rewardsNative) a ≤ u128Max
  rewards : (rewardsNative.drop receiversNative.length).sum = 0
  receivers : ∀ a ∈ receiversNative, a ∈ receiversNative.take rewardsNative.length

section Accumulate
variable {l : List (Address × U256)} {increments result : BalanceIncrements}

theorem accumulateRewards_cons (address : Address) (amount : U256) :
    accumulateRewards ((address, amount) :: l) increments =
      if u128Max < amount then
        .error (.panic "Uint conversion error: Value is too large for u128")
      else accumulateRewards l
        (increments.insert address ((increments.getD address 0 + amount) % 2 ^ 128)) := rfl

theorem accumulateRewards_le (hincrements : ∀ a, increments.getD a 0 ≤ u128Max)
    (h : accumulateRewards l increments = .ok result) (a : Address) :
    result.getD a 0 ≤ u128Max := by
  induction l generalizing increments with
  | nil =>
    obtain rfl := Except.ok.inj h
    exact hincrements a
  | cons p l ih =>
    rw [accumulateRewards_cons] at h
    split_ifs at h
    refine ih ?_ h
    intro b
    rw [Std.ExtTreeMap.getD_insert]
    split_ifs
    · have hlt := Nat.mod_lt (increments.getD p.1 0 + p.2) (by decide : 0 < 2 ^ 128)
      unfold u128Max
      omega
    · exact hincrements b

theorem mem_accumulateRewards (h : accumulateRewards l increments = .ok result) (a : Address) :
    a ∈ result ↔ a ∈ increments ∨ a ∈ l.map Prod.fst := by
  induction l generalizing increments with
  | nil =>
    obtain rfl := Except.ok.inj h
    simp
  | cons p l ih =>
    rw [accumulateRewards_cons] at h
    split_ifs at h
    rw [ih h, Std.ExtTreeMap.mem_insert, Std.compare_eq_iff_eq, List.map_cons, List.mem_cons]
    tauto

theorem accumulateRewards_credits (h : ∀ a, increments.getD a 0 + listed l a ≤ u128Max) :
    ∃ result, accumulateRewards l increments = .ok result ∧
      (fun a => result.getD a 0) = creditAll l (fun a => increments.getD a 0) := by
  induction l generalizing increments with
  | nil => exact ⟨increments, rfl, rfl⟩
  | cons p l ih =>
    have hfirst := h p.1
    rw [listed_cons, if_pos rfl] at hfirst
    have hsum : (increments.getD p.1 0 + p.2) % 2 ^ 128 = increments.getD p.1 0 + p.2 := by
      refine Nat.mod_eq_of_lt ?_
      unfold u128Max at hfirst
      omega
    have hcredit := @getD_insert_eq_credit Address _ _ _ _ increments p.1 p.2
    have hrest : ∀ a, (increments.insert p.1 (increments.getD p.1 0 + p.2)).getD a 0 +
        listed l a ≤ u128Max := by
      intro a
      have hstep := congrFun hcredit a
      have ha := h a
      rw [listed_cons, ← Nat.add_assoc, ← credit_apply p.1 p.2 (fun a => increments.getD a 0),
        ← hstep] at ha
      exact ha
    obtain ⟨result, hresult, hcredits⟩ := ih hrest
    refine ⟨result, ?_, ?_⟩
    · rw [accumulateRewards_cons, if_neg (by omega), hsum, hresult]
    · rw [hcredits, hcredit]
      rfl

theorem accumulateRewards_panics {fault : Fault}
    (h : accumulateRewards l increments = .error fault) :
    fault = .panic "Uint conversion error: Value is too large for u128" := by
  induction l generalizing increments with
  | nil => cases h
  | cons p l ih =>
    rw [accumulateRewards_cons] at h
    split_ifs at h
    · exact (Except.error.inj h).symm
    · exact ih h

end Accumulate

section Arrays
variable {receiversNative : List Address} {rewardsNative : List U256}

theorem map_fst_zip_eq_take (receivers : List Address) (rewards : List U256) :
    (receivers.zip rewards).map Prod.fst = receivers.take rewards.length := by
  induction receivers generalizing rewards with
  | nil => simp
  | cons a receivers ih =>
    cases rewards with
    | nil => simp
    | cons x rewards => simp [ih]

theorem map_snd_zip_eq_take (receivers : List Address) (rewards : List U256) :
    (receivers.zip rewards).map Prod.snd = rewards.take receivers.length := by
  induction receivers generalizing rewards with
  | nil => simp
  | cons a receivers ih =>
    cases rewards with
    | nil => simp
    | cons x rewards => simp [ih]

theorem sum_zip_add_sum_drop (receivers : List Address) (rewards : List ℕ) :
    ((receivers.zip rewards).map Prod.snd).sum + (rewards.drop receivers.length).sum =
      rewards.sum := by
  rw [map_snd_zip_eq_take, List.sum_take_add_sum_drop]

theorem creditsExactly_empty_iff :
    CreditsExactly receiversNative rewardsNative ∅ ↔
      Creditable receiversNative rewardsNative ∧ receiversNative = [] := by
  constructor
  · intro h
    have hnil : receiversNative = [] := by
      rw [List.eq_nil_iff_forall_not_mem]
      intro a ha
      simpa using h.complete a ha
    subst hnil
    refine ⟨⟨fun a => Nat.zero_le _, ?_, by simp⟩, rfl⟩
    exact h.total.symm
  · rintro ⟨h, rfl⟩
    exact ⟨fun a => rfl, h.rewards.symm, by simp⟩

theorem sum_increments {increments : BalanceIncrements}
    (h : accumulateRewards (receiversNative.zip rewardsNative) ∅ = .ok increments)
    (hexact : ∀ a, increments.getD a 0 = listed (receiversNative.zip rewardsNative) a) :
    (increments.toList.map Prod.snd).sum =
      ((receiversNative.zip rewardsNative).map Prod.snd).sum := by
  let accounts := ((receiversNative.zip rewardsNative).map Prod.fst).toFinset
  have hkeys : ∀ a ∈ increments, a ∈ accounts := by
    intro a ha
    rw [mem_accumulateRewards h] at ha
    simpa only [accounts, List.mem_toFinset, Std.ExtTreeMap.not_mem_empty, false_or] using ha
  have hlisted : ∀ p ∈ receiversNative.zip rewardsNative, p.1 ∈ accounts := by
    intro p hp
    rw [List.mem_toFinset]
    exact List.mem_map_of_mem hp
  calc (increments.toList.map Prod.snd).sum
      = total accounts (fun a => increments.getD a 0) := sum_values_eq_total hkeys
    _ = total accounts (listed (receiversNative.zip rewardsNative)) := by rw [funext hexact]
    _ = ((receiversNative.zip rewardsNative).map Prod.snd).sum := total_listed _ hlisted

theorem creditsExactly_accumulate_iff {increments : BalanceIncrements}
    (h : accumulateRewards (receiversNative.zip rewardsNative) ∅ = .ok increments) :
    CreditsExactly receiversNative rewardsNative increments ↔
      Creditable receiversNative rewardsNative := by
  have hmem : ∀ a, a ∈ increments ↔ a ∈ receiversNative.take rewardsNative.length := by
    intro a
    rw [mem_accumulateRewards h, map_fst_zip_eq_take]
    simp
  have hsplit := sum_zip_add_sum_drop receiversNative rewardsNative
  constructor
  · intro hcredits
    have htotal := hcredits.total
    rw [sum_increments h hcredits.exact, ← hsplit] at htotal
    refine ⟨?_, Nat.left_eq_add.mp htotal, ?_⟩
    · intro a
      rw [← hcredits.exact a]
      exact accumulateRewards_le (fun b => by simp) h a
    · intro a ha
      exact (hmem a).mp (hcredits.complete a ha)
  · intro hcreditable
    have hfits := hcreditable.fits
    obtain ⟨result, hresult, hcredits⟩ :=
      @accumulateRewards_credits (receiversNative.zip rewardsNative) ∅ (by simpa using hfits)
    obtain rfl : result = increments := by
      rw [h] at hresult
      exact (Except.ok.inj hresult).symm
    have hexact : ∀ a, result.getD a 0 = listed (receiversNative.zip rewardsNative) a := by
      intro a
      have ha := congrFun hcredits a
      rw [creditAll_apply] at ha
      simpa using ha
    refine ⟨hexact, ?_, ?_⟩
    · rw [sum_increments h hexact, ← hsplit, hcreditable.rewards, Nat.add_zero]
    · intro a ha
      exact (hmem a).mpr (hcreditable.receivers a ha)

end Arrays

section Call
variable {δ ε : Type} {ext : Externals δ ε} {executor : GnosisBlockExecutor}
  {blockRewardsContract coinbase : Address} {s : ExecState δ} {gasUsed : ℕ} {logs : List Log}
  {output : Output} {diff : EvmState} {receiversNative : List Address}
  {rewardsNative : List U256}

theorem rewardSystemCall_eq
    (hcall : ext.transact (systemCallCfg executor.cfg) executor.block executor.feeCollector s.db
      (systemCallTx SYSTEM_ADDRESS blockRewardsContract (ext.rewardCall [coinbase] [0])) =
        .ok ⟨.success gasUsed logs output, diff⟩) :
    transactSystemCall ext.transact (executor.evm s.db) SYSTEM_ADDRESS blockRewardsContract
        (ext.rewardCall [coinbase] [0]) =
      .ok ⟨.success gasUsed logs output,
        cleanSystemCallState executor.block.beneficiary executor.feeCollector diff⟩ := by
  unfold transactSystemCall
  simp only [GnosisBlockExecutor.evm, hcall]

theorem rewardCall_missing {cleaned : ResultAndState}
    (hsystem : transactSystemCall ext.transact (executor.evm s.db) SYSTEM_ADDRESS
      blockRewardsContract (ext.rewardCall [coinbase] [0]) = .ok cleaned)
    (hmissing : contractMissing cleaned.state blockRewardsContract = true) :
    applyBlockRewardsContractCall ext executor blockRewardsContract coinbase s =
      .ok (∅, []) s := by
  unfold applyBlockRewardsContractCall
  rw [get_bind_run]
  simp only [hsystem, hmissing, ↓reduceIte]
  rfl

theorem rewardCall_returned {cleaned : EvmState}
    (hsystem : transactSystemCall ext.transact (executor.evm s.db) SYSTEM_ADDRESS
      blockRewardsContract (ext.rewardCall [coinbase] [0]) =
        .ok ⟨.success gasUsed logs output, cleaned⟩)
    (hmissing : contractMissing cleaned blockRewardsContract = false)
    (hreturns : ext.rewardReturns output.intoData = .ok (receiversNative, rewardsNative)) :
    ∃ t, applyBlockRewardsContractCall ext executor blockRewardsContract coinbase s =
      match accumulateRewards (receiversNative.zip rewardsNative) ∅ with
      | .error fault => .error fault t
      | .ok increments => .ok (increments, logs) t := by
  unfold applyBlockRewardsContractCall
  rw [get_bind_run]
  simp only [hsystem, hmissing, hreturns]
  cases accumulateRewards (receiversNative.zip rewardsNative) ∅ with
  | error fault => exact ⟨_, rfl⟩
  | ok increments => exact ⟨_, rfl⟩

/-- The reward contract is taken for missing if the clean-up removed it, or if it has no code. -/
theorem contractMissing_cleaned_iff {contract beneficiary feeCollector : Address}
    (h : contract ≠ SYSTEM_ADDRESS) :
    contractMissing (cleanSystemCallState beneficiary feeCollector diff) contract = true ↔
      contract = beneficiary ∨ contract = feeCollector ∨ contractMissing diff contract = true := by
  by_cases hremoved : contract = beneficiary ∨ contract = feeCollector
  · rw [contractMissing, cleaned_get_removed hremoved]
    tauto
  · rw [not_or] at hremoved
    rw [contractMissing, contractMissing, cleaned_get_other h hremoved.1 hremoved.2]
    cases diff[contract]? with
    | none => simp [hremoved.1, hremoved.2]
    | some account => simp [hremoved.1, hremoved.2, retainChangedSlots_info]

end Call

/-- When the contract returned two arrays, the rewards are credited exactly, or an error is
returned, if and only if they are creditable and the contract is found in the diff (or no
receiver is listed). -/
theorem rewardsCredited_iff {δ ε : Type} {ext : Externals δ ε} {executor : GnosisBlockExecutor}
    {blockRewardsContract coinbase : Address} {s : ExecState δ} {gasUsed : ℕ} {logs : List Log}
    {output : Output} {diff : EvmState} {receiversNative : List Address}
    {rewardsNative : List U256}
    (hcall : ext.transact (systemCallCfg executor.cfg) executor.block executor.feeCollector s.db
      (systemCallTx SYSTEM_ADDRESS blockRewardsContract (ext.rewardCall [coinbase] [0])) =
        .ok ⟨.success gasUsed logs output, diff⟩)
    (hreturns : ext.rewardReturns output.intoData = .ok (receiversNative, rewardsNative)) :
    RewardsCredited receiversNative rewardsNative
        (applyBlockRewardsContractCall ext executor blockRewardsContract coinbase s) ↔
      Creditable receiversNative rewardsNative ∧
        (receiversNative = [] ∨
          contractMissing (cleanSystemCallState executor.block.beneficiary executor.feeCollector
            diff) blockRewardsContract = false) := by
  have hsystem := rewardSystemCall_eq hcall
  cases hmissing : contractMissing (cleanSystemCallState executor.block.beneficiary
      executor.feeCollector diff) blockRewardsContract with
  | true =>
    have hrun := rewardCall_missing hsystem hmissing
    rw [hrun, RewardsCredited, creditsExactly_empty_iff]
    simp
  | false =>
    obtain ⟨t, hrun⟩ := rewardCall_returned hsystem hmissing hreturns
    rw [hrun]
    cases haccumulate : accumulateRewards (receiversNative.zip rewardsNative) ∅ with
    | ok increments =>
      rw [RewardsCredited, creditsExactly_accumulate_iff haccumulate]
      simp
    | error fault =>
      obtain rfl := accumulateRewards_panics haccumulate
      constructor
      · intro h
        exact h.elim
      · rintro ⟨hcreditable, -⟩
        have hfits := hcreditable.fits
        obtain ⟨result, hresult, -⟩ :=
          @accumulateRewards_credits (receiversNative.zip rewardsNative) ∅ (by simpa using hfits)
        rw [haccumulate] at hresult
        cases hresult

section Reference
variable (receiversNative : List Address) (rewardsNative : List U256)

def encodeReturns : Bytes :=
  beWord 64 ++ beWord (96 + receiversNative.length * 32) ++ beWord receiversNative.length ++
    receiversNative.flatMap (fun address => beWord address.toNat) ++
    beWord rewardsNative.length ++ rewardsNative.flatMap beWord

def rewardExternals : Externals Unit String :=
  { nodeExternals (fun _ _ _ _ _ =>
      .ok ⟨.success 30000 [] (.call (encodeReturns receiversNative rewardsNative)),
        rewardCallResult.state⟩) with
    rewardReturns := fun data =>
      if data = encodeReturns receiversNative rewardsNative then
        .ok (receiversNative, rewardsNative)
      else .error "type check failed" }

def rewardExecutor : GnosisBlockExecutor :=
  blockExecutor referenceSource posdaoNode boundaryBlock scheduledState

def rewardCallOutcome :
    EStateM.Result Fault (ExecState Unit) (BalanceIncrements × List Log) :=
  applyBlockRewardsContractCall (rewardExternals receiversNative rewardsNative) rewardExecutor
    9#160 1#160 scheduledState

theorem rewardExternals_call :
    (rewardExternals receiversNative rewardsNative).transact (systemCallCfg rewardExecutor.cfg)
        rewardExecutor.block rewardExecutor.feeCollector scheduledState.db
        (systemCallTx SYSTEM_ADDRESS 9#160
          ((rewardExternals receiversNative rewardsNative).rewardCall [1#160] [0])) =
      .ok ⟨.success 30000 [] (.call (encodeReturns receiversNative rewardsNative)),
        rewardCallResult.state⟩ := rfl

theorem rewardExternals_returns :
    (rewardExternals receiversNative rewardsNative).rewardReturns
        (encodeReturns receiversNative rewardsNative) =
      .ok (receiversNative, rewardsNative) := if_pos rfl

end Reference

/-- Two receivers, one of them listed twice. -/
theorem rewardsCredited_iff_twoReceivers :
    RewardsCredited [1#160, 2#160, 1#160] [10, 20, 30]
        (rewardCallOutcome [1#160, 2#160, 1#160] [10, 20, 30]) ↔
      Creditable [1#160, 2#160, 1#160] [10, 20, 30] ∧
        ([1#160, 2#160, 1#160] = [] ∨
          contractMissing (cleanSystemCallState rewardExecutor.block.beneficiary
            rewardExecutor.feeCollector rewardCallResult.state) 9#160 = false) :=
  rewardsCredited_iff (rewardExternals_call _ _) (rewardExternals_returns _ _)

def creditOf {δ : Type} (a : Address) :
    EStateM.Result Fault (ExecState δ) (BalanceIncrements × List Log) → Option ℕ
  | .ok (increments, _) _ => some (increments.getD a 0)
  | .error _ _ => none

theorem not_credited_of_creditOf {δ : Type} {receiversNative : List Address}
    {rewardsNative : List U256} {a : Address} {x : ℕ}
    {outcome : EStateM.Result Fault (ExecState δ) (BalanceIncrements × List Log)}
    (hcredit : creditOf a outcome = some x)
    (hne : x ≠ listed (receiversNative.zip rewardsNative) a) :
    ¬ RewardsCredited receiversNative rewardsNative outcome := by
  intro hcredited
  cases outcome with
  | error fault t => cases hcredit
  | ok answer t =>
    have hexact := hcredited.exact a
    rw [Option.some.inj hcredit] at hexact
    exact hne hexact

/-- `2^128 - 1` and 1 for the same receiver wrap to 0. -/
theorem repeatedReceiver_wraps :
    creditOf 1#160 (rewardCallOutcome [1#160, 1#160] [2 ^ 128 - 1, 1]) = some 0 ∧
      ¬ RewardsCredited [1#160, 1#160] [2 ^ 128 - 1, 1]
        (rewardCallOutcome [1#160, 1#160] [2 ^ 128 - 1, 1]) := by
  have hzero : creditOf 1#160 (rewardCallOutcome [1#160, 1#160] [2 ^ 128 - 1, 1]) = some 0 := by
    decide +kernel
  exact ⟨hzero, not_credited_of_creditOf hzero (by decide)⟩

end RethGnosis
