import RethGnosis.Evm.State

set_option autoImplicit false

/-!
# System calls and their clean-up

`GnosisEvm::transact_system_call` runs a gas-free call and edits the diff the EVM
returned: the system address is put back to its pre-call information, the
beneficiary and the fee collector are removed with everything they changed, and
unchanged slots are dropped. This module states when no other change is lost.
-/
namespace RethGnosis

def TX_GAS_LIMIT : ℕ := 30000000

def systemCallTx (caller contract : Address) (data : Bytes) : TxEnv where
  txType := .legacy
  caller := caller
  gasLimit := TX_GAS_LIMIT
  gasPrice := 0
  kind := .call contract
  value := 0
  data := data
  nonce := 0
  chainId := none
  accessList := []
  gasPriorityFee := none
  blobHashes := []
  maxFeePerBlobGas := 0
  authorizationList := []

/-- The configuration between the two swaps. -/
def systemCallCfg (cfg : CfgEnv) : CfgEnv :=
  { cfg with
    disableNonceCheck := true
    disableBlockGasLimit := true
    disableBaseFee := true
    txGasLimitCap := some TX_GAS_LIMIT }

def preserveSystemAddress (state : EvmState) : EvmState :=
  state.alter SYSTEM_ADDRESS (fun entry =>
    match entry with
    | some acc =>
      some { acc with
        info := acc.originalInfo
        status := acc.status.union (AccountStatus.Created.union AccountStatus.Touched) }
    | none =>
      some
        { info := AccountInfo.default
          originalInfo := AccountInfo.default
          transactionId := 0
          storage := ∅
          status := AccountStatus.Created.union AccountStatus.Touched })

def EvmStorageSlot.changed (slot : EvmStorageSlot) : Bool :=
  slot.presentValue != slot.originalValue

def retainChangedSlots (account : Account) : Account :=
  { account with storage := account.storage.filter (fun _ slot => slot.changed) }

def cleanSystemCallState (beneficiary feeCollector : Address) (state : EvmState) : EvmState :=
  (((preserveSystemAddress state).erase beneficiary).erase feeCollector).map
    (fun _ account => retainChangedSlots account)

section Call
variable {δ ε : Type} (transact : Transact δ ε)

def transactSystemCall (evm : GnosisEvm δ) (caller contract : Address) (data : Bytes) :
    Except ε ResultAndState :=
  match transact (systemCallCfg evm.cfg) evm.block evm.feeCollector evm.database
      (systemCallTx caller contract data) with
  | .ok res =>
    .ok { res with
      state := cleanSystemCallState evm.block.beneficiary evm.feeCollector res.state }
  | .error e => .error e

end Call

/-- The reward call's test for a contract without code. -/
def contractMissing (state : EvmState) (contract : Address) : Bool :=
  match state[contract]? with
  | none => true
  | some account => account.info.codeHash == KECCAK_EMPTY

/-- The call deleted the account, or changed its balance, nonce, code or at least one slot. A
self-destructed account loses all of these when the diff is committed, whatever its entry says. -/
def Account.isChanged (account : Account) : Prop :=
  account.status.selfDestructed = true ∨
    account.info.balance ≠ account.originalInfo.balance ∨
    account.info.nonce ≠ account.originalInfo.nonce ∨
    account.info.codeHash ≠ account.originalInfo.codeHash ∨
    ∃ (slot : U256) (value : EvmStorageSlot), account.storage[slot]? = some value ∧
      value.changed = true

def Account.hasCode (account : Account) : Prop :=
  account.originalInfo.codeHash ≠ KECCAK_EMPTY ∧ account.info.codeHash ≠ KECCAK_EMPTY

structure KeepsChanges (preCall : AccountInfo) (contract : Address) (diff cleaned : EvmState) :
    Prop where
  changed : ∀ (a : Address) (account : Account), a ≠ SYSTEM_ADDRESS → diff[a]? = some account →
    account.isChanged → cleaned[a]? = some (retainChangedSlots account)
  system : ∃ account, cleaned[SYSTEM_ADDRESS]? = some account ∧ account.info = preCall
  found : ∀ account, diff[contract]? = some account → account.hasCode →
    contractMissing cleaned contract = false

/-- The address takes nothing along when it is removed from the diff. -/
structure Removable (contract : Address) (diff : EvmState) (a : Address) : Prop where
  notSystem : a ≠ SYSTEM_ADDRESS
  unchanged : ∀ account, diff[a]? = some account → ¬ account.isChanged
  notCalled : ∀ account, diff[a]? = some account → account.hasCode → a ≠ contract

theorem preserveSystemAddress_get (state : EvmState) (a : Address) :
    (preserveSystemAddress state)[a]? =
      if a = SYSTEM_ADDRESS then (preserveSystemAddress state)[SYSTEM_ADDRESS]?
      else state[a]? := by
  by_cases ha : a = SYSTEM_ADDRESS
  · rw [if_pos ha, ha]
  · rw [if_neg ha]
    simp only [preserveSystemAddress, Std.ExtTreeMap.getElem?_alter, Std.compare_eq_iff_eq,
      Ne.symm ha, ↓reduceIte]

theorem cleaned_get (beneficiary feeCollector : Address) (state : EvmState) (a : Address) :
    (cleanSystemCallState beneficiary feeCollector state)[a]? =
      if a = beneficiary ∨ a = feeCollector then none
      else ((preserveSystemAddress state)[a]?).map retainChangedSlots := by
  simp only [cleanSystemCallState, Std.ExtTreeMap.getElem?_map, Std.ExtTreeMap.getElem?_erase,
    Std.compare_eq_iff_eq]
  by_cases hb : beneficiary = a <;> by_cases hc : feeCollector = a <;>
    simp [hb, hc, eq_comm]

theorem retainChangedSlots_info (account : Account) :
    (retainChangedSlots account).info = account.info := rfl

theorem cleaned_get_other {beneficiary feeCollector a : Address} {state : EvmState}
    (hs : a ≠ SYSTEM_ADDRESS) (hb : a ≠ beneficiary) (hc : a ≠ feeCollector) :
    (cleanSystemCallState beneficiary feeCollector state)[a]? =
      (state[a]?).map retainChangedSlots := by
  rw [cleaned_get, if_neg (by tauto), preserveSystemAddress_get, if_neg hs]

theorem cleaned_get_removed {beneficiary feeCollector a : Address} {state : EvmState}
    (h : a = beneficiary ∨ a = feeCollector) :
    (cleanSystemCallState beneficiary feeCollector state)[a]? = none := by
  rw [cleaned_get, if_pos h]

def CallerLoaded (preCall : AccountInfo) (diff : EvmState) : Prop :=
  ∃ account, diff[SYSTEM_ADDRESS]? = some account ∧ account.originalInfo = preCall

theorem cleaned_get_system {beneficiary feeCollector : Address} {state : EvmState}
    {preCall : AccountInfo} (h : CallerLoaded preCall state) (hb : SYSTEM_ADDRESS ≠ beneficiary)
    (hc : SYSTEM_ADDRESS ≠ feeCollector) :
    ∃ account, (cleanSystemCallState beneficiary feeCollector state)[SYSTEM_ADDRESS]? =
      some account ∧ account.info = preCall := by
  obtain ⟨account, hget, horiginal⟩ := h
  rw [cleaned_get, if_neg (by tauto)]
  simp only [preserveSystemAddress, Std.ExtTreeMap.getElem?_alter_self, hget, Option.map_some,
    Option.some.injEq, exists_eq_left', retainChangedSlots_info]
  exact horiginal

theorem Removable.of_keeps {preCall : AccountInfo} {contract a beneficiary feeCollector : Address}
    {diff : EvmState}
    (h : KeepsChanges preCall contract diff (cleanSystemCallState beneficiary feeCollector diff))
    (ha : a = beneficiary ∨ a = feeCollector) : Removable contract diff a := by
  have hgone := @cleaned_get_removed beneficiary feeCollector a diff ha
  have hsystem : a ≠ SYSTEM_ADDRESS := by
    rintro rfl
    obtain ⟨account, hget, -⟩ := h.system
    rw [hgone] at hget
    contradiction
  refine ⟨hsystem, ?_, ?_⟩
  · intro account hget hchanged
    have hkept := h.changed a account hsystem hget hchanged
    rw [hgone] at hkept
    contradiction
  · rintro account hget hcode rfl
    have hfound := h.found account hget hcode
    simp [contractMissing, hgone] at hfound

theorem cleaned_keepsChanges_iff {preCall : AccountInfo}
    {contract beneficiary feeCollector : Address} {diff : EvmState}
    (hcaller : CallerLoaded preCall diff) :
    KeepsChanges preCall contract diff (cleanSystemCallState beneficiary feeCollector diff) ↔
      Removable contract diff beneficiary ∧ Removable contract diff feeCollector := by
  constructor
  · intro h
    exact ⟨Removable.of_keeps h (.inl rfl), Removable.of_keeps h (.inr rfl)⟩
  · rintro ⟨hb, hc⟩
    have hsystem := cleaned_get_system hcaller (Ne.symm hb.notSystem) (Ne.symm hc.notSystem)
    refine ⟨?_, hsystem, ?_⟩
    · intro a account hs hget hchanged
      have hab : a ≠ beneficiary := by
        rintro rfl
        exact hb.unchanged account hget hchanged
      have hac : a ≠ feeCollector := by
        rintro rfl
        exact hc.unchanged account hget hchanged
      rw [cleaned_get_other hs hab hac, hget]
      rfl
    · intro account hget hcode
      by_cases hs : contract = SYSTEM_ADDRESS
      · obtain ⟨kept, hkept, hinfo⟩ := hsystem
        obtain ⟨caller, hcallerGet, horiginal⟩ := hcaller
        rw [hs, hcallerGet, Option.some.injEq] at hget
        rw [← hget, Account.hasCode, horiginal] at hcode
        simpa [contractMissing, hs, hkept, hinfo] using hcode.1
      · have hab : contract ≠ beneficiary := by
          rintro rfl
          exact hb.notCalled account hget hcode rfl
        have hac : contract ≠ feeCollector := by
          rintro rfl
          exact hc.notCalled account hget hcode rfl
        have hkept := @cleaned_get_other beneficiary feeCollector contract diff hs hab hac
        rw [hget, Option.map_some] at hkept
        simpa [contractMissing, hkept, retainChangedSlots_info] using hcode.2

/-- A system call hands on every change of the EVM exactly when neither the block's beneficiary
nor the fee collector is the system address, a changed account or the called contract. -/
theorem systemCall_keepsChanges_iff {δ ε : Type} {transact : Transact δ ε} {evm : GnosisEvm δ}
    {contract : Address} {data : Bytes} {res : ResultAndState} {preCall : AccountInfo}
    (htransact : transact (systemCallCfg evm.cfg) evm.block evm.feeCollector evm.database
      (systemCallTx SYSTEM_ADDRESS contract data) = .ok res)
    (hcaller : CallerLoaded preCall res.state) :
    (∃ cleaned, transactSystemCall transact evm SYSTEM_ADDRESS contract data = .ok cleaned ∧
        cleaned.result = res.result ∧ KeepsChanges preCall contract res.state cleaned.state) ↔
      Removable contract res.state evm.block.beneficiary ∧
        Removable contract res.state evm.feeCollector := by
  rw [← cleaned_keepsChanges_iff hcaller]
  simp only [transactSystemCall, htransact, Except.ok.injEq]
  constructor
  · rintro ⟨cleaned, rfl, -, hkeeps⟩
    exact hkeeps
  · intro hkeeps
    exact ⟨_, rfl, rfl, hkeeps⟩

def rewardContractAccount : Account where
  info := ⟨0, 1, 7#256, none⟩
  originalInfo := ⟨0, 1, 7#256, none⟩
  transactionId := 0
  storage := (∅ : EvmStorage).insert 0 ⟨1, 2⟩
  status := AccountStatus.Touched

def systemAccount : Account where
  info := { AccountInfo.default with nonce := 1 }
  originalInfo := AccountInfo.default
  transactionId := 0
  storage := ∅
  status := AccountStatus.Touched

def rewardCallResult : ResultAndState where
  result := .success 0 [] (.call [])
  state := ((∅ : EvmState).insert SYSTEM_ADDRESS systemAccount).insert 9#160 rewardContractAccount

def rewardCallTransact : Transact Unit Unit := fun _ _ _ _ _ => .ok rewardCallResult

def rewardCallEvm (beneficiary feeCollector : Address) : GnosisEvm Unit where
  cfg := ⟨100, .LONDON, ⟨0, 0, 0, 0, 0⟩, none, none, none, false, false, false⟩
  block := ⟨1, beneficiary, 0, 30000000, 7, 0, none, none, 0⟩
  feeCollector := feeCollector
  database := ()

theorem systemCall_keepsChanges_iff_rewardCall :
    (∃ cleaned, transactSystemCall rewardCallTransact (rewardCallEvm 1#160 2#160) SYSTEM_ADDRESS
          9#160 [] = .ok cleaned ∧ cleaned.result = rewardCallResult.result ∧
        KeepsChanges AccountInfo.default 9#160 rewardCallResult.state cleaned.state) ↔
      Removable 9#160 rewardCallResult.state 1#160 ∧
        Removable 9#160 rewardCallResult.state 2#160 := by
  have hcaller : CallerLoaded AccountInfo.default rewardCallResult.state :=
    ⟨systemAccount, by decide +kernel, rfl⟩
  exact @systemCall_keepsChanges_iff _ _ rewardCallTransact (rewardCallEvm 1#160 2#160) 9#160 []
    rewardCallResult AccountInfo.default rfl hcaller

/-- With the reward contract as beneficiary its writes are lost and it counts as missing. -/
theorem rewardCall_lost_for_beneficiary :
    CallerLoaded AccountInfo.default rewardCallResult.state ∧
      rewardCallResult.state[9#160]? = some rewardContractAccount ∧
      rewardContractAccount.isChanged ∧ rewardContractAccount.hasCode ∧
      ∃ cleaned, transactSystemCall rewardCallTransact (rewardCallEvm 9#160 2#160)
          SYSTEM_ADDRESS 9#160 [] = .ok cleaned ∧
        cleaned.state[9#160]? = none ∧ contractMissing cleaned.state 9#160 = true := by
  refine ⟨⟨systemAccount, by decide +kernel, rfl⟩, by decide +kernel, ?_, ?_,
    ⟨_, rfl, by decide +kernel, by decide +kernel⟩⟩
  · exact .inr (.inr (.inr (.inr ⟨0, ⟨1, 2⟩, by decide +kernel, by decide +kernel⟩)))
  · constructor <;> decide +kernel

end RethGnosis
