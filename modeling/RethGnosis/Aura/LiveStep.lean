import RethGnosis.Aura.Live

set_option autoImplicit false

/-!
# What one live block can do to the tracker

Each stage of `liveBlock` is described field by field, so that the invariants of
the later modules are case analyses over these equations.
-/
namespace RethGnosis
open RollingFinality

def dueSlot (rf : RollingFinality) (n : ℕ) : Option (ℕ × Address) :=
  match rf.finalizeChangeAt with
  | some (targetBlock, addr) => if targetBlock ≤ n then some (targetBlock, addr) else none
  | none => none

theorem dueSlot_some {rf : RollingFinality} {n : ℕ} {slot : ℕ × Address}
    (h : dueSlot rf n = some slot) : rf.finalizeChangeAt = some slot := by
  unfold dueSlot at h
  split at h
  · split_ifs at h
    rw [← h]
    assumption
  · contradiction

theorem takeFinalizeChange_eq (rf : RollingFinality) (n : ℕ) :
    rf.takeFinalizeChange n =
      ((dueSlot rf n).map Prod.snd,
        if (dueSlot rf n).isSome then
          { rf with finalizeChangeAt := none, headers := [], signCount := ∅ }
        else rf) := by
  unfold takeFinalizeChange dueSlot
  cases rf.finalizeChangeAt with
  | none => rfl
  | some slot =>
    obtain ⟨targetBlock, addr⟩ := slot
    by_cases h : targetBlock ≤ n <;> simp [h]

section Stages
variable (c : AuraConfig) (b : AuraBlock) (rf : RollingFinality)

def boundaryCall : Option Address :=
  computeFinalizeChangeAddressFromValidators c.validators b.number

def consumedSlot : Option (ℕ × Address) :=
  if boundaryCall c b = none then dueSlot rf b.number else none

theorem auraContextForBlock_eq :
    auraContextForBlock c b.number rf =
      ({ finalizeChangeAddress := (boundaryCall c b).or ((consumedSlot c b rf).map Prod.snd)
         validatorContract := c.validators.contractAddressAt b.number
         posdaoTransition := c.posdaoTransition
         auraBytecodeRewrites := c.rewriteBytecode[b.number]? },
        if (consumedSlot c b rf).isSome then
          { rf with finalizeChangeAt := none, headers := [], signCount := ∅ }
        else rf) := by
  unfold auraContextForBlock consumedSlot boundaryCall
  cases hb : computeFinalizeChangeAddressFromValidators c.validators b.number with
  | some addr => simp
  | none =>
    rw [takeFinalizeChange_eq]
    simp

theorem finalizeChangeAddress_eq :
    finalizeChangeAddress c b rf = (boundaryCall c b).or ((consumedSlot c b rf).map Prod.snd) := by
  unfold finalizeChangeAddress blockContext
  rw [auraContextForBlock_eq]

theorem blockContext_contract :
    (blockContext c b rf).validatorContract = c.validators.contractAddressAt b.number := by
  unfold blockContext
  rw [auraContextForBlock_eq]

theorem blockContext_posdao : (blockContext c b rf).posdaoTransition = c.posdaoTransition := by
  unfold blockContext
  rw [auraContextForBlock_eq]

theorem afterContext_eq :
    afterContext c b rf =
      if (consumedSlot c b rf).isSome then
        { rf with finalizeChangeAt := none, headers := [], signCount := ∅ }
      else rf := by
  unfold afterContext
  rw [auraContextForBlock_eq]

theorem consumedSlot_isSome_address (h : (consumedSlot c b rf).isSome = true) :
    (finalizeChangeAddress c b rf).isSome = true := by
  rw [finalizeChangeAddress_eq]
  cases boundaryCall c b <;> simp [h]

/-- The block makes a `finalizeChange()` call: it is a boundary block or a call is due. -/
def callsFinalizeChange : Bool := (boundaryCall c b).isSome || (dueSlot rf b.number).isSome

theorem finalizeChangeAddress_isSome :
    (finalizeChangeAddress c b rf).isSome = callsFinalizeChange c b rf := by
  rw [finalizeChangeAddress_eq]
  simp only [callsFinalizeChange, consumedSlot]
  cases boundaryCall c b <;> simp

/-- The list a POSDAO block pushes its signer against, and whether that list is sealed. -/
def listInForce : List Address × Bool :=
  if callsFinalizeChange c b rf then (b.refreshedValidators, true)
  else if rf.validators = [] ∧ (c.validators.contractAddressAt b.number).isSome then
    (b.initialValidators, true)
  else (rf.validators, rf.validatorsSealed)

theorem afterPreExecution_pending :
    (afterPreExecution c b rf).pendingTransitions = rf.pendingTransitions := by
  have h : (afterContext c b rf).pendingTransitions = rf.pendingTransitions := by
    rw [afterContext_eq]
    split_ifs <;> rfl
  unfold afterPreExecution
  simp only
  split_ifs <;> exact h

theorem afterPreExecution_slot :
    (afterPreExecution c b rf).finalizeChangeAt =
      if (consumedSlot c b rf).isSome then none else rf.finalizeChangeAt := by
  have h : (afterContext c b rf).finalizeChangeAt =
      if (consumedSlot c b rf).isSome then none else rf.finalizeChangeAt := by
    rw [afterContext_eq]
    split_ifs <;> rfl
  rw [← h]
  unfold afterPreExecution
  simp only
  split_ifs <;> rfl

end Stages

section Step
variable {c : AuraConfig} {b : AuraBlock} {rf : RollingFinality}

theorem WindowInv.afterContext (h : WindowInv rf) : WindowInv (afterContext c b rf) := by
  rw [afterContext_eq]
  split_ifs
  · exact windowInv_of_cleared rfl rfl
  · exact h

theorem WindowInv.afterPreExecution (h : WindowInv rf) :
    WindowInv (afterPreExecution c b rf) := by
  unfold RethGnosis.afterPreExecution
  simp only
  split_ifs
  · exact windowInv_setValidators _ _
  · exact windowInv_setValidators _ _
  · exact windowInv_setValidators _ _
  · exact WindowInv.afterContext h

theorem afterContext_of_quiet (h : callsFinalizeChange c b rf = false) :
    RethGnosis.afterContext c b rf = rf := by
  have hs : (consumedSlot c b rf).isSome = false := by
    rw [Bool.eq_false_iff]
    intro hs
    have hf := consumedSlot_isSome_address c b rf hs
    rw [finalizeChangeAddress_isSome, h] at hf
    contradiction
  rw [afterContext_eq, hs]
  rfl

/-- With a `finalizeChange()` call the refreshed list wins over the initial one. -/
theorem afterPreExecution_of_calls (hp : c.posdaoTransition ≤ b.number)
    (h : callsFinalizeChange c b rf = true) :
    afterPreExecution c b rf =
      (RethGnosis.afterContext c b rf).setValidators b.refreshedValidators := by
  have hf : (blockContext c b rf).finalizeChangeAddress.isSome = true := by
    rw [← h, ← finalizeChangeAddress_isSome]
    rfl
  simp only [RethGnosis.afterPreExecution, blockContext_posdao, hp, decide_true, hf, Bool.and_true,
    ↓reduceIte]
  split_ifs <;> rfl

theorem afterPreExecution_of_quiet (hp : c.posdaoTransition ≤ b.number)
    (h : callsFinalizeChange c b rf = false) :
    afterPreExecution c b rf =
      if rf.validators = [] ∧ (c.validators.contractAddressAt b.number).isSome then
        rf.setValidators b.initialValidators
      else rf := by
  have hf : (blockContext c b rf).finalizeChangeAddress.isSome = false := by
    rw [← h, ← finalizeChangeAddress_isSome]
    rfl
  have hinit : needsInit (blockContext c b rf) b.number rf = true ↔
      rf.validators = [] ∧ (c.validators.contractAddressAt b.number).isSome = true := by
    simp only [needsInit, blockContext_posdao, blockContext_contract, hp, decide_true,
      Bool.true_and, Bool.and_eq_true, validatorCount, beq_iff_eq, List.length_eq_zero_iff]
    exact and_comm
  simp only [RethGnosis.afterPreExecution, hf, Bool.false_and, Bool.false_eq_true, ↓reduceIte,
    afterContext_of_quiet h, hinit]

theorem afterPreExecution_list (hp : c.posdaoTransition ≤ b.number) :
    ((afterPreExecution c b rf).validators, (afterPreExecution c b rf).validatorsSealed) =
      listInForce c b rf := by
  simp only [listInForce]
  by_cases hf : callsFinalizeChange c b rf = true
  · rw [afterPreExecution_of_calls hp hf, if_pos hf]
    rfl
  · rw [afterPreExecution_of_quiet hp (by simpa using hf), if_neg hf]
    split_ifs <;> rfl

/-- A POSDAO block empties the queue exactly when it calls `finalizeChange()`; the
initial `getValidators()` is only made while the queue is empty anyway. -/
theorem afterPreExecution_headers (h : WindowInv rf) (hp : c.posdaoTransition ≤ b.number) :
    (afterPreExecution c b rf).headers = if callsFinalizeChange c b rf then [] else rf.headers := by
  by_cases hf : callsFinalizeChange c b rf = true
  · rw [afterPreExecution_of_calls hp hf, if_pos hf]
    rfl
  · rw [afterPreExecution_of_quiet hp (by simpa using hf), if_neg hf]
    split_ifs with hinit
    · exact (h.headers_of_no_validators hinit.1).symm
    · rfl

theorem afterPreExecution_of_lt (hp : b.number < c.posdaoTransition) :
    afterPreExecution c b rf = afterContext c b rf := by
  have hn : ¬ c.posdaoTransition ≤ b.number := by omega
  unfold RethGnosis.afterPreExecution
  simp [needsInit, blockContext_posdao, hn]

theorem announces_eq (c : AuraConfig) (b : AuraBlock) (rf : RollingFinality) :
    announces c b rf =
      match c.validators.contractAddressAt b.number with
      | none => false
      | some contract => receiptsContainInitiateChange b.receipts contract ||
          logsContainInitiateChange b.rewardLogs contract := by
  have hcontract := blockContext_contract c b rf
  unfold announces hasInitiateChange
  cases hc : c.validators.contractAddressAt b.number <;> simp only [hcontract, hc]

theorem afterRecord_eq (c : AuraConfig) (b : AuraBlock) (rf : RollingFinality) :
    afterRecord c b rf =
      match c.validators.contractAddressAt b.number with
      | none => afterPreExecution c b rf
      | some contract =>
        if announces c b rf then
          if c.posdaoTransition ≤ b.number then
            (afterPreExecution c b rf).addPendingTransition b.number contract
          else (afterPreExecution c b rf).setImmediateFinalize (b.number + 1) contract
        else afterPreExecution c b rf := by
  unfold afterRecord recordInitiateChange
  rw [blockContext_contract, blockContext_posdao]
  rfl

theorem announces_contract (h : announces c b rf = true) :
    ∃ contract, c.validators.contractAddressAt b.number = some contract := by
  rw [announces_eq] at h
  cases hc : c.validators.contractAddressAt b.number with
  | none => simp [hc] at h
  | some contract => exact ⟨contract, rfl⟩

theorem afterRecord_of_not_announces (h : announces c b rf = false) :
    afterRecord c b rf = afterPreExecution c b rf := by
  rw [afterRecord_eq, h]
  cases c.validators.contractAddressAt b.number <;> rfl

theorem afterRecord_of_announces {contract : Address} (h : announces c b rf = true)
    (hc : c.validators.contractAddressAt b.number = some contract) :
    afterRecord c b rf =
      if c.posdaoTransition ≤ b.number then
        (afterPreExecution c b rf).addPendingTransition b.number contract
      else (afterPreExecution c b rf).setImmediateFinalize (b.number + 1) contract := by
  rw [afterRecord_eq, hc, h]
  rfl

theorem afterRecord_frame (c : AuraConfig) (b : AuraBlock) (rf : RollingFinality) :
    (afterRecord c b rf).headers = (afterPreExecution c b rf).headers ∧
      (afterRecord c b rf).validators = (afterPreExecution c b rf).validators ∧
      (afterRecord c b rf).validatorsSealed = (afterPreExecution c b rf).validatorsSealed := by
  rw [afterRecord_eq]
  cases c.validators.contractAddressAt b.number with
  | none => exact ⟨rfl, rfl, rfl⟩
  | some contract =>
    simp only
    split_ifs <;> exact ⟨rfl, rfl, rfl⟩

theorem WindowInv.afterRecord (h : WindowInv rf) : WindowInv (afterRecord c b rf) := by
  have hp := WindowInv.afterPreExecution (c := c) (b := b) h
  rw [afterRecord_eq]
  cases c.validators.contractAddressAt b.number with
  | none => exact hp
  | some contract =>
    simp only
    split_ifs
    · exact hp.addPendingTransition _ _
    · exact hp.setImmediateFinalize _ _
    · exact hp

theorem liveBlock_eq (c : AuraConfig) (b : AuraBlock) (rf : RollingFinality) :
    liveBlock c b rf =
      if c.posdaoTransition ≤ b.number then ((afterRecord c b rf).push b.number b.beneficiary).2
      else afterRecord c b rf := by
  unfold liveBlock finishTracker pushSigner
  rw [blockContext_posdao]
  rfl

theorem WindowInv.liveBlock (h : WindowInv rf) : WindowInv (liveBlock c b rf) := by
  rw [liveBlock_eq]
  split_ifs
  · exact (WindowInv.afterRecord h).push _ _
  · exact WindowInv.afterRecord h

end Step

/-- Everything the tracker holds is about blocks below `n`. -/
structure Before (n : ℕ) (rf : RollingFinality) : Prop where
  pending : ∀ k a, rf.pendingTransitions[k]? = some a → k < n
  headers : ∀ e ∈ rf.headers, e.1 < n
  slot : ∀ t a, rf.finalizeChangeAt = some (t, a) → t ≤ n

theorem before_new (n : ℕ) (validators : List Address) : Before n (new validators) := by
  refine ⟨?_, ?_, ?_⟩ <;> simp [new]

theorem Before.dueSlot {n : ℕ} {rf : RollingFinality} (h : Before n rf) :
    dueSlot rf n = rf.finalizeChangeAt := by
  unfold RethGnosis.dueSlot
  cases hs : rf.finalizeChangeAt with
  | none => rfl
  | some slot => simp [h.slot slot.1 slot.2 hs]

theorem Before.succ {n : ℕ} {rf : RollingFinality} (h : Before n rf) : Before (n + 1) rf := by
  refine ⟨?_, ?_, ?_⟩
  · intro k a hk
    exact Nat.lt_succ_of_lt (h.pending k a hk)
  · intro e he
    exact Nat.lt_succ_of_lt (h.headers e he)
  · intro t a ht
    exact Nat.le_succ_of_le (h.slot t a ht)

section Before
variable {c : AuraConfig} {b : AuraBlock} {rf : RollingFinality}

theorem Before.afterPreExecution (hb : Before b.number rf) (h : WindowInv rf) :
    Before b.number (afterPreExecution c b rf) := by
  refine ⟨?_, ?_, ?_⟩
  · intro k a hk
    rw [afterPreExecution_pending] at hk
    exact hb.pending k a hk
  · intro e he
    by_cases hp : c.posdaoTransition ≤ b.number
    · rw [afterPreExecution_headers h hp] at he
      split_ifs at he
      · simp at he
      · exact hb.headers e he
    · rw [afterPreExecution_of_lt (by omega), afterContext_eq] at he
      split_ifs at he
      · simp at he
      · exact hb.headers e he
  · intro t a ht
    rw [afterPreExecution_slot] at ht
    split_ifs at ht
    exact hb.slot t a ht

theorem Before.addPendingTransition {n : ℕ} (h : Before n rf) (contract : Address) :
    Before (n + 1) (rf.addPendingTransition n contract) := by
  refine ⟨?_, h.succ.headers, h.succ.slot⟩
  intro k a hk
  simp only [RollingFinality.addPendingTransition, Std.ExtTreeMap.getElem?_insert,
    Nat.compare_eq_eq] at hk
  split_ifs at hk
  · omega
  · exact h.succ.pending k a hk

theorem Before.setImmediateFinalize {n : ℕ} (h : Before n rf) (contract : Address) :
    Before (n + 1) (rf.setImmediateFinalize (n + 1) contract) := by
  refine ⟨h.succ.pending, h.succ.headers, ?_⟩
  intro t a ht
  simp only [RollingFinality.setImmediateFinalize, Option.some.injEq, Prod.mk.injEq] at ht
  omega

theorem Before.afterRecord (hb : Before b.number rf) (h : WindowInv rf) :
    Before (b.number + 1) (afterRecord c b rf) := by
  have hpre := Before.afterPreExecution (c := c) hb h
  rw [afterRecord_eq]
  cases c.validators.contractAddressAt b.number with
  | none => exact hpre.succ
  | some contract =>
    simp only
    split_ifs
    · exact hpre.addPendingTransition contract
    · exact hpre.setImmediateFinalize contract
    · exact hpre.succ

theorem Before.push {n : ℕ} (hb : Before (n + 1) rf) (h : WindowInv rf) (signer : Address) :
    Before (n + 1) (rf.push n signer).2 := by
  by_cases hc : rf.counts signer = true
  · refine ⟨?_, ?_, ?_⟩
    · intro k a hk
      rw [push_pending h n hc] at hk
      split_ifs at hk
      exact hb.pending k a hk
    · intro e he
      have he' : e ∈ rf.headers ++ [(n, signer)] := by
        rw [← popped_append_headers h n hc]
        exact List.mem_append_right _ he
      rw [List.mem_append, List.mem_singleton] at he'
      rcases he' with he' | rfl
      · exact hb.headers e he'
      · exact Nat.lt_succ_self n
    · intro t a ht
      rw [push_finalizeChangeAt h n hc] at ht
      rcases Option.or_eq_some_iff.mp ht with hdue | ⟨-, hold⟩
      · rw [Option.map_eq_some_iff] at hdue
        obtain ⟨d, -, hd⟩ := hdue
        simp only [Prod.mk.injEq] at hd
        omega
      · exact hb.slot t a hold
  · rw [push_of_not_counts (by simpa using hc)]
    exact hb

theorem Before.liveBlock (hb : Before b.number rf) (h : WindowInv rf) :
    Before (b.number + 1) (liveBlock c b rf) := by
  have hrecord := Before.afterRecord (c := c) hb h
  rw [liveBlock_eq]
  split_ifs
  · exact hrecord.push (WindowInv.afterRecord h) b.beneficiary
  · exact hrecord

end Before

end RethGnosis
