import RethGnosis.Aura.LiveRun

set_option autoImplicit false

/-!
# Whose validator list a block is pushed against

The list is asked for when it is empty and after a `finalizeChange()`, and each time of
one contract. A run is recorded with these calls, and the block's signer is compared
with the last answer of the contract that is active at the block.
-/
namespace RethGnosis
open RollingFinality

section Calls
variable (c : AuraConfig) (b : AuraBlock) (rf : RollingFinality)

/-- The `getValidators()` call on an empty list: the contract asked and its answer. -/
def initialCall : List (Address × List Address) :=
  if needsInit (blockContext c b rf) b.number (afterContext c b rf) then
    (blockContext c b rf).validatorContract.toList.map (fun contract =>
      (contract, b.initialValidators))
  else []

/-- The `getValidators()` call after a POSDAO `finalizeChange()`, on the contract it called. -/
def refreshCall : List (Address × List Address) :=
  if c.posdaoTransition ≤ b.number then
    (finalizeChangeAddress c b rf).toList.map (fun contract => (contract, b.refreshedValidators))
  else []

def validatorCalls : List (Address × List Address) := initialCall c b rf ++ refreshCall c b rf

end Calls

def lastReturned (calls : List (Address × List Address)) (contract : Address) :
    Option (List Address) :=
  ((calls.filter (fun call => call.1 == contract)).getLast?).map Prod.snd

theorem lastReturned_append_single (calls : List (Address × List Address)) (contract : Address)
    (validators : List Address) :
    lastReturned (calls ++ [(contract, validators)]) contract = some validators := by
  simp [lastReturned, List.filter_append]

structure CallRecord where
  tracker : RollingFinality
  calls : List (Address × List Address)

def recordBlock (c : AuraConfig) (b : AuraBlock) (r : CallRecord) : CallRecord where
  tracker := liveBlock c b r.tracker
  calls := r.calls ++ validatorCalls c b r.tracker

def recorded (c : AuraConfig) (bs : List AuraBlock) (rf : RollingFinality) :
    List (AuraBlock × CallRecord) :=
  Run.visits (recordBlock c) bs ⟨rf, []⟩

theorem recorded_tracker (c : AuraConfig) (bs : List AuraBlock) (rf : RollingFinality) :
    (recorded c bs rf).map (Prod.map id CallRecord.tracker) = executed c bs rf :=
  Run.visits_map CallRecord.tracker (fun _ _ => rfl) bs ⟨rf, []⟩

def ContractSince (vs : ValidatorSet) (n : ℕ) : Prop :=
  ∀ k ≤ n, n ≤ k + 2 → (vs.contractAddressAt k).isSome = true

/-- `finish` pushes the signer against a sealed list, the last one the contract active at
the block returned. -/
def PushedAgainstActive (c : AuraConfig) (b : AuraBlock) (r : CallRecord) : Prop :=
  ∃ contract, c.validators.contractAddressAt b.number = some contract ∧
    (afterRecord c b r.tracker).validatorsSealed = true ∧
    lastReturned (r.calls ++ validatorCalls c b r.tracker) contract =
      some (afterRecord c b r.tracker).validators

/-- What a POSDAO block must meet where its parent had a contract too: a scheduled call it
makes names the contract now active, and without a call that contract is the parent's or
the list is still empty. -/
structure AsksActive (c : AuraConfig) (b : AuraBlock) (rf : RollingFinality) : Prop where
  scheduled : c.posdaoTransition ≤ b.number → ∀ contract parent,
    c.validators.contractAddressAt b.number = some contract →
    c.validators.contractAddressAt (b.number - 1) = some parent →
    ∀ slot, consumedSlot c b rf = some slot → slot.2 = contract
  unchanged : c.posdaoTransition ≤ b.number → ∀ contract parent,
    c.validators.contractAddressAt b.number = some contract →
    c.validators.contractAddressAt (b.number - 1) = some parent →
    callsFinalizeChange c b rf = false → rf.validators ≠ [] → parent = contract

theorem boundary_active {vs : ValidatorSet} {n : ℕ} {contract : Address}
    (h : computeFinalizeChangeAddressFromValidators vs n = some contract) :
    vs.contractAddressAt n = some contract := by
  cases n with
  | zero => exact h
  | succ n => exact (boundary_succ h).1

theorem boundary_of_list {vs : ValidatorSet} {n : ℕ} {contract : Address} (hn : 2 ≤ n)
    (h : vs.contractAddressAt n = some contract)
    (hparent : vs.contractAddressAt (n - 1) = some contract)
    (hlist : vs.contractAddressAt (n - 2) = none) :
    computeFinalizeChangeAddressFromValidators vs n = some contract := by
  unfold computeFinalizeChangeAddressFromValidators
  rw [if_neg (by omega)]
  simp [h, hparent, hlist, hn]

section Step
variable {c : AuraConfig} {b : AuraBlock} {r : CallRecord}

theorem afterRecord_list (hp : c.posdaoTransition ≤ b.number) (rf : RollingFinality) :
    ((afterRecord c b rf).validators, (afterRecord c b rf).validatorsSealed) =
      listInForce c b rf := by
  obtain ⟨-, hvalidators, hsealed⟩ := afterRecord_frame c b rf
  rw [hvalidators, hsealed]
  exact afterPreExecution_list hp

theorem pushedAgainstActive_of_calls (hp : c.posdaoTransition ≤ b.number) {contract : Address}
    (hcontract : c.validators.contractAddressAt b.number = some contract)
    (haddress : finalizeChangeAddress c b r.tracker = some contract) :
    PushedAgainstActive c b r := by
  have hcalls : callsFinalizeChange c b r.tracker = true := by
    rw [← finalizeChangeAddress_isSome, haddress]
    rfl
  have hlist := @afterRecord_list c b hp r.tracker
  rw [listInForce, if_pos hcalls, Prod.mk.injEq] at hlist
  obtain ⟨hvalidators, hsealed⟩ := hlist
  have hrefresh : refreshCall c b r.tracker = [(contract, b.refreshedValidators)] := by
    rw [refreshCall, if_pos hp, haddress]
    rfl
  refine ⟨contract, hcontract, hsealed, ?_⟩
  rw [validatorCalls, hrefresh, ← List.append_assoc, lastReturned_append_single, hvalidators]

theorem refreshCall_of_quiet {rf : RollingFinality} (hquiet : callsFinalizeChange c b rf = false) :
    refreshCall c b rf = [] := by
  have haddress : finalizeChangeAddress c b rf = none := by
    rw [← Option.not_isSome_iff_eq_none, finalizeChangeAddress_isSome, hquiet]
    exact Bool.false_ne_true
  rw [refreshCall, haddress]
  split_ifs <;> rfl

theorem needsInit_of_quiet {rf : RollingFinality} (hp : c.posdaoTransition ≤ b.number)
    (hquiet : callsFinalizeChange c b rf = false) {contract : Address}
    (hcontract : c.validators.contractAddressAt b.number = some contract) :
    needsInit (blockContext c b rf) b.number (afterContext c b rf) =
      decide (rf.validators = []) := by
  rw [afterContext_of_quiet hquiet, needsInit, blockContext_posdao, blockContext_contract,
    hcontract, validatorCount]
  cases rf.validators <;> simp [hp]

theorem pushedAgainstActive_of_empty (hp : c.posdaoTransition ≤ b.number)
    (hquiet : callsFinalizeChange c b r.tracker = false) {contract : Address}
    (hcontract : c.validators.contractAddressAt b.number = some contract)
    (hempty : r.tracker.validators = []) : PushedAgainstActive c b r := by
  have hlist := @afterRecord_list c b hp r.tracker
  rw [listInForce, if_neg (by simp [hquiet]), if_pos ⟨hempty, by simp [hcontract]⟩,
    Prod.mk.injEq] at hlist
  obtain ⟨hvalidators, hsealed⟩ := hlist
  have hinit : initialCall c b r.tracker = [(contract, b.initialValidators)] := by
    rw [initialCall, needsInit_of_quiet hp hquiet hcontract, blockContext_contract, hcontract]
    simp [hempty]
  refine ⟨contract, hcontract, hsealed, ?_⟩
  rw [validatorCalls, hinit, refreshCall_of_quiet hquiet, List.append_nil,
    lastReturned_append_single, hvalidators]

theorem pushedAgainstActive_of_kept (hp : c.posdaoTransition ≤ b.number)
    (hquiet : callsFinalizeChange c b r.tracker = false) {contract : Address}
    (hcontract : c.validators.contractAddressAt b.number = some contract)
    (hlist : r.tracker.validators ≠ []) (hsealed : r.tracker.validatorsSealed = true)
    (hlast : lastReturned r.calls contract = some r.tracker.validators) :
    PushedAgainstActive c b r := by
  have hkept := @afterRecord_list c b hp r.tracker
  rw [listInForce, if_neg (by simp [hquiet]), if_neg (fun h => hlist h.1), Prod.mk.injEq] at hkept
  obtain ⟨hvalidators, hkeepsSealed⟩ := hkept
  have hinit : initialCall c b r.tracker = [] := by
    rw [initialCall, needsInit_of_quiet hp hquiet hcontract]
    simp [hlist]
  refine ⟨contract, hcontract, hkeepsSealed.trans hsealed, ?_⟩
  rw [validatorCalls, hinit, refreshCall_of_quiet hquiet, List.append_nil, List.append_nil, hlast,
    hvalidators]

end Step

/-- Between blocks, `n` the next one: the list is empty, or the last answer of the contract of
block `n - 1` if that block's parent had a contract too. -/
structure FromActive (c : AuraConfig) (n : ℕ) (r : CallRecord) : Prop where
  window : WindowInv r.tracker
  early : n ≤ c.posdaoTransition → r.tracker.validators = []
  active : r.tracker.validators ≠ [] → ∀ contract,
    c.validators.contractAddressAt (n - 1) = some contract →
    (c.validators.contractAddressAt (n - 2)).isSome = true →
    r.tracker.validatorsSealed = true ∧ lastReturned r.calls contract = some r.tracker.validators

theorem fromActive_recovered (c : AuraConfig) (n : ℕ) (pending : BTreeMap ℕ Address)
    (slot : Option (ℕ × Address)) : FromActive c n ⟨fromRecovered pending slot, []⟩ := by
  refine ⟨windowInv_fromRecovered pending slot, fun _ => rfl, ?_⟩
  intro hlist
  exact absurd rfl hlist

section Run
variable {c : AuraConfig} {b : AuraBlock} {r : CallRecord}

theorem FromActive.pushedAgainstActive (h : FromActive c b.number r)
    (hasks : AsksActive c b r.tracker) (hp : c.posdaoTransition ≤ b.number)
    {contract parent : Address}
    (hcontract : c.validators.contractAddressAt b.number = some contract)
    (hparent : c.validators.contractAddressAt (b.number - 1) = some parent) :
    PushedAgainstActive c b r := by
  cases hcalls : callsFinalizeChange c b r.tracker with
  | true =>
    refine pushedAgainstActive_of_calls hp hcontract ?_
    rw [finalizeChangeAddress_eq]
    cases hboundary : boundaryCall c b with
    | some target =>
      have hactive := boundary_active hboundary
      rw [hcontract, Option.some.injEq] at hactive
      rw [Option.some_or, hactive]
    | none =>
      cases hslot : consumedSlot c b r.tracker with
      | some slot =>
        have htarget := hasks.scheduled hp contract parent hcontract hparent slot hslot
        rw [Option.none_or, Option.map_some, htarget]
      | none =>
        have hsome := finalizeChangeAddress_isSome c b r.tracker
        rw [finalizeChangeAddress_eq, hboundary, hslot, hcalls] at hsome
        contradiction
  | false =>
    by_cases hempty : r.tracker.validators = []
    · exact pushedAgainstActive_of_empty hp hcalls hcontract hempty
    · have hsame := hasks.unchanged hp contract parent hcontract hparent hcalls hempty
      subst hsame
      cases hgrandparent : c.validators.contractAddressAt (b.number - 2) with
      | some grandparent =>
        obtain ⟨hsealed, hlast⟩ := h.active hempty parent hparent (by rw [hgrandparent]; rfl)
        exact pushedAgainstActive_of_kept hp hcalls hcontract hempty hsealed hlast
      | none =>
        -- the contract's second block would have been a boundary block
        have htwo : 2 ≤ b.number := by
          by_contra hlt
          rw [show b.number - 2 = b.number - 1 by omega, hparent] at hgrandparent
          contradiction
        have hboundary := boundary_of_list htwo hcontract hparent hgrandparent
        rw [callsFinalizeChange, boundaryCall, hboundary] at hcalls
        contradiction

theorem liveBlock_list_of_sealed (hw : WindowInv r.tracker)
    (hsealed : (afterRecord c b r.tracker).validatorsSealed = true) :
    (liveBlock c b r.tracker).validators = (afterRecord c b r.tracker).validators ∧
      (liveBlock c b r.tracker).validatorsSealed = true := by
  have hrecord : WindowInv (afterRecord c b r.tracker) := WindowInv.afterRecord hw
  rw [liveBlock_eq]
  split_ifs
  · rw [push_validators hrecord, push_sealed hrecord]
    refine ⟨?_, hsealed⟩
    split_ifs with hcounts
    · refine discover_of_mem ?_
      simpa [counts, hsealed] using hcounts
    · rfl
  · exact ⟨rfl, hsealed⟩

theorem liveBlock_list_of_lt (hp : b.number < c.posdaoTransition) (rf : RollingFinality) :
    (liveBlock c b rf).validators = rf.validators := by
  rw [liveBlock_eq, if_neg (by omega), (afterRecord_frame c b rf).2.1, afterPreExecution_of_lt hp,
    afterContext_eq]
  split_ifs <;> rfl

theorem FromActive.recordBlock (h : FromActive c b.number r) (hasks : AsksActive c b r.tracker) :
    FromActive c (b.number + 1) (recordBlock c b r) := by
  refine ⟨WindowInv.liveBlock h.window, ?_, ?_⟩
  · intro hearly
    rw [RethGnosis.recordBlock, liveBlock_list_of_lt (by omega)]
    exact h.early (by omega)
  · intro hlist contract hcontract hparent
    rw [Nat.add_sub_cancel] at hcontract
    rw [show b.number + 1 - 2 = b.number - 1 by omega, Option.isSome_iff_exists] at hparent
    obtain ⟨parent, hparent⟩ := hparent
    have hp : c.posdaoTransition ≤ b.number := by
      by_contra hlt
      rw [RethGnosis.recordBlock, liveBlock_list_of_lt (by omega)] at hlist
      exact hlist (h.early (by omega))
    obtain ⟨active, hactive, hsealed, hlast⟩ := h.pushedAgainstActive hasks hp hcontract hparent
    rw [hcontract, Option.some.injEq] at hactive
    subst hactive
    obtain ⟨hvalidators, hkept⟩ := liveBlock_list_of_sealed h.window hsealed
    refine ⟨hkept, ?_⟩
    rw [RethGnosis.recordBlock, hvalidators]
    exact hlast

end Run

def Asking (c : AuraConfig) (bs : List AuraBlock) (r : CallRecord) : Prop :=
  ∃ n, Consecutive n bs ∧ FromActive c n r ∧
    ∀ v ∈ Run.visits (recordBlock c) bs r, AsksActive c v.1 v.2.tracker

theorem Asking.next {c : AuraConfig} {b : AuraBlock} {rest : List AuraBlock} {r : CallRecord}
    (h : Asking c (b :: rest) r) : Asking c rest (recordBlock c b r) := by
  obtain ⟨n, ⟨hn, hrest⟩, hr, hasks⟩ := h
  subst hn
  rw [Run.visits, List.forall_mem_cons] at hasks
  exact ⟨b.number + 1, hrest, hr.recordBlock hasks.1, hasks.2⟩

theorem Asking.head {c : AuraConfig} {b : AuraBlock} {rest : List AuraBlock} {r : CallRecord}
    (h : Asking c (b :: rest) r) : FromActive c b.number r ∧ AsksActive c b r.tracker := by
  obtain ⟨n, ⟨hn, -⟩, hr, hasks⟩ := h
  rw [Run.visits, List.forall_mem_cons] at hasks
  rw [hn]
  exact ⟨hr, hasks.1⟩

/-- Where every block asks its active contract, each block whose parent had a contract too is
pushed against that contract's last answer. -/
theorem pushedAgainstActive_of_asks {c : AuraConfig} {bs : List AuraBlock} {n : ℕ}
    {pending : BTreeMap ℕ Address} {slot : Option (ℕ × Address)} (hbs : Consecutive n bs)
    (hasks : ∀ v ∈ executed c bs (fromRecovered pending slot), AsksActive c v.1 v.2)
    {v : AuraBlock × CallRecord} (hv : v ∈ recorded c bs (fromRecovered pending slot))
    (hp : c.posdaoTransition ≤ v.1.number) {contract parent : Address}
    (hcontract : c.validators.contractAddressAt v.1.number = some contract)
    (hparent : c.validators.contractAddressAt (v.1.number - 1) = some parent) :
    PushedAgainstActive c v.1 v.2 := by
  have hall : ∀ u ∈ recorded c bs (fromRecovered pending slot),
      AsksActive c u.1 u.2.tracker := by
    intro u hu
    refine hasks (u.1, u.2.tracker) ?_
    rw [← recorded_tracker]
    exact List.mem_map_of_mem hu
  have hstart : Asking c bs ⟨fromRecovered pending slot, []⟩ :=
    ⟨n, hbs, fromActive_recovered c n pending slot, hall⟩
  obtain ⟨rest, hrest⟩ := (Run.invariant_remaining (fun _ _ _ => Asking.next) hstart).2 v hv
  obtain ⟨hactive, hblock⟩ := hrest.head
  exact hactive.pushedAgainstActive hblock hp hcontract hparent

structure NamesOnly (contract : Address) (rf : RollingFinality) : Prop where
  pending : ∀ (k : ℕ) (a : Address), rf.pendingTransitions[k]? = some a → a = contract
  slot : ∀ s, rf.finalizeChangeAt = some s → s.2 = contract

section OneContract
variable {c : AuraConfig} {b : AuraBlock} {rf : RollingFinality} {contract : Address}
  (hone : ∀ n a, c.validators.contractAddressAt n = some a → a = contract)
include hone

theorem NamesOnly.afterRecord (h : NamesOnly contract rf) :
    NamesOnly contract (afterRecord c b rf) := by
  have hpre : NamesOnly contract (afterPreExecution c b rf) := by
    refine ⟨?_, ?_⟩
    · rw [afterPreExecution_pending]
      exact h.pending
    · intro s hs
      rw [afterPreExecution_slot] at hs
      split_ifs at hs
      exact h.slot s hs
  rw [afterRecord_eq]
  cases hc : c.validators.contractAddressAt b.number with
  | none => exact hpre
  | some active =>
    have hactive := hone b.number active hc
    simp only
    split_ifs
    · refine ⟨?_, hpre.slot⟩
      intro k a hk
      simp only [addPendingTransition, Std.ExtTreeMap.getElem?_insert] at hk
      split_ifs at hk
      · rw [Option.some.injEq] at hk
        exact hk.symm.trans hactive
      · exact hpre.pending k a hk
    · refine ⟨hpre.pending, ?_⟩
      intro s hs
      rw [setImmediateFinalize, Option.some.injEq] at hs
      rw [← hs]
      exact hactive
    · exact hpre

omit hone in
theorem NamesOnly.push (h : NamesOnly contract rf) (hw : WindowInv rf) (n : ℕ) (signer : Address) :
    NamesOnly contract (rf.push n signer).2 := by
  by_cases hcounts : rf.counts signer = true
  · refine ⟨?_, ?_⟩
    · intro k a hk
      rw [push_pending hw n hcounts] at hk
      split_ifs at hk
      exact h.pending k a hk
    · intro s hs
      rw [push_finalizeChangeAt hw n hcounts] at hs
      rcases Option.or_eq_some_iff.mp hs with hdue | ⟨-, hold⟩
      · rw [Option.map_eq_some_iff] at hdue
        obtain ⟨due, hdue, rfl⟩ := hdue
        obtain ⟨k, -, hk⟩ := mem_transitionsDue.mp (List.mem_of_getLast? hdue)
        exact h.pending k due hk
      · exact h.slot s hold
  · rw [push_of_not_counts (by simpa using hcounts)]
    exact h

theorem NamesOnly.liveBlock (h : NamesOnly contract rf) (hw : WindowInv rf) :
    NamesOnly contract (liveBlock c b rf) := by
  rw [liveBlock_eq]
  split_ifs
  · exact (h.afterRecord hone).push (WindowInv.afterRecord hw) b.number b.beneficiary
  · exact h.afterRecord hone

theorem NamesOnly.asksActive (h : NamesOnly contract rf) : AsksActive c b rf := by
  refine ⟨?_, ?_⟩
  · intro _ active _ hactive _ slot hslot
    rw [hone b.number active hactive]
    refine h.slot slot ?_
    rw [consumedSlot] at hslot
    split_ifs at hslot
    exact dueSlot_some hslot
  · intro _ active parent hactive hparent _ _
    rw [hone b.number active hactive, hone (b.number - 1) parent hparent]

theorem asksActive_of_oneContract (bs : List AuraBlock) (h : NamesOnly contract rf)
    (hw : WindowInv rf) : ∀ v ∈ executed c bs rf, AsksActive c v.1 v.2 := by
  have hall := (@Run.invariant _ _ (RethGnosis.liveBlock c)
    (fun s => NamesOnly contract s ∧ WindowInv s)
    (fun _ _ hs => ⟨hs.1.liveBlock hone hs.2, WindowInv.liveBlock hs.2⟩) bs rf ⟨h, hw⟩).2
  intro v hv
  exact (hall v hv).1.asksActive hone

end OneContract

theorem contractFrom_names (start posdaoTransition : ℕ) (contract : Address) (n : ℕ) (a : Address)
    (h : (contractFrom start contract posdaoTransition).validators.contractAddressAt n = some a) :
    a = contract := by
  cases hkind : (contractFrom start contract posdaoTransition).validators.kindAt n with
  | none => simp [ValidatorSet.contractAddressAt, hkind] at h
  | some kind =>
    cases kind with
    | list validators => simp [ValidatorSet.contractAddressAt, hkind] at h
    | contract active =>
      simp only [ValidatorSet.contractAddressAt, hkind, Option.some.injEq] at h
      rw [← h]
      rw [ValidatorSet.kindAt, Option.map_eq_some_iff] at hkind
      obtain ⟨entry, hentry, hactive⟩ := hkind
      have hmem := (List.mem_filter.mp (List.mem_of_getLast? hentry)).1
      obtain ⟨k, kind⟩ := entry
      simp only at hactive
      subst hactive
      rw [Std.ExtTreeMap.mem_toList_iff_getElem?_eq_some] at hmem
      simp only [contractFrom, Std.ExtTreeMap.getElem?_insert] at hmem
      split_ifs at hmem <;> simp_all

theorem active_list_of_asks (c : AuraConfig) (bs : List AuraBlock) (n : ℕ)
    (pending : BTreeMap ℕ Address) (slot : Option (ℕ × Address)) (hbs : Consecutive n bs)
    (hasks : ∀ v ∈ executed c bs (fromRecovered pending slot), AsksActive c v.1 v.2) :
    ∀ v ∈ recorded c bs (fromRecovered pending slot), c.posdaoTransition ≤ v.1.number →
      ContractSince c.validators v.1.number → PushedAgainstActive c v.1 v.2 := by
  intro v hv hp hsince
  have hcontract := hsince v.1.number le_rfl (by omega)
  have hparent := hsince (v.1.number - 1) (by omega) (by omega)
  rw [Option.isSome_iff_exists] at hcontract hparent
  obtain ⟨contract, hcontract⟩ := hcontract
  obtain ⟨parent, hparent⟩ := hparent
  exact pushedAgainstActive_of_asks hbs hasks hv hp hcontract hparent

def answeringBlock (number : ℕ) (signer : Address) : AuraBlock where
  number := number
  beneficiary := signer
  receipts := []
  rewardLogs := []
  initialValidators := [1#160, 2#160, 3#160]
  refreshedValidators := [1#160, 2#160, 3#160]

theorem active_list_three_blocks :
    ∃ v ∈ recorded (contractFrom 0 9#160 0)
        [answeringBlock 1 1#160, answeringBlock 2 2#160, answeringBlock 3 3#160] (new []),
      v.1.number = 3 ∧ PushedAgainstActive (contractFrom 0 9#160 0) v.1 v.2 := by
  have hone := contractFrom_names 0 0 9#160
  have hnames : NamesOnly 9#160 (fromRecovered ∅ none) := by
    refine ⟨?_, ?_⟩ <;> simp [fromRecovered]
  have hbs : Consecutive 1
      [answeringBlock 1 1#160, answeringBlock 2 2#160, answeringBlock 3 3#160] := by
    simp [Consecutive, answeringBlock]
  have hasks := @asksActive_of_oneContract (contractFrom 0 9#160 0) (fromRecovered ∅ none) 9#160
    hone [answeringBlock 1 1#160, answeringBlock 2 2#160, answeringBlock 3 3#160] hnames
    (windowInv_fromRecovered ∅ none)
  have hall := active_list_of_asks (contractFrom 0 9#160 0) _ 1 ∅ none hbs hasks
  have hmem : (answeringBlock 3 3#160, Run.run (recordBlock (contractFrom 0 9#160 0))
      [answeringBlock 1 1#160, answeringBlock 2 2#160] ⟨new [], []⟩) ∈
      recorded (contractFrom 0 9#160 0)
        [answeringBlock 1 1#160, answeringBlock 2 2#160, answeringBlock 3 3#160] (new []) := by
    simp [recorded, Run.visits, Run.run]
  exact ⟨_, hmem, rfl, hall _ hmem (Nat.zero_le _) (by unfold ContractSince; decide +kernel)⟩

def contractChange : AuraConfig where
  stepDuration := 5
  validators :=
    { sets := (∅ : BTreeMap ℕ ValidatorSetKind).insert 0 (.list []) |>.insert 1 (.contract 9#160)
        |>.insert 4 (.contract 10#160)
      nonempty := by simp }
  blockRewardContractTransitions := ∅
  posdaoTransition := 0
  rewriteBytecode := ∅

def changeBlocks : List AuraBlock :=
  [answeringBlock 1 1#160, answeringBlock 2 1#160, answeringBlock 3 1#160,
    answeringBlock 4 1#160, answeringBlock 5 1#160]

/-- At block 6 contract 10 has been active for three blocks and was never asked. -/
theorem contractChange_keeps_old_list :
    let past := Run.run (recordBlock contractChange) changeBlocks ⟨new [], []⟩
    Consecutive 1 (changeBlocks ++ [answeringBlock 6 1#160]) ∧
      (answeringBlock 6 1#160, past) ∈
        recorded contractChange (changeBlocks ++ [answeringBlock 6 1#160]) (new []) ∧
      contractChange.posdaoTransition ≤ 6 ∧ ContractSince contractChange.validators 6 ∧
      (∀ k ∈ [4, 5, 6], contractChange.validators.contractAddressAt k = some 10#160) ∧
      ¬ PushedAgainstActive contractChange (answeringBlock 6 1#160) past := by
  refine ⟨?_, ?_, Nat.zero_le 6, by unfold ContractSince; decide +kernel, by decide +kernel, ?_⟩
  · simp [Consecutive, changeBlocks, answeringBlock]
  · rw [recorded, Run.visits_append]
    simp [Run.visits]
  · rintro ⟨contract, hcontract, -, hlast⟩
    have hactive : contractChange.validators.contractAddressAt 6 = some 10#160 := by
      decide +kernel
    rw [show (answeringBlock 6 1#160).number = 6 from rfl, hactive, Option.some.injEq] at hcontract
    subst hcontract
    have hnever : lastReturned
        ((Run.run (recordBlock contractChange) changeBlocks ⟨new [], []⟩).calls ++
          validatorCalls contractChange (answeringBlock 6 1#160)
            (Run.run (recordBlock contractChange) changeBlocks ⟨new [], []⟩).tracker) 10#160 =
        none := by
      decide +kernel
    rw [hnever] at hlast
    contradiction

end RethGnosis
