import RethGnosis.Aura.RecoveredState

set_option autoImplicit false

/-!
# Restarting at a head

The restarted node has the recovered transitions and call but no queue and no
validator list. If nothing is pending at the head the queue does not matter any
more, and the first block asks for the list again: from there on it makes the
same `finalizeChange()` calls as the node that was not restarted. A transition
that is still pending at the head has lost its queued block and is never called.
-/
namespace RethGnosis
open RollingFinality

def finalizeChangeAddresses (c : AuraConfig) (bs : List AuraBlock) (rf : RollingFinality) :
    List (Option Address) :=
  (executed c bs rf).map (fun v => finalizeChangeAddress c v.1 v.2)

/-- Live tracker and replay before block `n` of the lookback, when the live tracker calls
`finalizeChange()` only while nothing is pending. -/
structure Lagging (seen : ℕ → Bool) (contract : Address) (discovered : List Address) (n : ℕ)
    (live sim : RollingFinality) : Prop where
  betweenLive : Between n live
  betweenSim : Between n sim
  follows : Follows seen live sim
  contracts : ∀ (k : ℕ) (a : Address), live.pendingTransitions[k]? = some a → a = contract
  list : sim.validators = discovered
  listSealed : sim.validatorsSealed = true
  slot : sim.finalizeChangeAt = live.finalizeChangeAt ∨ sim.finalizeChangeAt = none

theorem liveBlock_contracts {c : AuraConfig} {b : AuraBlock} {live : RollingFinality}
    {contract : Address} (hw : WindowInv live) (hp : c.posdaoTransition ≤ b.number)
    (hcontract : c.validators.contractAddressAt b.number = some contract)
    (hall : ∀ (k : ℕ) (a : Address), live.pendingTransitions[k]? = some a → a = contract)
    (k : ℕ) (a : Address) (hk : (liveBlock c b live).pendingTransitions[k]? = some a) :
    a = contract := by
  rw [liveBlock_eq, if_pos hp, push_pending_reported (WindowInv.afterRecord hw)] at hk
  split_ifs at hk
  exact afterRecord_contracts hp hcontract hall k a hk

section Lookback
variable {seen : ℕ → Bool} {c : AuraConfig} {contract : Address} {discovered : List Address}
  {scanner : ChainScanner}

theorem Lagging.step {b : AuraBlock} {live sim : RollingFinality}
    (h : Lagging seen contract discovered b.number live sim) (hscan : Scanned scanner b)
    (hp : c.posdaoTransition ≤ b.number)
    (hcontract : c.validators.contractAddressAt b.number = some contract)
    (hseen : seen b.number = receiptsContainInitiateChange b.receipts contract)
    (hsigner : b.beneficiary ∈ discovered)
    (hidle : callsFinalizeChange c b live = true → live.pendingTransitions = ∅)
    (hsame : SameMajority c discovered.length b live) :
    Lagging seen contract discovered (b.number + 1) (liveBlock c b live)
        (replayBlock scanner contract c.posdaoTransition b.number sim) ∧
      (boundaryCall c b = none →
        (∀ k : ℕ, ((afterRecord c b live).pendingTransitions[k]?).isSome = true →
          seen k = true) →
        (replayBlock scanner contract c.posdaoTransition b.number sim).finalizeChangeAt =
          (liveBlock c b live).finalizeChangeAt) := by
  have hblock := h.follows.posdaoBlock hscan h.betweenLive h.betweenSim hp hcontract hseen h.list
    hsigner h.contracts
    (by
      intro hsome
      rcases h.slot with heq | hnone
      · simp [callsFinalizeChange, h.betweenLive.before.dueSlot, ← heq, hsome]
      · simp [hnone] at hsome)
    (fun hcall _ => h.follows.sim_none (hidle hcall)) (fun _ => hsame)
  have hlist := @replayBlock_list contract c.posdaoTransition b sim scanner hscan h.betweenSim
    h.listSealed
  refine ⟨⟨h.betweenLive.liveBlock, h.betweenSim.replayBlock hscan, hblock.1,
    liveBlock_contracts h.betweenLive.window hp hcontract h.contracts, ?_, hlist.2, ?_⟩, ?_⟩
  · rw [hlist.1, h.list]
  · exact hblock.2.imp_right And.left
  · intro hbound hall
    rcases hblock.2 with heq | ⟨hnone, hlive⟩
    · exact heq
    · rw [hnone, hlive hbound hall]

theorem Lagging.run {window : List AuraBlock} {n : ℕ} {live sim : RollingFinality}
    (h : Lagging seen contract discovered n live sim) (hbs : Consecutive n window)
    (hp : c.posdaoTransition ≤ n)
    (hblocks : ∀ b ∈ window, Scanned scanner b ∧
      c.validators.contractAddressAt b.number = some contract ∧
      seen b.number = receiptsContainInitiateChange b.receipts contract ∧
      b.beneficiary ∈ discovered)
    (hvisits : ∀ v ∈ executed c window live,
      (callsFinalizeChange c v.1 v.2 = true → v.2.pendingTransitions = ∅) ∧
        SameMajority c discovered.length v.1 v.2) :
    Lagging seen contract discovered (n + window.length) (runLive c window live)
      (Run.run (replayBlock scanner contract c.posdaoTransition)
        (window.map AuraBlock.number) sim) := by
  induction window generalizing n live sim with
  | nil => exact h
  | cons b rest ih =>
    obtain ⟨hn, hrest⟩ := hbs
    subst hn
    obtain ⟨hscan, hcontract, hseen, hsigner⟩ := hblocks b List.mem_cons_self
    have hfirst := hvisits (b, live) List.mem_cons_self
    have hstep := (h.step hscan hp hcontract hseen hsigner hfirst.1 hfirst.2).1
    rw [List.length_cons, show b.number + (rest.length + 1) = b.number + 1 + rest.length by omega]
    exact ih hstep hrest (by omega) (fun x hx => hblocks x (List.mem_cons_of_mem b hx))
      (fun v hv => hvisits v (List.mem_cons_of_mem _ hv))

/-- At the end of the window the replay holds the live tracker's call, unless the last block is
a boundary block or leaves a transition the replay cannot see. -/
theorem Lagging.runTo {mid : List AuraBlock} {last : AuraBlock} {n : ℕ}
    {live sim : RollingFinality} (h : Lagging seen contract discovered n live sim)
    (hbs : Consecutive n (mid ++ [last])) (hp : c.posdaoTransition ≤ n)
    (hblocks : ∀ b ∈ mid ++ [last], Scanned scanner b ∧
      c.validators.contractAddressAt b.number = some contract ∧
      seen b.number = receiptsContainInitiateChange b.receipts contract ∧
      b.beneficiary ∈ discovered)
    (hvisits : ∀ v ∈ executed c (mid ++ [last]) live,
      (callsFinalizeChange c v.1 v.2 = true → v.2.pendingTransitions = ∅) ∧
        SameMajority c discovered.length v.1 v.2) :
    Lagging seen contract discovered (last.number + 1) (runLive c (mid ++ [last]) live)
        (Run.run (replayBlock scanner contract c.posdaoTransition)
          ((mid ++ [last]).map AuraBlock.number) sim) ∧
      (boundaryCall c last = none →
        (∀ k : ℕ, ((afterRecord c last (runLive c mid live)).pendingTransitions[k]?).isSome = true →
          seen k = true) →
        (Run.run (replayBlock scanner contract c.posdaoTransition)
            ((mid ++ [last]).map AuraBlock.number) sim).finalizeChangeAt =
          (runLive c (mid ++ [last]) live).finalizeChangeAt) := by
  obtain ⟨hmid, hlast, -⟩ := Consecutive.append.mp hbs
  rw [executed_append_single] at hvisits
  have hrun := h.run hmid hp (fun b hb => hblocks b (List.mem_append_left _ hb))
    (fun v hv => hvisits v (List.mem_append_left _ hv))
  rw [← hlast] at hrun
  obtain ⟨hscan, hcontract, hseen, hsigner⟩ :=
    hblocks last (List.mem_append_right mid List.mem_cons_self)
  have hvisit := hvisits (last, runLive c mid live) (List.mem_append_right _ List.mem_cons_self)
  have hend : Run.run (replayBlock scanner contract c.posdaoTransition)
      ((mid ++ [last]).map AuraBlock.number) sim =
        replayBlock scanner contract c.posdaoTransition last.number
          (Run.run (replayBlock scanner contract c.posdaoTransition)
            (mid.map AuraBlock.number) sim) := by
    rw [List.map_append, Run.run_append]
    rfl
  rw [hend, runLive_append_single]
  exact hrun.step hscan (by omega) hcontract hseen hsigner hvisit.1 hvisit.2

end Lookback

/-- Two live trackers that go on alike: they differ in old queued blocks only. -/
structure Resumed (contract : Address) (n : ℕ) (live resumed : RollingFinality) : Prop where
  betweenLive : Between n live
  betweenResumed : Between n resumed
  follows : Follows (fun _ => true) live resumed
  contracts : ∀ (k : ℕ) (a : Address), live.pendingTransitions[k]? = some a → a = contract
  slot : resumed.finalizeChangeAt = live.finalizeChangeAt
  list : resumed.validators = live.validators
  listSealed : resumed.validatorsSealed = live.validatorsSealed

section Resumed
variable {c : AuraConfig} {contract : Address} {b : AuraBlock} {live resumed : RollingFinality}

theorem calls_eq_of_slot (hl : Between b.number live) (hr : Between b.number resumed)
    (hslot : resumed.finalizeChangeAt = live.finalizeChangeAt) :
    callsFinalizeChange c b resumed = callsFinalizeChange c b live := by
  simp only [callsFinalizeChange, hl.before.dueSlot, hr.before.dueSlot, hslot]

theorem afterPreExecution_slot_eq (hl : Between b.number live) (hr : Between b.number resumed)
    (hslot : resumed.finalizeChangeAt = live.finalizeChangeAt) :
    (afterPreExecution c b resumed).finalizeChangeAt =
      (afterPreExecution c b live).finalizeChangeAt := by
  rw [afterPreExecution_slot, afterPreExecution_slot, consumedSlot_eq hl.before,
    consumedSlot_eq hr.before, hslot]

theorem afterRecord_slot_eq (hp : c.posdaoTransition ≤ b.number)
    (hslot : (afterPreExecution c b resumed).finalizeChangeAt =
      (afterPreExecution c b live).finalizeChangeAt) :
    (afterRecord c b resumed).finalizeChangeAt = (afterRecord c b live).finalizeChangeAt := by
  rw [afterRecord_slot_posdao hp, afterRecord_slot_posdao hp, hslot]

theorem Follows.record_live_blocks (hl : Between b.number live) (hr : Between b.number resumed)
    (hp : c.posdaoTransition ≤ b.number)
    (h : Follows (fun _ => true) (afterPreExecution c b live) (afterPreExecution c b resumed)) :
    Follows (fun _ => true) (afterRecord c b live) (afterRecord c b resumed) := by
  rw [afterRecord_eq, afterRecord_eq, announces_iff, announces_iff]
  cases c.validators.contractAddressAt b.number with
  | none => exact h
  | some contract =>
    simp only [hp, ↓reduceIte]
    split_ifs
    · exact h.record_both rfl (hl.before.afterPreExecution hl.window).headers
        (hr.before.afterPreExecution hr.window).headers contract
    · exact h

theorem Resumed.of_pre (hl : Between b.number live) (hr : Between b.number resumed)
    (hp : c.posdaoTransition ≤ b.number)
    (hcontract : c.validators.contractAddressAt b.number = some contract)
    (hcontracts : ∀ (k : ℕ) (a : Address), live.pendingTransitions[k]? = some a → a = contract)
    (hslot : resumed.finalizeChangeAt = live.finalizeChangeAt)
    (hlist : listInForce c b resumed = listInForce c b live)
    (hpre : Follows (fun _ => true) (afterPreExecution c b live)
      (afterPreExecution c b resumed)) :
    Resumed contract (b.number + 1) (liveBlock c b live) (liveBlock c b resumed) := by
  have hmid := hpre.record_live_blocks hl hr hp
  have hwl := WindowInv.afterRecord (c := c) (b := b) hl.window
  have hwr := WindowInv.afterRecord (c := c) (b := b) hr.window
  have hlists : ((afterRecord c b resumed).validators, (afterRecord c b resumed).validatorsSealed) =
      ((afterRecord c b live).validators, (afterRecord c b live).validatorsSealed) := by
    have hfl := afterRecord_frame c b live
    have hfr := afterRecord_frame c b resumed
    rw [hfl.2.1, hfl.2.2, hfr.2.1, hfr.2.2, afterPreExecution_list hp, afterPreExecution_list hp,
      hlist]
  rw [Prod.mk.injEq] at hlists
  have hslotMid := afterRecord_slot_eq hp (afterPreExecution_slot_eq (c := c) hl hr hslot)
  have hcounts : (afterRecord c b resumed).counts b.beneficiary =
      (afterRecord c b live).counts b.beneficiary := by
    simp only [counts, hlists.1, hlists.2]
  have hdiscover : (afterRecord c b resumed).discover b.beneficiary =
      (afterRecord c b live).discover b.beneficiary := by
    simp only [discover, hlists.1]
  have hrecorded := afterRecord_contracts hp hcontract hcontracts
  have hpushed : (∀ k, ((afterRecord c b resumed).pendingTransitions[k]?).isSome = true →
        (k ∈ ((afterRecord c b live).push b.number b.beneficiary).1.map Prod.fst ↔
          k ∈ ((afterRecord c b resumed).push b.number b.beneficiary).1.map Prod.fst)) ∧
      Follows (fun _ => true) ((afterRecord c b live).push b.number b.beneficiary).2
        ((afterRecord c b resumed).push b.number b.beneficiary).2 := by
    by_cases hc : (afterRecord c b live).counts b.beneficiary = true
    · exact hmid.push_shared hwl hwr b.number ⟨hc, by rw [hcounts, hc], by rw [hdiscover]⟩
    · rw [Bool.not_eq_true] at hc
      rw [push_of_not_counts hc, push_of_not_counts (by rw [hcounts, hc])]
      exact ⟨fun k _ => Iff.rfl, hmid⟩
  refine ⟨hl.liveBlock, hr.liveBlock, ?_, liveBlock_contracts hl.window hp hcontract hcontracts,
    ?_, ?_, ?_⟩
  · rw [liveBlock_eq, liveBlock_eq, if_pos hp, if_pos hp]
    exact hpushed.2
  · rw [liveBlock_eq, liveBlock_eq, if_pos hp, if_pos hp, push_slot hwl, push_slot hwr, hslotMid]
    rcases hmid.due_cases hpushed.1 hrecorded with heq | ⟨hnone, hlive⟩
    · rw [heq]
    · rw [hnone, hlive (fun k _ => rfl)]
  · rw [liveBlock_eq, liveBlock_eq, if_pos hp, if_pos hp, push_validators hwl, push_validators hwr,
      hcounts, hdiscover, hlists.1]
  · rw [liveBlock_eq, liveBlock_eq, if_pos hp, if_pos hp, push_sealed hwl, push_sealed hwr,
      hlists.2]

theorem Follows.of_calls (h : Follows (fun _ => true) live resumed)
    (hl : Between b.number live) (hr : Between b.number resumed)
    (hp : c.posdaoTransition ≤ b.number) (hcl : callsFinalizeChange c b live = true)
    (hcr : callsFinalizeChange c b resumed = true) :
    Follows (fun _ => true) (afterPreExecution c b live) (afterPreExecution c b resumed) := by
  apply h.cleared (afterPreExecution_pending c b live) _ (afterPreExecution_pending c b resumed)
  · rw [afterPreExecution_headers hr.window hp, hcr]
    rfl
  · rw [afterPreExecution_headers hl.window hp, hcl]
    rfl

theorem Resumed.step (h : Resumed contract b.number live resumed)
    (hp : c.posdaoTransition ≤ b.number)
    (hcontract : c.validators.contractAddressAt b.number = some contract) :
    Resumed contract (b.number + 1) (liveBlock c b live) (liveBlock c b resumed) := by
  have hcalls := calls_eq_of_slot (c := c) h.betweenLive h.betweenResumed h.slot
  apply Resumed.of_pre h.betweenLive h.betweenResumed hp hcontract h.contracts h.slot
  · simp only [listInForce, hcalls, h.list, h.listSealed]
  · by_cases hc : callsFinalizeChange c b live = true
    · exact h.follows.of_calls h.betweenLive h.betweenResumed hp hc (by rw [hcalls, hc])
    · rw [Bool.not_eq_true] at hc
      apply h.follows.frame (afterPreExecution_pending c b live) _
        (afterPreExecution_pending c b resumed)
      · rw [afterPreExecution_headers h.betweenResumed.window hp, hcalls, hc]
        rfl
      · rw [afterPreExecution_headers h.betweenLive.window hp, hc]
        rfl

theorem Resumed.addresses {future : List AuraBlock} {n : ℕ}
    (h : Resumed contract n live resumed) (hbs : Consecutive n future)
    (hp : c.posdaoTransition ≤ n)
    (hcontract : ∀ b ∈ future, c.validators.contractAddressAt b.number = some contract) :
    finalizeChangeAddresses c future resumed = finalizeChangeAddresses c future live := by
  induction future generalizing n live resumed with
  | nil => rfl
  | cons b rest ih =>
    obtain ⟨hn, hrest⟩ := hbs
    subst hn
    have hstep := h.step hp (hcontract b List.mem_cons_self)
    have htail := ih hstep hrest (by omega) (fun x hx => hcontract x (List.mem_cons_of_mem b hx))
    have hhead : finalizeChangeAddress c b resumed = finalizeChangeAddress c b live := by
      rw [finalizeChangeAddress_before h.betweenResumed.before,
        finalizeChangeAddress_before h.betweenLive.before, h.slot]
    simp only [finalizeChangeAddresses, executed, Run.visits, List.map_cons] at htail ⊢
    rw [hhead, htail]

/-- The first block after a restart with nothing pending: the list is asked for again. -/
theorem Resumed.first {validators : List Address} {slot : Option (ℕ × Address)}
    (hl : Between b.number live) (hp : c.posdaoTransition ≤ b.number)
    (hcontract : c.validators.contractAddressAt b.number = some contract)
    (hidle : live.pendingTransitions = ∅) (hslot : slot = live.finalizeChangeAt)
    (hlist : (live.validators, live.validatorsSealed) = (validators, true))
    (hnext : callsFinalizeChange c b live = true ∨ b.initialValidators = validators) :
    Resumed contract (b.number + 1) (liveBlock c b live)
      (liveBlock c b (fromRecovered ∅ slot)) := by
  have hnone := (pending_eq_empty_iff _).mp hidle
  have hr : Between b.number (fromRecovered ∅ slot) := by
    refine ⟨windowInv_fromRecovered ∅ slot, ?_, ?_, ?_⟩
    · simp [fromRecovered]
    · simp [fromRecovered]
    · rw [hslot]
      exact hl.before.slot
  have hcalls : callsFinalizeChange c b (fromRecovered ∅ slot) = callsFinalizeChange c b live :=
    calls_eq_of_slot hl hr hslot
  have hfollows : Follows (fun _ => true) live (fromRecovered ∅ slot) := by
    apply Follows.of_no_pending
    · intro k _
      exact hnone k
    · intro k
      simp [fromRecovered]
  apply Resumed.of_pre hl hr hp hcontract _ hslot
  · rw [Prod.mk.injEq] at hlist
    simp only [listInForce, hcalls, hcontract, Option.isSome_some, and_true, hlist.1, hlist.2]
    by_cases hc : callsFinalizeChange c b live = true
    · rw [if_pos hc, if_pos hc]
    · rw [if_neg hc, if_neg hc, hnext.resolve_left hc]
      change (validators, true) = _
      split_ifs <;> rfl
  · by_cases hc : callsFinalizeChange c b live = true
    · exact hfollows.of_calls hl hr hp hc (by rw [hcalls, hc])
    · apply Follows.of_no_pending
      · intro k _
        rw [afterPreExecution_pending]
        exact hnone k
      · intro k
        rw [afterPreExecution_pending]
        simp [fromRecovered]
  · intro k a hk
    rw [hnone k] at hk
    contradiction

end Resumed

theorem liveBlock_list {c : AuraConfig} {b : AuraBlock} {live : RollingFinality}
    {validators : List Address} (hw : WindowInv live) (hp : c.posdaoTransition ≤ b.number)
    (hforce : listInForce c b live = (validators, true)) :
    ((liveBlock c b live).validators, (liveBlock c b live).validatorsSealed) =
      (validators, true) := by
  have hwr := WindowInv.afterRecord (c := c) (b := b) hw
  have hframe := afterRecord_frame c b live
  have hpre := @afterPreExecution_list c b live hp
  rw [hforce, Prod.mk.injEq, ← hframe.2.1, ← hframe.2.2] at hpre
  rw [liveBlock_eq, if_pos hp, push_validators hwr, push_sealed hwr, Prod.mk.injEq, hpre.2]
  refine ⟨?_, rfl⟩
  split_ifs with hc
  · have hmem : b.beneficiary ∈ (afterRecord c b live).validators := by
      simpa [counts, hpre.2] using hc
    rw [discover_of_mem hmem, hpre.1]
  · exact hpre.1

/-- When the restarted node makes the same calls: nothing is pending at the head `last`, the
signers of the lookback are all validators, the head is no boundary block, and the first new block
calls `finalizeChange()` or finds the list unchanged. -/
structure RestartsClean (c : AuraConfig) (init : List AuraBlock) (last : AuraBlock)
    (future : List AuraBlock) (validators : List Address) (rf : RollingFinality) : Prop where
  settled : (runLive c (init ++ [last]) rf).pendingTransitions = ∅
  members : ∀ b ∈ init ++ [last], lookbackStart last.number ≤ b.number →
    b.beneficiary ∈ validators
  quiet : boundaryCall c last = none
  next : ∀ b rest, future = b :: rest →
    callsFinalizeChange c b (runLive c (init ++ [last]) rf) = true ∨
      b.initialValidators = validators

/-- What the lookback comment and a constant `getValidators()` promise at the head `last`. -/
structure LookbackSuffices (scanner : ChainScanner) (c : AuraConfig) (contract : Address)
    (init : List AuraBlock) (last : AuraBlock) (validators : List Address)
    (rf : RollingFinality) : Prop where
  unacted : ∀ k : ℕ, ((runLive c init rf).pendingTransitions[k]?).isSome = true →
    seenFrom scanner contract (lookbackStart last.number) k = true
  unactedLast : announces c last (runLive c init rf) = true →
    receiptsContainInitiateChange last.receipts contract = true
  nodup : validators.Nodup
  constant : ∀ v ∈ executed c (init ++ [last]) rf, lookbackStart last.number ≤ v.1.number →
    listInForce c v.1 v.2 = (validators, true)
  signed : validators ⊆
    ((init ++ [last]).filter (fun b => lookbackStart last.number ≤ b.number)).map
      AuraBlock.beneficiary

theorem lagging_init {scanner : ChainScanner} {contract : Address} {start m : ℕ}
    {discovered : List Address} {live : RollingFinality} (hlive : Between m live)
    (hseen : ∀ k, seenFrom scanner contract start k = true → live.pendingTransitions[k]? = none)
    (hcontracts : ∀ (k : ℕ) (a : Address), live.pendingTransitions[k]? = some a → a = contract) :
    Lagging (seenFrom scanner contract start) contract discovered m live
      (replayInit discovered) := by
  refine ⟨hlive, ⟨windowInv_setValidators _ _, ?_⟩, ?_, hcontracts, rfl, rfl, .inr rfl⟩
  · refine ⟨?_, ?_, ?_⟩ <;> simp [replayInit, setValidators, new]
  · apply Follows.of_no_pending hseen
    intro k
    simp [replayInit, setValidators, new]

theorem runLive_contracts {c : AuraConfig} {contract : Address} {bs : List AuraBlock} {n : ℕ}
    {rf : RollingFinality} (hbs : Consecutive n bs) (hp : c.posdaoTransition ≤ n)
    (hrf : Between n rf)
    (hcontract : ∀ b ∈ bs, c.validators.contractAddressAt b.number = some contract)
    (hall : ∀ (k : ℕ) (a : Address), rf.pendingTransitions[k]? = some a → a = contract) :
    ∀ (k : ℕ) (a : Address), (runLive c bs rf).pendingTransitions[k]? = some a → a = contract := by
  induction bs generalizing n rf with
  | nil => exact hall
  | cons b rest ih =>
    obtain ⟨hn, hrest⟩ := hbs
    subst hn
    exact ih hrest (by omega) hrf.liveBlock (fun x hx => hcontract x (List.mem_cons_of_mem b hx))
      (liveBlock_contracts hrf.window hp (hcontract b List.mem_cons_self) hall)

/-- The blocks up to the head `last`, split where the lookback starts: `mid` and `last` are
inside, `early` is not. -/
structure LookbackSplit (n : ℕ) (early mid : List AuraBlock) (last : AuraBlock) : Prop where
  outside : Consecutive n early
  window : Consecutive (n + early.length) (mid ++ [last])
  start : lookbackStart last.number ≤ n + early.length
  reached : early = [] ∨ n + early.length = lookbackStart last.number

theorem exists_lookbackSplit {n : ℕ} {init : List AuraBlock} {last : AuraBlock}
    (hbs : Consecutive n (init ++ [last])) :
    ∃ early mid, init = early ++ mid ∧ LookbackSplit n early mid last := by
  obtain ⟨hinit, hlast, -⟩ := Consecutive.append.mp hbs
  have hstart : lookbackStart last.number ≤ last.number := Nat.sub_le _ _
  have hlength : (init.take (lookbackStart last.number - n)).length =
      lookbackStart last.number - n := by
    rw [List.length_take]
    omega
  have hsplit := List.take_append_drop (lookbackStart last.number - n) init
  refine ⟨init.take (lookbackStart last.number - n), init.drop (lookbackStart last.number - n),
    hsplit.symm, ?_, ?_, ?_, ?_⟩
  · rw [← hsplit] at hinit
    exact (Consecutive.append.mp hinit).1
  · rw [← hsplit, List.append_assoc] at hbs
    exact (Consecutive.append.mp hbs).2
  · omega
  · by_cases hle : lookbackStart last.number ≤ n
    · left
      rw [show lookbackStart last.number - n = 0 by omega, List.take_zero]
    · right
      omega

namespace LookbackSplit
variable {n : ℕ} {early mid : List AuraBlock} {last : AuraBlock}

theorem number (h : LookbackSplit n early mid last) :
    last.number = n + early.length + mid.length :=
  (Consecutive.append.mp h.window).2.1

theorem inside (h : LookbackSplit n early mid last) {b : AuraBlock} (hb : b ∈ mid ++ [last]) :
    lookbackStart last.number ≤ b.number :=
  h.start.trans (h.window.mem_bounds hb).1

theorem mem_window (h : LookbackSplit n early mid last) {b : AuraBlock}
    (hb : b ∈ early ++ mid ++ [last]) (hle : lookbackStart last.number ≤ b.number) :
    b ∈ mid ++ [last] := by
  rw [List.append_assoc, List.mem_append] at hb
  rcases hb with hb | hb
  · have hbounds := h.outside.mem_bounds hb
    rcases h.reached with hnil | heq
    · simp [hnil] at hb
    · omega
  · exact hb

theorem lookbackWindow_eq (h : LookbackSplit n early mid last) :
    lookbackWindow last.number =
      List.range' (lookbackStart last.number) (n + early.length - lookbackStart last.number) ++
        (mid ++ [last]).map AuraBlock.number := by
  have hjoin := @List.range'_append_1 (lookbackStart last.number)
    (n + early.length - lookbackStart last.number) (mid.length + 1)
  rw [Nat.add_sub_cancel' h.start] at hjoin
  rw [h.window.numbers, List.length_append, List.length_singleton, hjoin, lookbackWindow]
  congr 1
  have hnumber := h.number
  have hstart := h.start
  omega

theorem replay_eq (h : LookbackSplit n early mid last) {scanner : ChainScanner}
    (hscan : ∀ b ∈ mid ++ [last], Scanned scanner b)
    (hother : ∀ m, lookbackStart last.number ≤ m → m < n → scanner.headerByNumber m = none)
    (contract : Address) (posdaoTransition : ℕ) :
    ∃ discovered : List Address, discovered.Nodup ∧
      (∀ a, a ∈ discovered ↔ a ∈ (mid ++ [last]).map AuraBlock.beneficiary) ∧
      replay scanner last.number contract posdaoTransition =
        Run.run (replayBlock scanner contract posdaoTransition)
          ((mid ++ [last]).map AuraBlock.number) (replayInit discovered) := by
  apply replay_window h.lookbackWindow_eq ?_ hscan
  intro m hm
  rw [List.mem_range'_1] at hm
  rcases h.reached with hnil | heq
  · rw [hnil, List.length_nil, Nat.add_zero] at hm
    exact hother m hm.1 (by omega)
  · omega

theorem lagging (h : LookbackSplit n early mid last) {c : AuraConfig} {rf : RollingFinality}
    {contract : Address} (hp : c.posdaoTransition ≤ n) (hrf : Between n rf)
    (hstart : rf.pendingTransitions = ∅)
    (hcontract : ∀ b ∈ early, c.validators.contractAddressAt b.number = some contract)
    (scanner : ChainScanner) (discovered : List Address) :
    Lagging (seenFrom scanner contract (lookbackStart last.number)) contract discovered
      (n + early.length) (runLive c early rf) (replayInit discovered) := by
  have hlive : Between (n + early.length) (runLive c early rf) := hrf.runLive h.outside
  have hnone := (pending_eq_empty_iff _).mp hstart
  apply lagging_init hlive
  · intro k hk
    cases hpend : (runLive c early rf).pendingTransitions[k]? with
    | none => rfl
    | some a =>
      have hlt := hlive.before.pending k a hpend
      simp only [seenFrom, Bool.and_eq_true, decide_eq_true_eq] at hk
      rcases h.reached with hnil | heq
      · rw [hnil] at hpend
        exact (Option.some_ne_none a (hpend.symm.trans (hnone k))).elim
      · omega
  · apply runLive_contracts h.outside hp hrf hcontract
    intro k a hk
    rw [hnone k] at hk
    contradiction

theorem length_discovered (h : LookbackSplit n early mid last) {scanner : ChainScanner}
    {c : AuraConfig} {contract : Address} {validators discovered : List Address}
    {rf : RollingFinality}
    (hlookback : LookbackSuffices scanner c contract (early ++ mid) last validators rf)
    (hmembers : ∀ b ∈ mid ++ [last], b.beneficiary ∈ validators) (hnodup : discovered.Nodup)
    (hdiscovered : ∀ a, a ∈ discovered ↔ a ∈ (mid ++ [last]).map AuraBlock.beneficiary) :
    discovered.length = validators.length := by
  apply List.Perm.length_eq
  rw [List.perm_ext_iff_of_nodup hnodup hlookback.nodup]
  intro a
  rw [hdiscovered a, List.mem_map]
  constructor
  · rintro ⟨b, hb, rfl⟩
    exact hmembers b hb
  · intro ha
    obtain ⟨b, hb, hsigner⟩ := List.mem_map.mp (hlookback.signed ha)
    rw [List.mem_filter, decide_eq_true_eq] at hb
    exact ⟨b, h.mem_window hb.1 hb.2, hsigner⟩

theorem mem_executed {c : AuraConfig} {rf : RollingFinality} {v : AuraBlock × RollingFinality}
    (hv : v ∈ executed c (mid ++ [last]) (runLive c early rf)) :
    v ∈ executed c (early ++ mid ++ [last]) rf := by
  rw [List.append_assoc]
  exact executed_append_right hv

theorem runLive_window (c : AuraConfig) (early mid : List AuraBlock) (last : AuraBlock)
    (rf : RollingFinality) :
    runLive c mid (runLive c early rf) = runLive c (early ++ mid) rf ∧
      runLive c (mid ++ [last]) (runLive c early rf) = runLive c (early ++ mid ++ [last]) rf := by
  have hmid : runLive c mid (runLive c early rf) = runLive c (early ++ mid) rf :=
    (Run.run_append early mid rf).symm
  refine ⟨hmid, ?_⟩
  rw [runLive_append_single, hmid, ← runLive_append_single]

end LookbackSplit

theorem LookbackSuffices.seen_afterRecord {scanner : ChainScanner} {c : AuraConfig}
    {contract : Address} {init : List AuraBlock} {last : AuraBlock} {validators : List Address}
    {rf : RollingFinality}
    (h : LookbackSuffices scanner c contract init last validators rf)
    (hp : c.posdaoTransition ≤ last.number) (hscan : Scanned scanner last) {k : ℕ}
    (hk : ((afterRecord c last (runLive c init rf)).pendingTransitions[k]?).isSome = true) :
    seenFrom scanner contract (lookbackStart last.number) k = true := by
  have hstart : lookbackStart last.number ≤ last.number := Nat.sub_le _ _
  obtain ⟨a, ha⟩ := Option.isSome_iff_exists.mp hk
  rcases pending_afterRecord_cases hp ha with ⟨hann, rfl, -⟩ | hold
  · rw [seenFrom_eq hscan contract hstart]
    exact h.unactedLast hann
  · exact h.unacted k (by simp [hold])

theorem recovered_of_settled {scanner : ChainScanner} {c : AuraConfig} {contract : Address}
    {init : List AuraBlock} {last : AuraBlock} {n : ℕ} {rf : RollingFinality}
    {validators : List Address} (hbs : Consecutive n (init ++ [last]))
    (hp : c.posdaoTransition ≤ n)
    (hcontract : ∀ b ∈ init ++ [last], c.validators.contractAddressAt b.number = some contract)
    (hrf : Between n rf) (hstart : rf.pendingTransitions = ∅)
    (hscan : ∀ b ∈ init ++ [last], Scanned scanner b)
    (hother : ∀ m, lookbackStart last.number ≤ m → m < n → scanner.headerByNumber m = none)
    (hlookback : LookbackSuffices scanner c contract init last validators rf)
    (hsettled : (runLive c (init ++ [last]) rf).pendingTransitions = ∅)
    (hmembers : ∀ b ∈ init ++ [last], lookbackStart last.number ≤ b.number →
      b.beneficiary ∈ validators)
    (hquiet : boundaryCall c last = none) :
    restartedTracker scanner c last.number =
      fromRecovered ∅ (runLive c (init ++ [last]) rf).finalizeChangeAt := by
  obtain ⟨early, mid, rfl, hsplit⟩ := exists_lookbackSplit hbs
  have hmem : ∀ b ∈ mid ++ [last], b ∈ early ++ mid ++ [last] := by
    intro b hb
    rw [List.append_assoc]
    exact List.mem_append_right early hb
  have hsigners : ∀ b ∈ mid ++ [last], b.beneficiary ∈ validators :=
    fun b hb => hmembers b (hmem b hb) (hsplit.inside hb)
  obtain ⟨discovered, hnodup, hdiscovered, hreplay⟩ := hsplit.replay_eq
    (fun b hb => hscan b (hmem b hb)) hother contract c.posdaoTransition
  have hlagging := hsplit.lagging hp hrf hstart
    (fun b hb => hcontract b (List.mem_append_left _ (List.mem_append_left _ hb)))
    scanner discovered
  have hblocks : ∀ b ∈ mid ++ [last], Scanned scanner b ∧
      c.validators.contractAddressAt b.number = some contract ∧
      seenFrom scanner contract (lookbackStart last.number) b.number =
        receiptsContainInitiateChange b.receipts contract ∧ b.beneficiary ∈ discovered := by
    intro b hb
    have hb' := hmem b hb
    refine ⟨hscan b hb', hcontract b hb', seenFrom_eq (hscan b hb') contract (hsplit.inside hb), ?_⟩
    rw [hdiscovered]
    exact List.mem_map_of_mem hb
  have hvisits : ∀ v ∈ executed c (mid ++ [last]) (runLive c early rf),
      (callsFinalizeChange c v.1 v.2 = true → v.2.pendingTransitions = ∅) ∧
        SameMajority c discovered.length v.1 v.2 := by
    intro v hv
    have hb := executed_mem hv
    have hall := LookbackSplit.mem_executed hv
    constructor
    · exact call_idle_of_settled hbs hp hrf hsettled hall
    · rw [SameMajority, hlookback.constant v hall (hsplit.inside hb),
        hsplit.length_discovered hlookback hsigners hnodup hdiscovered]
      exact ⟨hsigners v.1 hb, rfl⟩
  obtain ⟨hend, hslot⟩ := hlagging.runTo hsplit.window (by omega) hblocks hvisits
  obtain ⟨hmid, hlive⟩ := LookbackSplit.runLive_window c early mid last rf
  rw [hlive] at hend hslot
  rw [hmid] at hslot
  have hlast : last ∈ mid ++ [last] := List.mem_append_right mid List.mem_cons_self
  have hnumber := hsplit.number
  have hseen := fun k : ℕ => @LookbackSuffices.seen_afterRecord _ _ _ _ _ _ _ hlookback (by omega)
    (hblocks last hlast).1 k
  rw [restartedTracker_eq, (hblocks last hlast).2.1]
  simp only [reconstructFinalityState, hreplay]
  rw [hslot hquiet hseen]
  congr 1
  rw [pending_eq_empty_iff]
  exact hend.follows.sim_none hsettled

/-- A restart at the head `last` changes no later `finalizeChange()` call, if it
`RestartsClean`. -/
theorem restart_transparent {scanner : ChainScanner} {c : AuraConfig} {contract : Address}
    {init future : List AuraBlock} {last : AuraBlock} {n : ℕ} {rf : RollingFinality}
    {validators : List Address} (hbs : Consecutive n (init ++ [last] ++ future))
    (hp : c.posdaoTransition ≤ n)
    (hcontract : ∀ b ∈ init ++ [last] ++ future,
      c.validators.contractAddressAt b.number = some contract)
    (hrf : Between n rf) (hstart : rf.pendingTransitions = ∅)
    (hscan : ∀ b ∈ init ++ [last], Scanned scanner b)
    (hother : ∀ m, lookbackStart last.number ≤ m → m < n → scanner.headerByNumber m = none)
    (hlookback : LookbackSuffices scanner c contract init last validators rf)
    (hclean : RestartsClean c init last future validators rf) :
    finalizeChangeAddresses c future (restartedTracker scanner c last.number) =
      finalizeChangeAddresses c future (runLive c (init ++ [last]) rf) := by
  obtain ⟨hpast, hfuture⟩ := Consecutive.append.mp hbs
  rw [recovered_of_settled hpast hp (fun b hb => hcontract b (List.mem_append_left _ hb)) hrf
    hstart hscan hother hlookback hclean.settled hclean.members hclean.quiet]
  cases hcase : future with
  | nil => rfl
  | cons b rest =>
    subst hcase
    have hlive := hrf.runLive (c := c) hpast
    obtain ⟨hb, hrest⟩ := hfuture
    rw [← hb] at hlive hrest
    have hpb : c.posdaoTransition ≤ b.number := by omega
    have hcontractb := hcontract b (by simp)
    have hlist : ((runLive c (init ++ [last]) rf).validators,
        (runLive c (init ++ [last]) rf).validatorsSealed) = (validators, true) := by
      obtain ⟨hinit, hlast, -⟩ := Consecutive.append.mp hpast
      have hpre : Between last.number (runLive c init rf) := by
        rw [hlast]
        exact hrf.runLive hinit
      rw [runLive_append_single]
      apply liveBlock_list hpre.window (by omega)
      apply hlookback.constant (last, runLive c init rf)
      · rw [executed_append_single]
        exact List.mem_append_right _ List.mem_cons_self
      · exact Nat.sub_le _ _
    have hfirst := Resumed.first hlive hpb hcontractb hclean.settled rfl hlist
      (hclean.next b rest rfl)
    have htail := hfirst.addresses hrest (by omega)
      (fun x hx => hcontract x (by simp [hx]))
    have hrestart : Between b.number
        (fromRecovered ∅ (runLive c (init ++ [last]) rf).finalizeChangeAt) := by
      refine ⟨windowInv_fromRecovered _ _, ?_, ?_, hlive.before.slot⟩ <;> simp [fromRecovered]
    have hhead : finalizeChangeAddress c b
        (fromRecovered ∅ (runLive c (init ++ [last]) rf).finalizeChangeAt) =
          finalizeChangeAddress c b (runLive c (init ++ [last]) rf) := by
      rw [finalizeChangeAddress_before hrestart.before, finalizeChangeAddress_before hlive.before]
      rfl
    simp only [finalizeChangeAddresses, executed, Run.visits, List.map_cons] at htail ⊢
    rw [hhead, htail]

theorem Between.replayBlock_any {n : ℕ} {sim : RollingFinality} (h : Between n sim)
    (scanner : ChainScanner) (contract : Address) (posdaoTransition : ℕ) :
    Between (n + 1) (RethGnosis.replayBlock scanner contract posdaoTransition n sim) := by
  cases hheader : scanner.headerByNumber n with
  | none =>
    simp only [RethGnosis.replayBlock, hheader]
    exact ⟨h.takeFinalizeChange.window, h.takeFinalizeChange.before.succ⟩
  | some header =>
    -- the replay sees the block with the receipts the scanner has, or with none
    have hshown : RethGnosis.replayBlock scanner contract posdaoTransition n sim =
        ((replayMid contract posdaoTransition ⟨n, header.beneficiary,
          (scanner.receiptsByBlockNumber n).getD [], [], [], []⟩ sim).push n
            header.beneficiary).2 := by
      simp only [RethGnosis.replayBlock, hheader]
      rfl
    have hw := @replayMid_window contract posdaoTransition ⟨n, header.beneficiary,
      (scanner.receiptsByBlockNumber n).getD [], [], [], []⟩ sim h
    rw [hshown]
    exact ⟨hw.push _ _, (replayMid_before h).push hw _⟩

theorem between_restartedTracker (scanner : ChainScanner) (c : AuraConfig) (head : ℕ) :
    Between (head + 1) (restartedTracker scanner c head) := by
  rw [restartedTracker_eq]
  simp only [reconstructFinalityState]
  cases c.validators.contractAddressAt head with
  | none => exact between_new (head + 1) []
  | some contract =>
    have hrun : ∀ (count start : ℕ) (sim : RollingFinality), Between start sim →
        Between (start + count) (Run.run (replayBlock scanner contract c.posdaoTransition)
          (List.range' start count) sim) := by
      intro count
      induction count with
      | zero => exact fun _ _ h => h
      | succ count ih =>
        intro start sim h
        rw [List.range'_succ, show start + (count + 1) = start + 1 + count by omega]
        exact ih (start + 1) _ (h.replayBlock_any scanner contract c.posdaoTransition)
    have hstart : Between (lookbackStart head)
        (replayInit (discoverSigners scanner (lookbackWindow head) [])) := by
      refine ⟨windowInv_setValidators _ _, ?_, ?_, ?_⟩ <;> simp [replayInit, setValidators, new]
    have hend := hrun (head + 1 - lookbackStart head) _ _ hstart
    have hle : lookbackStart head ≤ head := Nat.sub_le _ _
    rw [show lookbackStart head + (head + 1 - lookbackStart head) = head + 1 by omega] at hend
    refine ⟨windowInv_fromRecovered _ _, hend.before.pending, ?_, hend.before.slot⟩
    simp [fromRecovered]

/-- A transition recovered without its queued block is never called again, whatever follows. -/
theorem recovered_never_called {scanner : ChainScanner} {c : AuraConfig} {future : List AuraBlock}
    {head k : ℕ} (hbs : Consecutive (head + 1) future) (hp : c.posdaoTransition ≤ head + 1)
    (hk : ((restartedTracker scanner c head).pendingTransitions[k]?).isSome = true) :
    Stranded k (runLive c future (restartedTracker scanner c head)) := by
  have hstranded : Stranded k (restartedTracker scanner c head) := by
    refine ⟨hk, ?_⟩
    rw [restartedTracker_eq]
    simp only [reconstructFinalityState]
    cases c.validators.contractAddressAt head <;> simp [fromRecovered]
  exact hstranded.runLive hbs hp (between_restartedTracker scanner c head)

theorem forall_pending_iff {m : BTreeMap ℕ Address} {P : ℕ → Prop} :
    (∀ k, (m[k]?).isSome = true → P k) ↔ ∀ k ∈ m.keys, P k := by
  simp only [Std.ExtTreeMap.mem_keys, Std.ExtTreeMap.mem_iff_isSome_getElem?]

def turnBlock (number : ℕ) (signer : Address) (announced : Bool) : AuraBlock where
  number := number
  beneficiary := signer
  receipts := if announced then
    [⟨0, true, 21000, [⟨9#160, [INITIATE_CHANGE_TOPIC], []⟩]⟩] else []
  rewardLogs := []
  initialValidators := [1#160, 2#160, 3#160]
  refreshedValidators := [1#160, 2#160, 3#160]

def settledPast : List AuraBlock := [turnBlock 1 1#160 false, turnBlock 2 2#160 true]

def pendingPast : List AuraBlock :=
  [turnBlock 1 1#160 false, turnBlock 2 2#160 false, turnBlock 3 3#160 false]

theorem restart_transparent_settledPast :
    let c := contractFrom 0 9#160 0
    let past := settledPast ++ [turnBlock 3 3#160 false]
    let future := [turnBlock 4 1#160 false, turnBlock 5 2#160 false]
    finalizeChangeAddresses c future (restartedTracker (scannerOf past) c 3) =
      finalizeChangeAddresses c future (runLive c past (new [])) := by
  have hall : Consecutive 1 (settledPast ++ [turnBlock 3 3#160 false] ++
      [turnBlock 4 1#160 false, turnBlock 5 2#160 false]) := by
    simp [Consecutive, settledPast, turnBlock]
  have hpast := (Consecutive.append.mp hall).1
  have hlookback : LookbackSuffices (scannerOf (settledPast ++ [turnBlock 3 3#160 false]))
      (contractFrom 0 9#160 0) 9#160 settledPast (turnBlock 3 3#160 false)
      [1#160, 2#160, 3#160] (new []) := by
    constructor
    · rw [forall_pending_iff]
      decide +kernel
    · decide +kernel
    · decide +kernel
    · decide +kernel
    · decide +kernel
  have hclean : RestartsClean (contractFrom 0 9#160 0) settledPast (turnBlock 3 3#160 false)
      [turnBlock 4 1#160 false, turnBlock 5 2#160 false] [1#160, 2#160, 3#160] (new []) := by
    constructor
    · decide +kernel
    · decide +kernel
    · decide +kernel
    · intro b rest h
      rw [List.cons.injEq] at h
      rw [← h.1]
      exact .inl (by decide +kernel)
  have hother : ∀ m, lookbackStart 3 ≤ m → m < 1 →
      (scannerOf (settledPast ++ [turnBlock 3 3#160 false])).headerByNumber m = none := by
    intro m _ hm
    have hzero : m = 0 := by omega
    subst hzero
    decide +kernel
  exact @restart_transparent (scannerOf (settledPast ++ [turnBlock 3 3#160 false]))
    (contractFrom 0 9#160 0) 9#160 settledPast
    [turnBlock 4 1#160 false, turnBlock 5 2#160 false] (turnBlock 3 3#160 false) 1 (new [])
    [1#160, 2#160, 3#160] hall (Nat.zero_le 1) (by decide +kernel) (between_new 1 []) rfl
    (fun _ hb => scanned_scannerOf hpast hb) hother hlookback hclean

/-- The restarted node never calls `finalizeChange()` for the change of block 4. -/
theorem pendingPast_lost :
    let c := contractFrom 0 9#160 0
    let past := pendingPast ++ [turnBlock 4 3#160 true]
    let future := [turnBlock 5 1#160 false, turnBlock 6 2#160 false]
    Consecutive 1 (past ++ future) ∧
      (∀ b ∈ past ++ future, c.validators.contractAddressAt b.number = some 9#160) ∧
      (∀ b ∈ past, Scanned (scannerOf past) b) ∧
      LookbackSuffices (scannerOf past) c 9#160 pendingPast (turnBlock 4 3#160 true)
        [1#160, 2#160, 3#160] (new []) ∧
      finalizeChangeAddresses c future (runLive c past (new [])) = [none, some 9#160] ∧
      finalizeChangeAddresses c future (restartedTracker (scannerOf past) c 4) =
        [none, none] := by
  have hall : Consecutive 1 (pendingPast ++ [turnBlock 4 3#160 true] ++
      [turnBlock 5 1#160 false, turnBlock 6 2#160 false]) := by
    simp [Consecutive, pendingPast, turnBlock]
  refine ⟨hall, by decide +kernel,
    fun _ hb => scanned_scannerOf (Consecutive.append.mp hall).1 hb, ?_, by decide +kernel,
    by decide +kernel⟩
  constructor
  · rw [forall_pending_iff]
    decide +kernel
  · decide +kernel
  · decide +kernel
  · decide +kernel
  · decide +kernel

end RethGnosis
