import RethGnosis.Aura.WindowSimulation

set_option autoImplicit false

/-!
# When recovery rebuilds the live state

The replay runs on a sealed list of the signers of the lookback. It rebuilds the
pending transitions and the scheduled call of the live tracker when that list
gives every block with a pending transition the majority of the list in force.
-/
namespace RethGnosis
open RollingFinality

section Scan
variable {scanner : ChainScanner}

theorem discoverSigners_append (xs ys : List ℕ) (acc : List Address) :
    discoverSigners scanner (xs ++ ys) acc =
      discoverSigners scanner ys (discoverSigners scanner xs acc) := by
  induction xs generalizing acc with
  | nil => rfl
  | cons n rest ih =>
    simp only [List.cons_append, discoverSigners]
    cases scanner.headerByNumber n with
    | none => exact ih acc
    | some header => exact ih _

theorem discoverSigners_unknown {gap : List ℕ} (hgap : ∀ n ∈ gap, scanner.headerByNumber n = none)
    (acc : List Address) : discoverSigners scanner gap acc = acc := by
  induction gap generalizing acc with
  | nil => rfl
  | cons n rest ih =>
    simp only [discoverSigners, hgap n List.mem_cons_self]
    exact ih (fun m hm => hgap m (List.mem_cons_of_mem n hm)) acc

theorem discoverSigners_window {window : List AuraBlock} (hscan : ∀ b ∈ window, Scanned scanner b)
    {acc : List Address} (hacc : acc.Nodup) :
    (discoverSigners scanner (window.map AuraBlock.number) acc).Nodup ∧
      ∀ a, a ∈ discoverSigners scanner (window.map AuraBlock.number) acc ↔
        a ∈ acc ∨ a ∈ window.map AuraBlock.beneficiary := by
  induction window generalizing acc with
  | nil => simpa [discoverSigners] using hacc
  | cons b rest ih =>
    obtain ⟨header, hheader, hsigner⟩ := (hscan b List.mem_cons_self).header
    have hrest : ∀ x ∈ rest, Scanned scanner x :=
      fun x hx => hscan x (List.mem_cons_of_mem b hx)
    simp only [List.map_cons, discoverSigners, hheader, hsigner, List.mem_cons]
    by_cases hmem : b.beneficiary ∈ acc
    · rw [if_pos (List.contains_iff_mem.mpr hmem)]
      have hall := ih hrest hacc
      refine ⟨hall.1, ?_⟩
      intro a
      rw [hall.2 a]
      constructor
      · tauto
      · rintro (ha | rfl | ha)
        · exact .inl ha
        · exact .inl hmem
        · exact .inr ha
    · rw [if_neg (by simpa using hmem)]
      have hnew : (acc ++ [b.beneficiary]).Nodup := by
        rw [List.nodup_append]
        refine ⟨hacc, List.nodup_singleton _, ?_⟩
        intro x hx y hy hxy
        rw [List.mem_singleton] at hy
        rw [hxy, hy] at hx
        exact hmem hx
      have hall := ih hrest hnew
      refine ⟨hall.1, ?_⟩
      intro a
      rw [hall.2 a, List.mem_append, List.mem_singleton, or_assoc]

theorem replay_unknown {gap : List ℕ} (hgap : ∀ n ∈ gap, scanner.headerByNumber n = none)
    (contract : Address) (posdaoTransition : ℕ) {sim : RollingFinality}
    (hslot : sim.finalizeChangeAt = none) :
    Run.run (replayBlock scanner contract posdaoTransition) gap sim = sim := by
  induction gap with
  | nil => rfl
  | cons n rest ih =>
    have hstep : replayBlock scanner contract posdaoTransition n sim = sim := by
      simp only [replayBlock, hgap n List.mem_cons_self, takeFinalizeChange, hslot]
    simp only [Run.run, hstep]
    exact ih (fun m hm => hgap m (List.mem_cons_of_mem n hm))

def replayInit (discovered : List Address) : RollingFinality :=
  (new discovered).setValidators discovered

theorem replay_window {headBlock : ℕ} {gap : List ℕ} {window : List AuraBlock}
    (hnumbers : lookbackWindow headBlock = gap ++ window.map AuraBlock.number)
    (hgap : ∀ n ∈ gap, scanner.headerByNumber n = none)
    (hscan : ∀ b ∈ window, Scanned scanner b) (contract : Address) (posdaoTransition : ℕ) :
    ∃ discovered : List Address, discovered.Nodup ∧
      (∀ a, a ∈ discovered ↔ a ∈ window.map AuraBlock.beneficiary) ∧
      replay scanner headBlock contract posdaoTransition =
        Run.run (replayBlock scanner contract posdaoTransition) (window.map AuraBlock.number)
          (replayInit discovered) := by
  have hdiscover := discoverSigners_window hscan List.nodup_nil
  refine ⟨discoverSigners scanner (window.map AuraBlock.number) [], hdiscover.1, ?_, ?_⟩
  · intro a
    rw [hdiscover.2 a]
    simp
  · simp only [replay, hnumbers, discoverSigners_append, discoverSigners_unknown hgap,
      Run.run_append]
    rw [replay_unknown hgap contract posdaoTransition rfl]
    rfl

end Scan

theorem Consecutive.numbers {n : ℕ} {bs : List AuraBlock} (h : Consecutive n bs) :
    bs.map AuraBlock.number = List.range' n bs.length := by
  induction bs generalizing n with
  | nil => rfl
  | cons b rest ih =>
    rw [List.map_cons, List.length_cons, List.range'_succ, h.1, ih h.2]

def signerCount (bs : List AuraBlock) : ℕ := (bs.map AuraBlock.beneficiary).toFinset.card

theorem length_of_discovered {discovered : List Address} {bs : List AuraBlock}
    (hnodup : discovered.Nodup) (hmem : ∀ a, a ∈ discovered ↔ a ∈ bs.map AuraBlock.beneficiary) :
    discovered.length = signerCount bs := by
  have heq : discovered.toFinset = (bs.map AuraBlock.beneficiary).toFinset := by
    ext a
    rw [List.mem_toFinset, List.mem_toFinset, hmem a]
  rw [signerCount, ← heq, List.toFinset_card_of_nodup hnodup]

def seenFrom (scanner : ChainScanner) (contract : Address) (start k : ℕ) : Bool :=
  decide (start ≤ k) && replayAnnounces scanner contract k

theorem seenFrom_eq {scanner : ChainScanner} {b : AuraBlock} (h : Scanned scanner b)
    (contract : Address) {start : ℕ} (hstart : start ≤ b.number) :
    seenFrom scanner contract start b.number =
      receiptsContainInitiateChange b.receipts contract := by
  simp only [seenFrom, hstart, decide_true, Bool.true_and, replayAnnounces, h.receipts,
    Option.getD_some]

/-- Live tracker and replay before block `n` of the window, when every event is in the receipts:
they hold the same transitions and, but for the slot the window starts with, the same call. -/
structure InStep (seen : ℕ → Bool) (contract : Address) (posdaoTransition : ℕ)
    (discovered : List Address) (n : ℕ) (live sim : RollingFinality) : Prop where
  betweenLive : Between n live
  betweenSim : Between n sim
  follows : Follows seen live sim
  allSeen : ∀ (k : ℕ) (a : Address), live.pendingTransitions[k]? = some a →
    seen k = true ∧ a = contract ∧ posdaoTransition ≤ k
  list : sim.validators = discovered
  listSealed : sim.validatorsSealed = true
  slot : sim.finalizeChangeAt = live.finalizeChangeAt ∨
    sim.finalizeChangeAt = none ∧ live.pendingTransitions = ∅

section Step
variable {seen : ℕ → Bool} {c : AuraConfig} {contract : Address} {discovered : List Address}
  {b : AuraBlock} {live sim : RollingFinality} {scanner : ChainScanner}

theorem liveBlock_allSeen
    (hall : ∀ (k : ℕ) (a : Address), live.pendingTransitions[k]? = some a →
      seen k = true ∧ a = contract ∧ c.posdaoTransition ≤ k)
    (hw : WindowInv live)
    (hcontract : c.validators.contractAddressAt b.number = some contract)
    (hseen : announces c b live = true → seen b.number = true) (k : ℕ) (a : Address)
    (hk : (liveBlock c b live).pendingTransitions[k]? = some a) :
    seen k = true ∧ a = contract ∧ c.posdaoTransition ≤ k := by
  rw [liveBlock_eq] at hk
  by_cases hp : c.posdaoTransition ≤ b.number
  · rw [if_pos hp, push_pending_reported (WindowInv.afterRecord hw)] at hk
    split_ifs at hk
    rcases pending_afterRecord_cases hp hk with ⟨ha, rfl, hcon⟩ | hold
    · rw [hcontract, Option.some.injEq] at hcon
      exact ⟨hseen ha, hcon.symm, hp⟩
    · exact hall k a hold
  · rw [if_neg hp, afterRecord_eq, hcontract] at hk
    simp only [hp, ↓reduceIte] at hk
    split_ifs at hk
    · rw [← afterPreExecution_pending c b live] at hall
      exact hall k a hk
    · rw [← afterPreExecution_pending c b live] at hall
      exact hall k a hk

theorem InStep.posdao
    (h : InStep seen contract c.posdaoTransition discovered b.number live sim)
    (hscan : Scanned scanner b) (hp : c.posdaoTransition ≤ b.number)
    (hcontract : c.validators.contractAddressAt b.number = some contract)
    (hbound : boundaryCall c b = none)
    (hseen : seen b.number = receiptsContainInitiateChange b.receipts contract)
    (hreceipts : announces c b live = true → seen b.number = true)
    (hsigner : b.beneficiary ∈ discovered)
    (hsame : live.pendingTransitions ≠ ∅ ∨ announces c b live = true →
      SameMajority c discovered.length b live) :
    let replayed := replayBlock scanner contract c.posdaoTransition b.number sim
    Follows seen (liveBlock c b live) replayed ∧
      replayed.finalizeChangeAt = (liveBlock c b live).finalizeChangeAt := by
  have hcalls := callsFinalizeChange_eq h.betweenLive.before hbound
  have hblock := h.follows.posdaoBlock hscan h.betweenLive h.betweenSim hp hcontract hseen h.list
    hsigner (fun k a hk => (h.allSeen k a hk).2.1)
    (by
      intro hsome
      rw [hcalls]
      rcases h.slot with heq | hnone
      · rwa [← heq]
      · simp [hnone.1] at hsome)
    (by
      intro hcall hnone
      rcases h.slot with heq | hidle
      · rw [hcalls, ← heq, hnone] at hcall
        contradiction
      · exact h.follows.sim_none hidle.2)
    hsame
  refine ⟨hblock.1, ?_⟩
  rcases hblock.2 with heq | ⟨hnone, hlive⟩
  · exact heq
  · rw [hnone, hlive hbound]
    intro k hk
    obtain ⟨a, ha⟩ := Option.isSome_iff_exists.mp hk
    rcases pending_afterRecord_cases hp ha with ⟨hann, rfl, -⟩ | hold
    · exact hreceipts hann
    · exact (h.allSeen k a hold).1

/-- One block of the window before POSDAO: nothing is pending, the replay pushes and the live
tracker does not. -/
theorem InStep.prePosdao
    (h : InStep seen contract c.posdaoTransition discovered b.number live sim)
    (hscan : Scanned scanner b) (hp : b.number < c.posdaoTransition)
    (hcontract : c.validators.contractAddressAt b.number = some contract)
    (hbound : boundaryCall c b = none)
    (hann : announces c b live = receiptsContainInitiateChange b.receipts contract) :
    let replayed := replayBlock scanner contract c.posdaoTransition b.number sim
    Follows seen (liveBlock c b live) replayed ∧
      replayed.finalizeChangeAt = (liveBlock c b live).finalizeChangeAt := by
  have hnp : ¬ c.posdaoTransition ≤ b.number := by omega
  have hempty : live.pendingTransitions = ∅ := by
    rw [pending_eq_empty_iff]
    intro k
    cases hk : live.pendingTransitions[k]? with
    | none => rfl
    | some a =>
      have hlow := (h.allSeen k a hk).2.2
      have hhigh := h.betweenLive.before.pending k a hk
      omega
  have hws := @replayMid_window contract c.posdaoTransition b sim h.betweenSim
  have hidle : (replayMid contract c.posdaoTransition b sim).pendingTransitions = ∅ := by
    rw [pending_eq_empty_iff]
    intro k
    rw [← h.follows.sim_none hempty k, ← taken_pending sim b.number]
    simp only [replayMid, replayRecord, hnp, ↓reduceIte]
    split_ifs <;> rfl
  have hdue : ∀ reported, transitionsDue reported
      (replayMid contract c.posdaoTransition b sim).pendingTransitions = [] := by
    intro reported
    rw [List.eq_nil_iff_forall_not_mem]
    intro y hy
    obtain ⟨k, -, hk⟩ := mem_transitionsDue.mp hy
    rw [(pending_eq_empty_iff _).mp hidle k] at hk
    contradiction
  simp only [replayBlock_eq hscan]
  constructor
  · apply Follows.of_no_pending
    · intro k _
      rw [liveBlock_eq, if_neg hnp, afterRecord_eq, hcontract]
      simp only [hnp, ↓reduceIte]
      have hnone := (pending_eq_empty_iff _).mp hempty k
      rw [← afterPreExecution_pending c b live] at hnone
      split_ifs <;> exact hnone
    · intro k
      rw [push_pending_reported hws, (pending_eq_empty_iff _).mp hidle k, ite_self]
  · rw [push_slot hws, hdue, liveBlock_eq, if_neg hnp, afterRecord_eq, hcontract]
    simp only [hnp, ↓reduceIte, hann, List.getLast?_nil, Option.map_none, Option.none_or,
      replayMid, replayRecord]
    split_ifs
    · rfl
    · rw [taken_slot h.betweenSim.before, afterPreExecution_slot_none h.betweenLive.before hbound]

theorem InStep.step
    (h : InStep seen contract c.posdaoTransition discovered b.number live sim)
    (hscan : Scanned scanner b)
    (hcontract : c.validators.contractAddressAt b.number = some contract)
    (hbound : boundaryCall c b = none)
    (hseen : seen b.number = receiptsContainInitiateChange b.receipts contract)
    (hann : announces c b live = receiptsContainInitiateChange b.receipts contract)
    (hsigner : b.beneficiary ∈ discovered)
    (hsame : c.posdaoTransition ≤ b.number →
      live.pendingTransitions ≠ ∅ ∨ announces c b live = true →
        SameMajority c discovered.length b live) :
    InStep seen contract c.posdaoTransition discovered (b.number + 1) (liveBlock c b live)
        (replayBlock scanner contract c.posdaoTransition b.number sim) ∧
      (replayBlock scanner contract c.posdaoTransition b.number sim).finalizeChangeAt =
        (liveBlock c b live).finalizeChangeAt := by
  have hrecorded : announces c b live = true → seen b.number = true := by
    rw [hseen, hann]
    exact id
  have hboth : Follows seen (liveBlock c b live)
        (replayBlock scanner contract c.posdaoTransition b.number sim) ∧
      (replayBlock scanner contract c.posdaoTransition b.number sim).finalizeChangeAt =
        (liveBlock c b live).finalizeChangeAt := by
    by_cases hp : c.posdaoTransition ≤ b.number
    · exact h.posdao hscan hp hcontract hbound hseen hrecorded hsigner (hsame hp)
    · exact h.prePosdao hscan (by omega) hcontract hbound hann
  have hlist := @replayBlock_list contract c.posdaoTransition b sim scanner hscan h.betweenSim
    h.listSealed
  refine ⟨⟨h.betweenLive.liveBlock, h.betweenSim.replayBlock hscan, hboth.1, ?_, ?_, hlist.2,
    .inl hboth.2⟩, hboth.2⟩
  · exact liveBlock_allSeen h.allSeen h.betweenLive.window hcontract hrecorded
  · rw [hlist.1, h.list]

end Step

theorem InStep.run {seen : ℕ → Bool} {c : AuraConfig} {contract : Address}
    {discovered : List Address} {scanner : ChainScanner} {window : List AuraBlock} {n : ℕ}
    {live sim : RollingFinality}
    (h : InStep seen contract c.posdaoTransition discovered n live sim)
    (hbs : Consecutive n window)
    (hblocks : ∀ b ∈ window, Scanned scanner b ∧
      c.validators.contractAddressAt b.number = some contract ∧ boundaryCall c b = none ∧
      seen b.number = receiptsContainInitiateChange b.receipts contract ∧
      (∀ rf, announces c b rf = receiptsContainInitiateChange b.receipts contract) ∧
      b.beneficiary ∈ discovered)
    (hsame : ∀ v ∈ executed c window live, c.posdaoTransition ≤ v.1.number →
      v.2.pendingTransitions ≠ ∅ ∨ announces c v.1 v.2 = true →
        SameMajority c discovered.length v.1 v.2) :
    let replayed := Run.run (replayBlock scanner contract c.posdaoTransition)
      (window.map AuraBlock.number) sim
    InStep seen contract c.posdaoTransition discovered (n + window.length)
        (runLive c window live) replayed ∧
      (window = [] ∨ replayed.finalizeChangeAt = (runLive c window live).finalizeChangeAt) := by
  induction window generalizing n live sim with
  | nil => exact ⟨h, .inl rfl⟩
  | cons b rest ih =>
    obtain ⟨hn, hrest⟩ := hbs
    subst hn
    obtain ⟨hscan, hcontract, hbound, hseen, hann, hsigner⟩ := hblocks b List.mem_cons_self
    have hfirst := h.step hscan hcontract hbound hseen (hann live) hsigner
      (hsame (b, live) List.mem_cons_self)
    have hlater := ih hfirst.1 hrest (fun x hx => hblocks x (List.mem_cons_of_mem b hx))
      (fun v hv => hsame v (List.mem_cons_of_mem _ hv))
    rw [List.length_cons, show b.number + (rest.length + 1) = b.number + 1 + rest.length by omega]
    refine ⟨hlater.1, .inr ?_⟩
    rcases hlater.2 with hnil | heq
    · subst hnil
      exact hfirst.2
    · exact heq

theorem InStep.pending_eq {seen : ℕ → Bool} {contract : Address} {posdaoTransition n : ℕ}
    {discovered : List Address} {live sim : RollingFinality}
    (h : InStep seen contract posdaoTransition discovered n live sim) :
    sim.pendingTransitions = live.pendingTransitions := by
  apply Std.ExtTreeMap.ext_getElem?
  intro k
  rw [h.follows.pending k]
  split_ifs with hseen
  · rfl
  · cases hk : live.pendingTransitions[k]? with
    | none => rfl
    | some a => exact absurd (h.allSeen k a hk).1 hseen

theorem inStep_init {c : AuraConfig} {scanner : ChainScanner} {contract : Address} {start : ℕ}
    {discovered : List Address} {live : RollingFinality} (hlive : Between start live)
    (hresolved : live.pendingTransitions = ∅) :
    InStep (seenFrom scanner contract start) contract c.posdaoTransition discovered start live
      (replayInit discovered) := by
  have hnone := (pending_eq_empty_iff _).mp hresolved
  refine ⟨hlive, ⟨windowInv_setValidators _ _, ?_⟩, ?_, ?_, rfl, rfl, .inr ⟨rfl, hresolved⟩⟩
  · refine ⟨?_, ?_, ?_⟩ <;> simp [replayInit, setValidators, new]
  · apply Follows.of_no_pending
    · intro k _
      exact hnone k
    · intro k
      simp [replayInit, setValidators, new]
  · intro k a hk
    rw [hnone k] at hk
    contradiction

/-- Recovery at head `h` rebuilds what the live tracker holds there, if every POSDAO block with a
transition pending is decided by the same majority. -/
theorem reconstruct_eq_live {scanner : ChainScanner} {c : AuraConfig} {contract : Address}
    {early window : List AuraBlock} {n h : ℕ} {rf : RollingFinality}
    (hbs : Consecutive n (early ++ window)) (hstart : n + early.length = lookbackStart h)
    (hend : lookbackStart h + window.length = h + 1) (hhead : 33 ≤ h) (hrf : Between n rf)
    (hscan : ∀ b ∈ window, Scanned scanner b)
    (hcontract : ∀ m, lookbackStart h - 2 ≤ m → m ≤ h →
      c.validators.contractAddressAt m = some contract)
    (hreceipts : ∀ b ∈ window, logsContainInitiateChange b.rewardLogs contract = true →
      receiptsContainInitiateChange b.receipts contract = true)
    (hresolved : (runLive c early rf).pendingTransitions = ∅)
    (hmajority : ∀ v ∈ executed c window (runLive c early rf), c.posdaoTransition ≤ v.1.number →
      v.2.pendingTransitions ≠ ∅ ∨ announces c v.1 v.2 = true →
        SameMajority c (signerCount window) v.1 v.2) :
    let recovered := reconstructFinalityState scanner h (c.validators.contractAddressAt h)
      c.posdaoTransition
    let live := runLive c (early ++ window) rf
    recovered.pendingTransitions = live.pendingTransitions ∧
      recovered.finalizeChangeAt = live.finalizeChangeAt := by
  have hlookback : 2 ≤ lookbackStart h := by
    simp only [lookbackStart, reconstructionLookback]
    omega
  obtain ⟨hearly, hwindow⟩ := Consecutive.append.mp hbs
  rw [hstart] at hwindow
  have hnumbers : lookbackWindow h = [] ++ window.map AuraBlock.number := by
    rw [List.nil_append, hwindow.numbers, lookbackWindow]
    congr 1
    omega
  obtain ⟨discovered, hnodup, hmem, hreplay⟩ := replay_window hnumbers (by simp) hscan contract
    c.posdaoTransition
  have hlive : Between (lookbackStart h) (runLive c early rf) := by
    rw [← hstart]
    exact hrf.runLive hearly
  have hrun := (@inStep_init c scanner contract _ discovered _ hlive hresolved).run hwindow
    (by
      intro b hb
      have hbounds := hwindow.mem_bounds hb
      refine ⟨hscan b hb, hcontract _ (by omega) (by omega), ?_,
        seenFrom_eq (hscan b hb) contract hbounds.1, ?_, ?_⟩
      · have hprev := hcontract (b.number - 2) (by omega) (by omega)
        have hnone := boundary_none_of_active hprev
        rwa [show b.number - 2 + 2 = b.number by omega] at hnone
      · intro rf'
        rw [announces_eq, hcontract _ (by omega) (by omega)]
        simp only
        rw [Bool.or_eq_left_iff_imp]
        exact hreceipts b hb
      · rw [hmem]
        exact List.mem_map_of_mem hb)
    (by rwa [length_of_discovered hnodup hmem])
  have happend : runLive c (early ++ window) rf = runLive c window (runLive c early rf) :=
    Run.run_append early window rf
  have hne : window ≠ [] := by
    rintro rfl
    simp only [List.length_nil, lookbackStart, reconstructionLookback] at hend
    omega
  simp only [reconstructFinalityState, hcontract h (by omega) le_rfl, hreplay, fromRecovered,
    happend]
  exact ⟨hrun.1.pending_eq, hrun.2.resolve_left hne⟩

instance (c : AuraConfig) (signers : ℕ) (b : AuraBlock) (rf : RollingFinality) :
    Decidable (SameMajority c signers b rf) :=
  inferInstanceAs (Decidable (_ ∧ _))

/-- Blocks 2 to 33 under contract 9, signed by validators 1 and 2 in turn, with an
`InitiateChange` at block 30; `getValidators()` answers `validators` throughout. -/
def changeInLookback (validators : List Address) : List AuraBlock :=
  (List.range' 2 32).map (fun n =>
    { number := n
      beneficiary := if n % 2 = 0 then 1#160 else 2#160
      receipts := if n = 30 then [⟨0, true, 21000, [⟨9#160, [INITIATE_CHANGE_TOPIC], []⟩]⟩] else []
      rewardLogs := []
      initialValidators := validators
      refreshedValidators := validators })

theorem consecutive_changeInLookback (validators : List Address) :
    Consecutive 2 (changeInLookback validators) := by
  simp [changeInLookback, List.range', Consecutive]

theorem contractFrom_zero_active : ∀ m ≤ 33,
    (contractFrom 0 9#160 0).validators.contractAddressAt m = some 9#160 := by
  decide +kernel

theorem reconstruct_eq_live_changeInLookback :
    let c := contractFrom 0 9#160 0
    let bs := changeInLookback [1#160, 2#160]
    let recovered := reconstructFinalityState (scannerOf bs) 33
      (c.validators.contractAddressAt 33) 0
    recovered.pendingTransitions = (runLive c bs (new [])).pendingTransitions ∧
      recovered.finalizeChangeAt = (runLive c bs (new [])).finalizeChangeAt :=
  @reconstruct_eq_live (scannerOf (changeInLookback [1#160, 2#160])) (contractFrom 0 9#160 0)
    9#160 [] (changeInLookback [1#160, 2#160]) 2 33 (new []) (consecutive_changeInLookback _) rfl
    rfl le_rfl (between_new 2 [])
    (fun _ hb => scanned_scannerOf (consecutive_changeInLookback _) hb)
    (fun m _ hm => contractFrom_zero_active m hm) (by decide +kernel) rfl (by decide +kernel)

/-- Validators 3 and 4 sign nothing: the replay finalizes block 30, the live tracker does not. -/
theorem changeInLookback_diverges :
    let c := contractFrom 0 9#160 0
    let bs := changeInLookback [1#160, 2#160, 3#160, 4#160]
    let recovered := reconstructFinalityState (scannerOf bs) 33
      (c.validators.contractAddressAt 33) 0
    Consecutive 2 bs ∧ (∀ b ∈ bs, Scanned (scannerOf bs) b) ∧
      (∀ m ≤ 33, c.validators.contractAddressAt m = some 9#160) ∧
      (∀ b ∈ bs, b.rewardLogs = []) ∧
      recovered.pendingTransitions ≠ (runLive c bs (new [])).pendingTransitions := by
  refine ⟨consecutive_changeInLookback _,
    fun _ hb => scanned_scannerOf (consecutive_changeInLookback _) hb, contractFrom_zero_active,
    ?_, ?_⟩
  · decide +kernel
  · decide +kernel

end RethGnosis
