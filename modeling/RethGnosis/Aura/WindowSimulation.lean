import RethGnosis.Aura.Orphan
import RethGnosis.Aura.Delivery
import RethGnosis.Aura.Recovery

set_option autoImplicit false

/-!
# The replay against the live tracker

The replay starts with an empty queue in the middle of the chain. As long as both
sides use the same majority threshold it follows the live tracker: the queues
share their recent part, every transition the replay holds belongs to that part
or is stranded on both sides, and a push finalizes the same transitions.
-/
namespace RethGnosis
open RollingFinality

/-- `sim` holds exactly the `seen` transitions of `live`, and the queues differ only in old
blocks that none of these belongs to. -/
structure Follows (seen : ℕ → Bool) (live sim : RollingFinality) : Prop where
  pending : ∀ k, sim.pendingTransitions[k]? =
    if seen k then live.pendingTransitions[k]? else none
  queues : ∃ old oldSim common, live.headers = old ++ common ∧ sim.headers = oldSim ++ common ∧
    ∀ k, (sim.pendingTransitions[k]?).isSome = true →
      k ∉ old.map Prod.fst ∧ k ∉ oldSim.map Prod.fst

theorem minority_half {m n : ℕ} (h : m / 2 = n / 2) : minority m = minority n := by
  funext window
  simp only [minority, decide_eq_decide]
  omega

theorem push_pending_reported {rf : RollingFinality} (h : WindowInv rf) (n : ℕ) (signer : Address)
    (k : ℕ) : (rf.push n signer).2.pendingTransitions[k]? =
      if k ∈ (rf.push n signer).1.map Prod.fst then none else rf.pendingTransitions[k]? := by
  by_cases hc : rf.counts signer = true
  · rw [push_pending h n hc, push_fst h n hc]
  · rw [push_of_not_counts (by simpa using hc)]
    simp

theorem push_slot {rf : RollingFinality} (h : WindowInv rf) (n : ℕ) (signer : Address) :
    (rf.push n signer).2.finalizeChangeAt =
      ((transitionsDue (rf.push n signer).1 rf.pendingTransitions).getLast?.map (n + 1, ·)).or
        rf.finalizeChangeAt := by
  by_cases hc : rf.counts signer = true
  · rw [push_finalizeChangeAt h n hc, push_fst h n hc]
  · rw [push_of_not_counts (by simpa using hc)]
    rfl

section Follows
variable {seen : ℕ → Bool} {live sim live' sim' : RollingFinality}

theorem Follows.frame (h : Follows seen live sim)
    (hlp : live'.pendingTransitions = live.pendingTransitions)
    (hlh : live'.headers = live.headers)
    (hsp : sim'.pendingTransitions = sim.pendingTransitions)
    (hsh : sim'.headers = sim.headers) : Follows seen live' sim' := by
  constructor
  · rw [hlp, hsp]
    exact h.pending
  · rw [hlh, hsh, hsp]
    exact h.queues

theorem Follows.of_no_pending (hlive : ∀ k, seen k = true → live.pendingTransitions[k]? = none)
    (hsim : ∀ k : ℕ, sim.pendingTransitions[k]? = none) : Follows seen live sim := by
  constructor
  · intro k
    rw [hsim k]
    split_ifs with hk
    · exact (hlive k hk).symm
    · rfl
  · refine ⟨live.headers, sim.headers, [], by simp, by simp, ?_⟩
    intro k hk
    simp [hsim k] at hk

theorem Follows.live_none (h : Follows seen live sim) {k : ℕ}
    (hk : sim.pendingTransitions[k]? = none) (hseen : seen k = true) :
    live.pendingTransitions[k]? = none := by
  have hpending := h.pending k
  rwa [hk, if_pos hseen, eq_comm] at hpending

theorem Follows.live_some (h : Follows seen live sim) {k : ℕ} {a : Address}
    (hk : sim.pendingTransitions[k]? = some a) :
    seen k = true ∧ live.pendingTransitions[k]? = some a := by
  have hpending := h.pending k
  rw [hk] at hpending
  split_ifs at hpending with hseen
  exact ⟨hseen, hpending.symm⟩

theorem Follows.cleared (h : Follows seen live sim)
    (hlp : live'.pendingTransitions = live.pendingTransitions) (hlh : live'.headers = [])
    (hsp : sim'.pendingTransitions = sim.pendingTransitions) (hsh : sim'.headers = []) :
    Follows seen live' sim' := by
  constructor
  · rw [hlp, hsp]
    exact h.pending
  · exact ⟨[], [], [], by simpa using hlh, by simpa using hsh, by simp⟩

theorem Follows.record_both (h : Follows seen live sim) {n : ℕ} (hseen : seen n = true)
    (hl : ∀ e ∈ live.headers, e.1 < n) (hs : ∀ e ∈ sim.headers, e.1 < n) (contract : Address) :
    Follows seen (live.addPendingTransition n contract) (sim.addPendingTransition n contract) := by
  constructor
  · intro k
    simp only [addPendingTransition, Std.ExtTreeMap.getElem?_insert, Nat.compare_eq_eq]
    by_cases hk : n = k
    · subst hk
      simp [hseen]
    · simp only [hk, ↓reduceIte]
      exact h.pending k
  · obtain ⟨old, oldSim, common, hlive, hsim, hnot⟩ := h.queues
    refine ⟨old, oldSim, common, hlive, hsim, ?_⟩
    intro k hk
    simp only [addPendingTransition, Std.ExtTreeMap.getElem?_insert, Nat.compare_eq_eq] at hk
    by_cases hkn : n = k
    · subst hkn
      constructor
      · intro hmem
        obtain ⟨e, he, heq⟩ := List.mem_map.mp hmem
        have hlt := hl e (by rw [hlive]; exact List.mem_append_left _ he)
        omega
      · intro hmem
        obtain ⟨e, he, heq⟩ := List.mem_map.mp hmem
        have hlt := hs e (by rw [hsim]; exact List.mem_append_left _ he)
        omega
    · simp only [hkn, ↓reduceIte] at hk
      exact hnot k hk

theorem Follows.record_live (h : Follows seen live sim) {n : ℕ} (hseen : seen n = false)
    (contract : Address) : Follows seen (live.addPendingTransition n contract) sim := by
  constructor
  · intro k
    rw [h.pending k]
    simp only [addPendingTransition, Std.ExtTreeMap.getElem?_insert, Nat.compare_eq_eq]
    by_cases hk : n = k
    · subst hk
      simp [hseen]
    · simp [hk]
  · exact h.queues

/-- What both sides must agree on before a push while the replay holds a transition. -/
structure SamePush (live sim : RollingFinality) (signer : Address) : Prop where
  liveCounts : live.counts signer = true
  simCounts : sim.counts signer = true
  half : (live.discover signer).length / 2 = (sim.discover signer).length / 2

theorem trim_append_shared (p : List (ℕ × Address) → Bool) (hp : SuffixTrim.SuffixClosed p)
    (old common : List (ℕ × Address)) (e : ℕ × Address) :
    ∃ gone kept, old = gone ++ kept ∧
      SuffixTrim.trim p (old ++ common ++ [e]) = kept ++ SuffixTrim.trim p (common ++ [e]) ∧
      SuffixTrim.dropped p (old ++ common ++ [e]) =
        gone ++ SuffixTrim.dropped p (common ++ [e]) := by
  rw [List.append_assoc]
  exact hp.trim_append old (common ++ [e])

theorem Follows.push_shared (h : Follows seen live sim) (hl : WindowInv live) (hs : WindowInv sim)
    (n : ℕ) {signer : Address} (hsame : SamePush live sim signer) :
    (∀ k, (sim.pendingTransitions[k]?).isSome = true →
        (k ∈ (live.push n signer).1.map Prod.fst ↔ k ∈ (sim.push n signer).1.map Prod.fst)) ∧
      Follows seen (live.push n signer).2 (sim.push n signer).2 := by
  obtain ⟨old, oldSim, common, hlive, hsim, hnot⟩ := h.queues
  have hmin := minority_half hsame.half
  obtain ⟨goneL, keptL, holdL, htrimL, hdropL⟩ := trim_append_shared
    (minority (live.discover signer).length) (minority_suffixClosed _) old common (n, signer)
  obtain ⟨goneS, keptS, holdS, htrimS, hdropS⟩ := trim_append_shared
    (minority (sim.discover signer).length) (minority_suffixClosed _) oldSim common (n, signer)
  have hreported : ∀ k, (sim.pendingTransitions[k]?).isSome = true →
      (k ∈ (live.push n signer).1.map Prod.fst ↔ k ∈ (sim.push n signer).1.map Prod.fst) := by
    intro k hk
    have hold := hnot k hk
    rw [holdL, holdS, List.map_append, List.map_append, List.mem_append, List.mem_append,
      not_or, not_or] at hold
    rw [push_fst hl n hsame.liveCounts, push_fst hs n hsame.simCounts, popped, popped, hlive, hsim,
      hdropL, hdropS, hmin]
    simp only [List.map_append, List.mem_append, hold.1.1, hold.2.1, false_or]
  refine ⟨hreported, ?_, ?_⟩
  · intro k
    rw [push_pending_reported hl, push_pending_reported hs, h.pending k]
    by_cases hseen : seen k = true
    · simp only [hseen, ↓reduceIte]
      cases hk : live.pendingTransitions[k]? with
      | none => simp
      | some a =>
        have hsome : (sim.pendingTransitions[k]?).isSome = true := by
          rw [h.pending k, if_pos hseen, hk]
          rfl
        simp only [hreported k hsome]
    · simp [hseen]
  · refine ⟨keptL, keptS, SuffixTrim.trim (minority (sim.discover signer).length)
      (common ++ [(n, signer)]), ?_, ?_, ?_⟩
    · rw [push_headers hl n hsame.liveCounts, hlive, htrimL, hmin]
    · rw [push_headers hs n hsame.simCounts, hsim, htrimS]
    · intro k hk
      rw [push_pending_reported hs] at hk
      split_ifs at hk
      · simp at hk
      · have hold := hnot k hk
        rw [holdL, holdS, List.map_append, List.map_append, List.mem_append, List.mem_append,
          not_or, not_or] at hold
        exact ⟨hold.1.2, hold.2.2⟩

/-- With nothing to follow the thresholds do not matter. -/
theorem Follows.push_idle (h : Follows seen live sim) (hl : WindowInv live) (hs : WindowInv sim)
    (hidle : ∀ k : ℕ, sim.pendingTransitions[k]? = none) (n m : ℕ) (signer signer' : Address) :
    Follows seen (live.push n signer).2 (sim.push m signer').2 := by
  apply Follows.of_no_pending
  · intro k hk
    rw [push_pending_reported hl, h.live_none (hidle k) hk, ite_self]
  · intro k
    rw [push_pending_reported hs, hidle k, ite_self]

/-- A push keeps the replay in step if the sides agree whenever something is pending. -/
theorem Follows.push (h : Follows seen live sim) (hl : WindowInv live) (hs : WindowInv sim)
    (n : ℕ) {signer : Address}
    (hsame : (∃ k : ℕ, (sim.pendingTransitions[k]?).isSome = true) → SamePush live sim signer) :
    (∀ k, (sim.pendingTransitions[k]?).isSome = true →
        (k ∈ (live.push n signer).1.map Prod.fst ↔ k ∈ (sim.push n signer).1.map Prod.fst)) ∧
      Follows seen (live.push n signer).2 (sim.push n signer).2 := by
  by_cases hany : ∃ k : ℕ, (sim.pendingTransitions[k]?).isSome = true
  · exact h.push_shared hl hs n (hsame hany)
  · have hidle : ∀ k : ℕ, sim.pendingTransitions[k]? = none := by
      intro k
      rw [← Option.not_isSome_iff_eq_none]
      exact fun hk => hany ⟨k, hk⟩
    constructor
    · intro k hk
      exact absurd ⟨k, hk⟩ hany
    · exact h.push_idle hl hs hidle n n signer signer

end Follows

def replayRecord (contract : Address) (posdaoTransition : ℕ) (b : AuraBlock)
    (sim : RollingFinality) : RollingFinality :=
  if receiptsContainInitiateChange b.receipts contract then
    if posdaoTransition ≤ b.number then sim.addPendingTransition b.number contract
    else sim.setImmediateFinalize (b.number + 1) contract
  else sim

def replayMid (contract : Address) (posdaoTransition : ℕ) (b : AuraBlock)
    (sim : RollingFinality) : RollingFinality :=
  replayRecord contract posdaoTransition b (sim.takeFinalizeChange b.number).2

theorem replayBlock_eq {scanner : ChainScanner} {b : AuraBlock} (h : Scanned scanner b)
    (contract : Address) (posdaoTransition : ℕ) (sim : RollingFinality) :
    replayBlock scanner contract posdaoTransition b.number sim =
      ((replayMid contract posdaoTransition b sim).push b.number b.beneficiary).2 := by
  obtain ⟨header, hheader, hsigner⟩ := h.header
  simp only [replayBlock, hheader, replayAnnounces, h.receipts, Option.getD_some, hsigner]
  rfl

section Take
variable {n : ℕ} {rf : RollingFinality}

theorem taken_pending (rf : RollingFinality) (n : ℕ) :
    (rf.takeFinalizeChange n).2.pendingTransitions = rf.pendingTransitions := by
  rw [takeFinalizeChange_eq]
  simp only
  split_ifs <;> rfl

theorem taken_list (rf : RollingFinality) (n : ℕ) :
    (rf.takeFinalizeChange n).2.validators = rf.validators ∧
      (rf.takeFinalizeChange n).2.validatorsSealed = rf.validatorsSealed := by
  rw [takeFinalizeChange_eq]
  simp only
  split_ifs <;> exact ⟨rfl, rfl⟩

theorem taken_slot (hb : Before n rf) : (rf.takeFinalizeChange n).2.finalizeChangeAt = none := by
  rw [takeFinalizeChange_eq, hb.dueSlot]
  cases hslot : rf.finalizeChangeAt with
  | none => simpa using hslot
  | some slot => rfl

theorem taken_headers (hb : Before n rf) : (rf.takeFinalizeChange n).2.headers =
    if rf.finalizeChangeAt.isSome then [] else rf.headers := by
  rw [takeFinalizeChange_eq, hb.dueSlot]
  simp only
  split_ifs <;> rfl

theorem Between.takeFinalizeChange (h : Between n rf) : Between n (rf.takeFinalizeChange n).2 := by
  constructor
  · exact h.window.takeFinalizeChange n
  · constructor
    · rw [taken_pending]
      exact h.before.pending
    · rw [taken_headers h.before]
      intro e he
      split_ifs at he
      · simp at he
      · exact h.before.headers e he
    · rw [taken_slot h.before]
      simp

end Take

section Mid
variable {contract : Address} {posdaoTransition : ℕ} {b : AuraBlock} {sim : RollingFinality}

theorem replayMid_window (hs : Between b.number sim) :
    WindowInv (replayMid contract posdaoTransition b sim) := by
  have htaken := hs.takeFinalizeChange.window
  unfold replayMid replayRecord
  split_ifs
  · exact htaken.addPendingTransition _ _
  · exact htaken.setImmediateFinalize _ _
  · exact htaken

theorem replayMid_before (hs : Between b.number sim) :
    Before (b.number + 1) (replayMid contract posdaoTransition b sim) := by
  have htaken := hs.takeFinalizeChange.before
  unfold replayMid replayRecord
  split_ifs
  · exact htaken.addPendingTransition contract
  · exact htaken.setImmediateFinalize contract
  · exact htaken.succ

theorem replayMid_list : (replayMid contract posdaoTransition b sim).validators = sim.validators ∧
    (replayMid contract posdaoTransition b sim).validatorsSealed = sim.validatorsSealed := by
  rw [← (taken_list sim b.number).1, ← (taken_list sim b.number).2]
  unfold replayMid replayRecord
  split_ifs <;> exact ⟨rfl, rfl⟩

theorem replayMid_slot_posdao (hs : Between b.number sim) (hp : posdaoTransition ≤ b.number) :
    (replayMid contract posdaoTransition b sim).finalizeChangeAt = none := by
  rw [← taken_slot hs.before]
  unfold replayMid replayRecord
  simp only [hp, ↓reduceIte]
  split_ifs <;> rfl

theorem Between.replayBlock {scanner : ChainScanner} (hscan : Scanned scanner b)
    (hs : Between b.number sim) :
    Between (b.number + 1) (replayBlock scanner contract posdaoTransition b.number sim) := by
  rw [replayBlock_eq hscan]
  exact ⟨(replayMid_window hs).push _ _, (replayMid_before hs).push (replayMid_window hs) _⟩

theorem replayBlock_list {scanner : ChainScanner} (hscan : Scanned scanner b)
    (hs : Between b.number sim) (hsealed : sim.validatorsSealed = true) :
    (replayBlock scanner contract posdaoTransition b.number sim).validators = sim.validators ∧
      (replayBlock scanner contract posdaoTransition b.number sim).validatorsSealed = true := by
  have hlist := @replayMid_list contract posdaoTransition b sim
  rw [replayBlock_eq hscan, push_validators (replayMid_window hs),
    push_sealed (replayMid_window hs), hlist.2]
  constructor
  · split_ifs with hc
    · have hmem : b.beneficiary ∈ (replayMid contract posdaoTransition b sim).validators := by
        simpa [counts, hlist.2, hsealed] using hc
      rw [discover_of_mem hmem, hlist.1]
    · exact hlist.1
  · exact hsealed

end Mid

/-- Half the list in force at a POSDAO block is half the number of signers of the window, and
the block's signer is on it. -/
def SameMajority (c : AuraConfig) (signers : ℕ) (b : AuraBlock) (rf : RollingFinality) : Prop :=
  b.beneficiary ∈ (listInForce c b rf).1 ∧ (listInForce c b rf).1.length / 2 = signers / 2

section Step
variable {seen : ℕ → Bool} {c : AuraConfig} {contract : Address} {discovered : List Address}
  {b : AuraBlock} {live sim : RollingFinality}

/-- Where the replay stands when a POSDAO block's signer is pushed. A call that only the live
tracker makes is harmless while the replay holds nothing. -/
theorem Follows.mid (hl : Between b.number live) (hs : Between b.number sim)
    (hp : c.posdaoTransition ≤ b.number)
    (hcontract : c.validators.contractAddressAt b.number = some contract)
    (hseen : seen b.number = receiptsContainInitiateChange b.receipts contract)
    (h : Follows seen live sim)
    (htake : sim.finalizeChangeAt.isSome = true → callsFinalizeChange c b live = true)
    (hcall : callsFinalizeChange c b live = true → sim.finalizeChangeAt = none →
      ∀ k : ℕ, sim.pendingTransitions[k]? = none) :
    Follows seen (afterRecord c b live) (replayMid contract c.posdaoTransition b sim) := by
  have hlp := afterPreExecution_pending c b live
  have hlh := afterPreExecution_headers hl.window hp
  have hsp := taken_pending sim b.number
  have hsh := taken_headers hs.before
  have hpre : Follows seen (afterPreExecution c b live) (sim.takeFinalizeChange b.number).2 := by
    by_cases hc : callsFinalizeChange c b live = true
    · rw [hc] at hlh
      cases hslot : sim.finalizeChangeAt with
      | some slot =>
        rw [hslot] at hsh
        exact h.cleared hlp hlh hsp hsh
      | none =>
        have hidle := hcall hc hslot
        apply Follows.of_no_pending
        · intro k hk
          rw [hlp]
          exact h.live_none (hidle k) hk
        · rw [hsp]
          exact hidle
    · have hslot : sim.finalizeChangeAt.isSome = false := by
        rw [Bool.eq_false_iff]
        exact fun hsome => hc (htake hsome)
      rw [hslot] at hsh
      rw [Bool.not_eq_true] at hc
      rw [hc] at hlh
      exact h.frame hlp hlh hsp hsh
  have hann : announces c b live =
      (receiptsContainInitiateChange b.receipts contract ||
        logsContainInitiateChange b.rewardLogs contract) := by
    rw [announces_eq, hcontract]
  rw [afterRecord_eq, hcontract]
  simp only [hp, ↓reduceIte, replayMid, replayRecord]
  by_cases hreceipts : receiptsContainInitiateChange b.receipts contract = true
  · have ha : announces c b live = true := by rw [hann, hreceipts, Bool.true_or]
    rw [if_pos ha, if_pos hreceipts]
    exact hpre.record_both (by rw [hseen, hreceipts])
      (hl.before.afterPreExecution hl.window).headers hs.takeFinalizeChange.before.headers contract
  · rw [if_neg hreceipts]
    rw [Bool.not_eq_true] at hreceipts
    split_ifs
    · exact hpre.record_live (by rw [hseen, hreceipts]) contract
    · exact hpre

theorem getLast?_of_forall_eq {α : Type} {l : List α} {x : α} (hall : ∀ y ∈ l, y = x)
    (hne : l ≠ []) : l.getLast? = some x := by
  obtain ⟨y, hy⟩ := List.exists_mem_of_ne_nil l hne
  obtain ⟨last, hmem, hlast⟩ := getLast?_of_mem hy
  rw [hlast, hall last hmem]

/-- One contract throughout: a push makes the same call due on both sides, or the replay makes
none due and the live tracker only for transitions that the replay does not know. -/
theorem Follows.due_cases (h : Follows seen live sim) {reported reportedSim : List (ℕ × Address)}
    (hreported : ∀ k, (sim.pendingTransitions[k]?).isSome = true →
      (k ∈ reported.map Prod.fst ↔ k ∈ reportedSim.map Prod.fst))
    (hcontract : ∀ (k : ℕ) (a : Address), live.pendingTransitions[k]? = some a → a = contract) :
    (transitionsDue reportedSim sim.pendingTransitions).getLast? =
        (transitionsDue reported live.pendingTransitions).getLast? ∨
      (transitionsDue reportedSim sim.pendingTransitions).getLast? = none ∧
        ((∀ k : ℕ, (live.pendingTransitions[k]?).isSome = true → seen k = true) →
          (transitionsDue reported live.pendingTransitions).getLast? = none) := by
  have hlive : ∀ y ∈ transitionsDue reported live.pendingTransitions, y = contract := by
    intro y hy
    obtain ⟨k, -, hk⟩ := mem_transitionsDue.mp hy
    exact hcontract k y hk
  by_cases hdue : transitionsDue reportedSim sim.pendingTransitions = []
  · right
    rw [List.getLast?_eq_none_iff, List.getLast?_eq_none_iff]
    refine ⟨hdue, ?_⟩
    intro hall
    rw [List.eq_nil_iff_forall_not_mem]
    intro y hy
    obtain ⟨k, hk, hpend⟩ := mem_transitionsDue.mp hy
    have hsim : sim.pendingTransitions[k]? = some y := by
      rw [h.pending k, hall k (by simp [hpend]), if_pos rfl, hpend]
    have hk' := (hreported k (by simp [hsim])).mp hk
    have hmem := mem_transitionsDue.mpr ⟨k, hk', hsim⟩
    simp [hdue] at hmem
  · left
    have hsim : ∀ y ∈ transitionsDue reportedSim sim.pendingTransitions, y = contract := by
      intro y hy
      obtain ⟨k, -, hk⟩ := mem_transitionsDue.mp hy
      exact hcontract k y (h.live_some hk).2
    have hne : transitionsDue reported live.pendingTransitions ≠ [] := by
      obtain ⟨y, hy⟩ := List.exists_mem_of_ne_nil _ hdue
      obtain ⟨k, hk, hpend⟩ := mem_transitionsDue.mp hy
      apply List.ne_nil_of_mem
      exact mem_transitionsDue.mpr
        ⟨k, (hreported k (by simp [hpend])).mpr hk, (h.live_some hpend).2⟩
    rw [getLast?_of_forall_eq hsim hdue, getLast?_of_forall_eq hlive hne]

theorem Follows.sim_none (h : Follows seen live sim) (hempty : live.pendingTransitions = ∅)
    (k : ℕ) : sim.pendingTransitions[k]? = none := by
  rw [h.pending k, (pending_eq_empty_iff _).mp hempty k, ite_self]

theorem samePush_of_sameMajority (hp : c.posdaoTransition ≤ b.number)
    (hlist : sim.validators = discovered) (hsigner : b.beneficiary ∈ discovered)
    (hsame : SameMajority c discovered.length b live) :
    SamePush (afterRecord c b live) (replayMid contract c.posdaoTransition b sim)
      b.beneficiary := by
  have hforce : (afterRecord c b live).validators = (listInForce c b live).1 := by
    rw [(afterRecord_frame c b live).2.1, ← afterPreExecution_list hp]
  have hmid := @replayMid_list contract c.posdaoTransition b sim
  have hmemLive : b.beneficiary ∈ (afterRecord c b live).validators := by
    rw [hforce]
    exact hsame.1
  have hmemSim : b.beneficiary ∈ (replayMid contract c.posdaoTransition b sim).validators := by
    rw [hmid.1, hlist]
    exact hsigner
  constructor
  · simp [counts, hmemLive]
  · simp [counts, hmemSim]
  · rw [discover_of_mem hmemLive, discover_of_mem hmemSim, hforce, hmid.1, hlist]
    exact hsame.2

theorem pending_afterRecord_cases (hp : c.posdaoTransition ≤ b.number) {k : ℕ} {a : Address}
    (hk : (afterRecord c b live).pendingTransitions[k]? = some a) :
    (announces c b live = true ∧ k = b.number ∧
        c.validators.contractAddressAt b.number = some a) ∨
      live.pendingTransitions[k]? = some a := by
  rw [afterRecord_pending hp] at hk
  split_ifs at hk with hnew
  · exact .inl ⟨hnew.1, hnew.2, hk⟩
  · exact .inr hk

theorem afterRecord_contracts {contract : Address} (hp : c.posdaoTransition ≤ b.number)
    (hcontract : c.validators.contractAddressAt b.number = some contract)
    (hall : ∀ (k : ℕ) (a : Address), live.pendingTransitions[k]? = some a → a = contract)
    (k : ℕ) (a : Address) (hk : (afterRecord c b live).pendingTransitions[k]? = some a) :
    a = contract := by
  rcases pending_afterRecord_cases hp hk with ⟨-, -, hcon⟩ | hold
  · rw [hcontract, Option.some.injEq] at hcon
    exact hcon.symm
  · exact hall k a hold

theorem Follows.live_pending (h : Follows seen (afterRecord c b live)
      (replayMid contract c.posdaoTransition b sim)) (hp : c.posdaoTransition ≤ b.number)
    (hany : ∃ k : ℕ,
      ((replayMid contract c.posdaoTransition b sim).pendingTransitions[k]?).isSome = true) :
    live.pendingTransitions ≠ ∅ ∨ announces c b live = true := by
  obtain ⟨k, hk⟩ := hany
  obtain ⟨a, ha⟩ := Option.isSome_iff_exists.mp hk
  rcases pending_afterRecord_cases hp (h.live_some ha).2 with hnew | hold
  · exact .inr hnew.1
  · left
    intro hempty
    rw [(pending_eq_empty_iff _).mp hempty k] at hold
    contradiction

theorem afterPreExecution_slot_none (hb : Before b.number live) (hbound : boundaryCall c b = none) :
    (afterPreExecution c b live).finalizeChangeAt = none := by
  rw [afterPreExecution_slot, consumedSlot_eq hb, if_pos hbound]
  cases live.finalizeChangeAt <;> rfl

theorem callsFinalizeChange_eq (hb : Before b.number live) (hbound : boundaryCall c b = none) :
    callsFinalizeChange c b live = live.finalizeChangeAt.isSome := by
  simp [callsFinalizeChange, hbound, hb.dueSlot]

/-- A POSDAO block of the window. The replay schedules the live tracker's call or none, and
none only if the live tracker finalized a transition that the replay does not know. -/
theorem Follows.posdaoBlock {scanner : ChainScanner} (h : Follows seen live sim)
    (hscan : Scanned scanner b) (hl : Between b.number live)
    (hs : Between b.number sim) (hp : c.posdaoTransition ≤ b.number)
    (hcontract : c.validators.contractAddressAt b.number = some contract)
    (hseen : seen b.number = receiptsContainInitiateChange b.receipts contract)
    (hlist : sim.validators = discovered) (hsigner : b.beneficiary ∈ discovered)
    (hcontracts : ∀ (k : ℕ) (a : Address), live.pendingTransitions[k]? = some a → a = contract)
    (htake : sim.finalizeChangeAt.isSome = true → callsFinalizeChange c b live = true)
    (hcall : callsFinalizeChange c b live = true → sim.finalizeChangeAt = none →
      ∀ k : ℕ, sim.pendingTransitions[k]? = none)
    (hsame : live.pendingTransitions ≠ ∅ ∨ announces c b live = true →
      SameMajority c discovered.length b live) :
    let replayed := replayBlock scanner contract c.posdaoTransition b.number sim
    Follows seen (liveBlock c b live) replayed ∧
      (replayed.finalizeChangeAt = (liveBlock c b live).finalizeChangeAt ∨
        replayed.finalizeChangeAt = none ∧
          (boundaryCall c b = none →
            (∀ k : ℕ, ((afterRecord c b live).pendingTransitions[k]?).isSome = true →
              seen k = true) →
            (liveBlock c b live).finalizeChangeAt = none)) := by
  have hmid := h.mid hl hs hp hcontract hseen htake hcall
  have hwl := WindowInv.afterRecord (c := c) (b := b) hl.window
  have hws := @replayMid_window contract c.posdaoTransition b sim hs
  have hpush := hmid.push hwl hws b.number (fun hany =>
    samePush_of_sameMajority hp hlist hsigner (hsame (hmid.live_pending hp hany)))
  have hrecorded := afterRecord_contracts hp hcontract hcontracts
  simp only [replayBlock_eq hscan]
  rw [liveBlock_eq, if_pos hp]
  refine ⟨hpush.2, ?_⟩
  rw [push_slot hwl, push_slot hws, replayMid_slot_posdao hs hp, Option.or_none]
  rcases hmid.due_cases hpush.1 hrecorded with heq | ⟨hnone, hlive⟩
  · rw [heq]
    cases (transitionsDue ((afterRecord c b live).push b.number b.beneficiary).1
      (afterRecord c b live).pendingTransitions).getLast? with
    | some a => exact .inl rfl
    | none =>
      refine .inr ⟨rfl, fun hbound _ => ?_⟩
      rw [afterRecord_slot_posdao hp, afterPreExecution_slot_none hl.before hbound]
      rfl
  · refine .inr ⟨by rw [hnone]; rfl, fun hbound hall => ?_⟩
    rw [hlive hall, afterRecord_slot_posdao hp, afterPreExecution_slot_none hl.before hbound]
    rfl

end Step

end RethGnosis
