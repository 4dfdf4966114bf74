import RethGnosis.Aura.LiveRun

set_option autoImplicit false

/-!
# Pending transitions and the queue

A pending transition can only be finalized while its block is still queued.
Nothing in the tracker ties the two collections together: a `finalizeChange()`
call empties the queue and leaves the pending transitions, and a block whose
signer is unknown is recorded without being queued. This module states exactly
which runs keep them together, and that a transition left behind stays behind.
-/
namespace RethGnosis
open RollingFinality

/-- Block `k` announced a change that is still pending, and it is no longer queued. -/
def Stranded (k : ℕ) (rf : RollingFinality) : Prop :=
  (rf.pendingTransitions[k]?).isSome = true ∧ k ∉ rf.headers.map Prod.fst

def AllQueued (rf : RollingFinality) : Prop :=
  ∀ k, (rf.pendingTransitions[k]?).isSome = true → k ∈ rf.headers.map Prod.fst

/-- What a block must meet to orphan nothing: no transition is pending when it calls
`finalizeChange()`, and if it announces a change its own signer is counted. -/
structure KeepsQueued (c : AuraConfig) (b : AuraBlock) (rf : RollingFinality) : Prop where
  call : callsFinalizeChange c b rf = true → rf.pendingTransitions = ∅
  signer : announces c b rf = true →
    b.beneficiary ∈ (listInForce c b rf).1 ∨ (listInForce c b rf).2 = false

theorem allQueued_iff (rf : RollingFinality) : AllQueued rf ↔ ∀ k, ¬ Stranded k rf := by
  constructor
  · rintro h k ⟨hk, hnot⟩
    exact hnot (h k hk)
  · intro h k hk
    by_contra hnot
    exact h k ⟨hk, hnot⟩

theorem allQueued_new (validators : List Address) : AllQueued (new validators) := by
  intro k hk
  simp [new] at hk

theorem pending_eq_empty_iff (m : BTreeMap ℕ Address) : m = ∅ ↔ ∀ k : ℕ, m[k]? = none := by
  constructor
  · rintro rfl k
    exact Std.ExtTreeMap.getElem?_empty
  · intro h
    apply Std.ExtTreeMap.ext_getElem?
    intro k
    rw [h k, Std.ExtTreeMap.getElem?_empty]

theorem stranded_push_iff {rf : RollingFinality} (h : WindowInv rf) (n : ℕ) (signer : Address)
    (k : ℕ) :
    Stranded k (rf.push n signer).2 ↔ Stranded k rf ∧ (rf.counts signer = true → k ≠ n) := by
  by_cases hc : rf.counts signer = true
  · have hsplit := congrArg (fun l => k ∈ l.map Prod.fst) (popped_append_headers h n hc)
    simp only [List.map_append, List.mem_append, List.map_cons, List.map_nil,
      List.mem_singleton, eq_iff_iff] at hsplit
    simp only [Stranded, push_pending h n hc, hc, forall_const]
    by_cases hk : k ∈ (rf.popped n signer).map Prod.fst
    · have hold := hsplit.mp (.inl hk)
      simp only [hk, ↓reduceIte, Option.isSome_none, Bool.false_eq_true, false_and, false_iff]
      tauto
    · simp only [hk, ↓reduceIte, false_or] at hsplit ⊢
      rw [hsplit]
      tauto
  · rw [push_of_not_counts (by simpa using hc)]
    simp [hc]

section Step
variable {c : AuraConfig} {b : AuraBlock} {rf : RollingFinality}

theorem afterRecord_pending (hp : c.posdaoTransition ≤ b.number) (k : ℕ) :
    (afterRecord c b rf).pendingTransitions[k]? =
      if announces c b rf = true ∧ k = b.number then c.validators.contractAddressAt b.number
      else rf.pendingTransitions[k]? := by
  by_cases ha : announces c b rf = true
  · obtain ⟨contract, hc⟩ := announces_contract ha
    rw [afterRecord_of_announces ha hc, if_pos hp]
    simp only [addPendingTransition, afterPreExecution_pending, Std.ExtTreeMap.getElem?_insert,
      Nat.compare_eq_eq, ha, true_and, hc]
    by_cases hk : k = b.number
    · simp [hk]
    · simp [hk, Ne.symm hk]
  · rw [afterRecord_of_not_announces (by simpa using ha), afterPreExecution_pending]
    simp [ha]

theorem afterRecord_headers (h : WindowInv rf) (hp : c.posdaoTransition ≤ b.number) :
    (afterRecord c b rf).headers = if callsFinalizeChange c b rf then [] else rf.headers := by
  rw [(afterRecord_frame c b rf).1, afterPreExecution_headers h hp]

theorem afterRecord_counts (hp : c.posdaoTransition ≤ b.number) (signer : Address) :
    (afterRecord c b rf).counts signer = true ↔
      signer ∈ (listInForce c b rf).1 ∨ (listInForce c b rf).2 = false := by
  have hframe := afterRecord_frame c b rf
  simp only [counts, hframe.2.1, hframe.2.2, ← afterPreExecution_list hp, Bool.or_eq_true,
    List.contains_iff_mem, Bool.not_eq_true']

/-- An older transition is stranded once its block has left the queue, for good, and by
every `finalizeChange()` call. -/
theorem stranded_liveBlock_older (h : WindowInv rf) (hp : c.posdaoTransition ≤ b.number) {k : ℕ}
    (hk : k < b.number) :
    Stranded k (liveBlock c b rf) ↔ (rf.pendingTransitions[k]?).isSome = true ∧
      (k ∉ rf.headers.map Prod.fst ∨ callsFinalizeChange c b rf = true) := by
  have hne : k ≠ b.number := by omega
  rw [liveBlock_eq, if_pos hp, stranded_push_iff (WindowInv.afterRecord h)]
  simp only [Stranded, afterRecord_pending hp, afterRecord_headers h hp, hne, and_false,
    ↓reduceIte, ne_eq, not_false_eq_true, implies_true, and_true]
  by_cases hf : callsFinalizeChange c b rf = true
  · simp [hf]
  · simp [hf]

theorem stranded_liveBlock_own (h : WindowInv rf) (hb : Before b.number rf)
    (hp : c.posdaoTransition ≤ b.number) :
    Stranded b.number (liveBlock c b rf) ↔ announces c b rf = true ∧
      ¬ (b.beneficiary ∈ (listInForce c b rf).1 ∨ (listInForce c b rf).2 = false) := by
  have hfresh : rf.pendingTransitions[b.number]? = none := by
    cases hpend : rf.pendingTransitions[b.number]? with
    | none => rfl
    | some a =>
      have := hb.pending _ _ hpend
      omega
  have hout : b.number ∉ (afterRecord c b rf).headers.map Prod.fst := by
    rw [afterRecord_headers h hp]
    intro hmem
    split_ifs at hmem
    · simp at hmem
    · obtain ⟨e, he, heq⟩ := List.mem_map.mp hmem
      have := hb.headers e he
      omega
  rw [liveBlock_eq, if_pos hp, stranded_push_iff (WindowInv.afterRecord h),
    ← afterRecord_counts hp]
  simp only [Stranded, hout, not_false_eq_true, and_true, ne_eq, not_true_eq_false, imp_false,
    afterRecord_pending hp, hfresh]
  constructor
  · rintro ⟨hsome, hcount⟩
    by_cases ha : announces c b rf = true
    · exact ⟨ha, hcount⟩
    · simp [ha] at hsome
  · rintro ⟨ha, hcount⟩
    obtain ⟨contract, hcontract⟩ := announces_contract ha
    exact ⟨by simp [ha, hcontract], hcount⟩

theorem Before.not_stranded {n k : ℕ} (hb : Before n rf) (hk : n ≤ k) : ¬ Stranded k rf := by
  rintro ⟨hsome, -⟩
  obtain ⟨a, ha⟩ := Option.isSome_iff_exists.mp hsome
  have := hb.pending k a ha
  omega

/-- A stranded transition stays stranded: no later block finalizes it. -/
theorem Stranded.liveBlock (h : WindowInv rf) (hb : Before b.number rf)
    (hp : c.posdaoTransition ≤ b.number) {k : ℕ} (hk : Stranded k rf) :
    Stranded k (liveBlock c b rf) := by
  have hlt : k < b.number := by
    by_contra hge
    exact hb.not_stranded (by omega) hk
  exact (stranded_liveBlock_older h hp hlt).mpr ⟨hk.1, .inl hk.2⟩

theorem allQueued_step_iff (h : WindowInv rf) (hb : Before b.number rf)
    (hp : c.posdaoTransition ≤ b.number) (hq : AllQueued rf) :
    AllQueued (liveBlock c b rf) ↔ KeepsQueued c b rf := by
  rw [allQueued_iff]
  constructor
  · intro hlive
    constructor
    · intro hf
      rw [pending_eq_empty_iff]
      intro k
      cases hk : rf.pendingTransitions[k]? with
      | none => rfl
      | some a =>
        have hlt := hb.pending k a hk
        have hstranded := (stranded_liveBlock_older h hp hlt).mpr ⟨by simp [hk], .inr hf⟩
        exact absurd hstranded (hlive k)
    · intro ha
      by_contra hcount
      exact hlive b.number ((stranded_liveBlock_own h hb hp).mpr ⟨ha, hcount⟩)
  · intro hkeep k hk
    rcases Nat.lt_trichotomy k b.number with hlt | heq | hgt
    · have hold := (stranded_liveBlock_older h hp hlt).mp hk
      rcases hold.2 with hout | hf
      · exact hout (hq k hold.1)
      · rw [hkeep.call hf] at hold
        simp at hold
    · subst heq
      have hown := (stranded_liveBlock_own h hb hp).mp hk
      exact hown.2 (hkeep.signer hown.1)
    · exact (hb.liveBlock h).not_stranded hgt hk

end Step

/-- A run of POSDAO blocks orphans no transition exactly when every block meets `KeepsQueued`. -/
theorem no_orphans_iff {c : AuraConfig} {bs : List AuraBlock} {n : ℕ} {rf : RollingFinality}
    (hbs : Consecutive n bs) (hp : c.posdaoTransition ≤ n) (h : Between n rf)
    (hq : AllQueued rf) :
    (∀ v ∈ executed c bs rf, AllQueued (liveBlock c v.1 v.2)) ↔
      ∀ v ∈ executed c bs rf, KeepsQueued c v.1 v.2 := by
  have hrun : ∃ m, Consecutive m bs ∧ c.posdaoTransition ≤ m ∧ Between m rf := ⟨n, hbs, hp, h⟩
  apply @Run.kept_iff_guarded _ _ (liveBlock c) AllQueued (KeepsQueued c)
    (fun bs rf => ∃ m, Consecutive m bs ∧ c.posdaoTransition ≤ m ∧ Between m rf)
    _ _ bs rf hrun hq
  · rintro b rest s ⟨m, ⟨hm, hrest⟩, hpm, hs⟩
    subst hm
    exact ⟨b.number + 1, hrest, by omega, hs.liveBlock⟩
  · rintro b rest s ⟨m, ⟨hm, -⟩, hpm, hs⟩ hqs
    subst hm
    exact allQueued_step_iff hs.window hs.before hpm hqs

theorem Stranded.runLive {c : AuraConfig} {bs : List AuraBlock} {n k : ℕ} {rf : RollingFinality}
    (hk : Stranded k rf) (hbs : Consecutive n bs) (hp : c.posdaoTransition ≤ n)
    (h : Between n rf) : Stranded k (runLive c bs rf) := by
  induction bs generalizing n rf with
  | nil => exact hk
  | cons b rest ih =>
    obtain ⟨hn, hrest⟩ := hbs
    subst hn
    exact ih (hk.liveBlock h.window h.before hp) hrest (by omega) h.liveBlock

theorem call_idle_of_settled {c : AuraConfig} {bs : List AuraBlock} {n : ℕ} {rf : RollingFinality}
    (hbs : Consecutive n bs) (hp : c.posdaoTransition ≤ n) (h : Between n rf)
    (hsettled : (runLive c bs rf).pendingTransitions = ∅)
    {v : AuraBlock × RollingFinality} (hv : v ∈ executed c bs rf)
    (hcall : callsFinalizeChange c v.1 v.2 = true) : v.2.pendingTransitions = ∅ := by
  have hbetween := h.executed hbs hv
  obtain ⟨before, after, rfl, hstate⟩ := Run.mem_visits_iff.mp hv
  obtain ⟨-, hnumber, hafter⟩ := Consecutive.append.mp hbs
  have hend : RethGnosis.runLive c (before ++ v.1 :: after) rf =
      RethGnosis.runLive c after (liveBlock c v.1 v.2) := by
    rw [hstate]
    exact Run.run_append before (v.1 :: after) rf
  rw [pending_eq_empty_iff]
  intro k
  cases hk : v.2.pendingTransitions[k]? with
  | none => rfl
  | some a =>
    have hlt := hbetween.before.pending k a hk
    have hstranded := (stranded_liveBlock_older hbetween.window (by omega) hlt).mpr
      ⟨by simp [hk], .inr hcall⟩
    rw [← hnumber] at hafter
    have hfinal : Stranded k (RethGnosis.runLive c after (liveBlock c v.1 v.2)) :=
      hstranded.runLive hafter (by omega) hbetween.liveBlock
    rw [← hend] at hfinal
    have hsome := hfinal.1
    rw [hsettled] at hsome
    simp at hsome

/-- Three validators, contract 9 from block 0; `InitiateChange` at blocks 1 and 2. Block 2
finalizes block 1, so block 3 calls `finalizeChange()` while block 2 is still queued. -/
def overlappingChanges : List AuraBlock :=
  let event : Receipt := ⟨0, true, 21000, [⟨9#160, [INITIATE_CHANGE_TOPIC], []⟩]⟩
  [⟨1, 1#160, [event], [], [1#160, 2#160, 3#160], []⟩,
   ⟨2, 2#160, [event], [], [1#160, 2#160, 3#160], []⟩,
   ⟨3, 3#160, [], [], [1#160, 2#160, 3#160], [1#160, 2#160, 3#160]⟩]

theorem no_orphans_iff_overlappingChanges :
    (∀ v ∈ executed (contractFrom 0 9#160 0) overlappingChanges (new []),
        AllQueued (liveBlock (contractFrom 0 9#160 0) v.1 v.2)) ↔
      ∀ v ∈ executed (contractFrom 0 9#160 0) overlappingChanges (new []),
        KeepsQueued (contractFrom 0 9#160 0) v.1 v.2 :=
  no_orphans_iff (n := 1) ⟨rfl, rfl, rfl, trivial⟩ (by decide) (between_new 1 [])
    (allQueued_new [])

theorem overlappingChanges_orphan :
    Consecutive 1 overlappingChanges ∧
      ¬ ∀ v ∈ executed (contractFrom 0 9#160 0) overlappingChanges (new []),
        AllQueued (liveBlock (contractFrom 0 9#160 0) v.1 v.2) := by
  constructor
  · exact ⟨rfl, rfl, rfl, trivial⟩
  · intro h
    have hlast := h (overlappingChanges.getLast (by decide), runLive (contractFrom 0 9#160 0)
      overlappingChanges.dropLast (new [])) (by decide)
    have hqueued := hlast 2 (by decide)
    revert hqueued
    decide

end RethGnosis
