import RethGnosis.Aura.LiveRun

set_option autoImplicit false

/-!
# Delivery of the due `finalizeChange()` calls

Block `n` makes a call due; the context of block `n + 1` should carry it and no
other block should. The boundary rule is asked first and leaves the slot alone,
so the call may be made again one block later, and one slot cannot hold the
calls of two contracts.
-/
namespace RethGnosis
open RollingFinality

section Due
variable (c : AuraConfig) (b : AuraBlock) (rf : RollingFinality)

def becomesDue : List Address :=
  if c.posdaoTransition ≤ b.number then
    transitionsDue ((afterRecord c b rf).push b.number b.beneficiary).1
      (afterRecord c b rf).pendingTransitions
  else if announces c b rf then (c.validators.contractAddressAt b.number).toList
  else []

end Due

/-- Every due contract is called at the next block of the run, and the slot that was
filled for it is consumed at no other block. -/
def DeliveredOnce (c : AuraConfig) (bs : List AuraBlock) (rf : RollingFinality) : Prop :=
  ∀ before b next after, bs = before ++ b :: next :: after →
    ∀ contract ∈ becomesDue c b (runLive c before rf),
      finalizeChangeAddress c next (runLive c (before ++ [b]) rf) = some contract ∧
        ∀ v ∈ executed c bs rf, v.1.number ≠ next.number →
          ∀ a, consumedSlot c v.1 v.2 ≠ some (next.number, a)

/-- One contract is due, and the next block is no boundary block, or it calls that contract
as one and the slot is not left for the block after it. -/
def SingleCall (c : AuraConfig) (b next : AuraBlock) (after : List AuraBlock)
    (rf : RollingFinality) (contract : Address) : Prop :=
  (∀ other ∈ becomesDue c b rf, other = contract) ∧
    (boundaryCall c next = none ∨ boundaryCall c next = some contract ∧
      (after = [] ∨ becomesDue c next (liveBlock c b rf) ≠ []))

section Step
variable {c : AuraConfig} {b : AuraBlock} {rf : RollingFinality}

theorem afterRecord_slot_posdao (hp : c.posdaoTransition ≤ b.number) :
    (afterRecord c b rf).finalizeChangeAt = (afterPreExecution c b rf).finalizeChangeAt := by
  rw [afterRecord_eq]
  cases c.validators.contractAddressAt b.number with
  | none => rfl
  | some contract =>
    simp only [hp, ↓reduceIte]
    split_ifs <;> rfl

theorem liveBlock_slot (h : WindowInv rf) :
    (liveBlock c b rf).finalizeChangeAt =
      ((becomesDue c b rf).getLast?.map (b.number + 1, ·)).or
        (if (consumedSlot c b rf).isSome then none else rf.finalizeChangeAt) := by
  have hw := WindowInv.afterRecord (c := c) (b := b) h
  rw [← afterPreExecution_slot, liveBlock_eq]
  by_cases hp : c.posdaoTransition ≤ b.number
  · rw [if_pos hp, ← afterRecord_slot_posdao hp]
    simp only [becomesDue, hp, ↓reduceIte]
    by_cases hc : (afterRecord c b rf).counts b.beneficiary = true
    · rw [push_finalizeChangeAt hw _ hc, push_fst hw _ hc]
    · rw [push_of_not_counts (by simpa using hc)]
      rfl
  · rw [if_neg hp]
    simp only [becomesDue, hp, ↓reduceIte]
    by_cases ha : announces c b rf = true
    · obtain ⟨contract, hc⟩ := announces_contract ha
      rw [afterRecord_of_announces ha hc, if_neg hp, hc]
      simp [ha, setImmediateFinalize]
    · rw [afterRecord_of_not_announces (by simpa using ha)]
      simp [ha]

theorem consumedSlot_eq (hb : Before b.number rf) :
    consumedSlot c b rf = if boundaryCall c b = none then rf.finalizeChangeAt else none := by
  simp only [consumedSlot, hb.dueSlot]

/-- A block leaves a slot for its successor when something became due, or when it is a
boundary block and found one. -/
theorem liveBlock_slot_before (h : WindowInv rf) (hb : Before b.number rf) :
    (liveBlock c b rf).finalizeChangeAt =
      ((becomesDue c b rf).getLast?.map (b.number + 1, ·)).or
        (if boundaryCall c b = none then none else rf.finalizeChangeAt) := by
  rw [liveBlock_slot h, consumedSlot_eq hb]
  by_cases hcall : boundaryCall c b = none
  · simp only [hcall, ↓reduceIte]
    cases rf.finalizeChangeAt <;> rfl
  · simp [hcall]

theorem getLast?_of_mem {α : Type} {l : List α} {x : α} (hx : x ∈ l) :
    ∃ last ∈ l, l.getLast? = some last := by
  cases hl : l.getLast? with
  | none =>
    rw [List.getLast?_eq_none_iff] at hl
    simp [hl] at hx
  | some last => exact ⟨last, List.mem_of_getLast? hl, rfl⟩

def NoSlotFor (target : ℕ) (rf : RollingFinality) : Prop :=
  ∀ a, rf.finalizeChangeAt ≠ some (target, a)

theorem NoSlotFor.liveBlock {target : ℕ} (h : WindowInv rf) (hn : NoSlotFor target rf)
    (ht : target ≤ b.number) : NoSlotFor target (liveBlock c b rf) := by
  intro a hslot
  rw [liveBlock_slot h, Option.or_eq_some_iff] at hslot
  rcases hslot with hdue | ⟨-, hold⟩
  · rw [Option.map_eq_some_iff] at hdue
    obtain ⟨d, -, hd⟩ := hdue
    simp only [Prod.mk.injEq] at hd
    omega
  · split_ifs at hold
    exact hn a hold

theorem NoSlotFor.executed {target n : ℕ} {bs : List AuraBlock} (h : Between n rf)
    (hbs : Consecutive n bs) (ht : target ≤ n) (hn : NoSlotFor target rf)
    {v : AuraBlock × RollingFinality} (hv : v ∈ executed c bs rf) : NoSlotFor target v.2 := by
  have hinv : ∃ m, Consecutive m bs ∧ Between m rf ∧ target ≤ m ∧ NoSlotFor target rf :=
    ⟨n, hbs, h, ht, hn⟩
  have hall := (@Run.invariant_remaining _ _ (RethGnosis.liveBlock c)
    (fun bs rf => ∃ m, Consecutive m bs ∧ Between m rf ∧ target ≤ m ∧ NoSlotFor target rf)
    (by
      rintro b rest s ⟨m, ⟨hm, hrest⟩, hs, htm, hns⟩
      subst hm
      exact ⟨b.number + 1, hrest, hs.liveBlock, by omega, hns.liveBlock hs.window htm⟩)
    bs rf hinv).2 v hv
  obtain ⟨rest, m, -, -, -, hns⟩ := hall
  exact hns

theorem consumedSlot_le (hb : Before b.number rf) {t : ℕ} {a : Address}
    (hs : consumedSlot c b rf = some (t, a)) : t ≤ b.number := by
  rw [consumedSlot_eq hb] at hs
  split_ifs at hs
  exact hb.slot t a hs

theorem consumedSlot_ne_of_noSlotFor {target : ℕ} (hb : Before b.number rf)
    (hn : NoSlotFor target rf) (a : Address) : consumedSlot c b rf ≠ some (target, a) := by
  intro hs
  rw [consumedSlot_eq hb] at hs
  split_ifs at hs
  exact hn a hs

end Step

section Adjacent
variable {c : AuraConfig} {b next : AuraBlock} {rf : RollingFinality}

theorem finalizeChangeAddress_before (hb : Before next.number rf) :
    finalizeChangeAddress c next rf =
      (boundaryCall c next).or (rf.finalizeChangeAt.map Prod.snd) := by
  rw [finalizeChangeAddress_eq, consumedSlot_eq hb]
  cases boundaryCall c next <;> simp

/-- All calls due at one block are delivered at the next exactly when it makes the one call. -/
theorem delivered_iff (h : Between b.number rf) (hnext : next.number = b.number + 1) :
    (∀ contract ∈ becomesDue c b rf,
        finalizeChangeAddress c next (liveBlock c b rf) = some contract) ↔
      ∀ contract ∈ becomesDue c b rf, (∀ other ∈ becomesDue c b rf, other = contract) ∧
        (boundaryCall c next = none ∨ boundaryCall c next = some contract) := by
  have hlive : Before next.number (liveBlock c b rf) := by
    rw [hnext]
    exact h.liveBlock.before
  constructor
  · intro hall contract hcontract
    constructor
    · intro other hother
      have heq := (hall other hother).symm.trans (hall contract hcontract)
      exact Option.some.inj heq
    · have hcall := hall contract hcontract
      rw [finalizeChangeAddress_before hlive] at hcall
      cases hbound : boundaryCall c next with
      | none => exact .inl rfl
      | some d =>
        rw [hbound] at hcall
        exact .inr hcall
  · intro hall contract hcontract
    obtain ⟨hsame, hbound⟩ := hall contract hcontract
    rw [finalizeChangeAddress_before hlive]
    rcases hbound with hbound | hbound
    · obtain ⟨last, hlast, heq⟩ := getLast?_of_mem hcontract
      rw [liveBlock_slot_before h.window h.before, heq, hbound, hsame last hlast]
      rfl
    · rw [hbound]
      rfl

theorem noSlotFor_next_iff (h : Between b.number rf) (hnext : next.number = b.number + 1)
    (hdue : becomesDue c b rf ≠ []) :
    NoSlotFor next.number (liveBlock c next (liveBlock c b rf)) ↔
      boundaryCall c next = none ∨ becomesDue c next (liveBlock c b rf) ≠ [] := by
  have hlive : Between next.number (liveBlock c b rf) := by
    rw [hnext]
    exact h.liveBlock
  obtain ⟨x, hx⟩ := List.exists_mem_of_ne_nil _ hdue
  obtain ⟨last, -, hlast⟩ := getLast?_of_mem hx
  have hslot : (liveBlock c b rf).finalizeChangeAt = some (next.number, last) := by
    rw [liveBlock_slot_before h.window h.before, hlast, hnext]
    rfl
  have hafter := liveBlock_slot_before (c := c) hlive.window hlive.before
  rw [hslot] at hafter
  constructor
  · intro hno
    by_contra hboth
    rw [not_or, not_not] at hboth
    rw [hboth.2, if_neg hboth.1] at hafter
    exact hno last hafter
  · intro hor a ha
    rw [hafter] at ha
    cases hd : (becomesDue c next (liveBlock c b rf)).getLast? with
    | some d =>
      rw [hd] at ha
      simp at ha
    | none =>
      rw [List.getLast?_eq_none_iff] at hd
      have hbound := hor.resolve_right (fun hne => hne hd)
      rw [hd, if_pos hbound] at ha
      simp at ha

end Adjacent

theorem boundaryCall_after_boundary {c : AuraConfig} {b next third : AuraBlock}
    (hnext : next.number = b.number + 1) (hthird : third.number = next.number + 1)
    (hbound : boundaryCall c next ≠ none) : boundaryCall c third = none := by
  obtain ⟨d, hd⟩ := Option.ne_none_iff_exists'.mp hbound
  unfold boundaryCall at hd ⊢
  rw [hnext] at hd
  rw [hthird, hnext]
  exact boundary_not_twice hd

/-- A slot that is left over is consumed by the first block that is no boundary block. -/
theorem never_consumed_iff {c : AuraConfig} {live : RollingFinality} {after : List AuraBlock}
    {m target : ℕ} (hlive : Between m live) (hafter : Consecutive m after) (ht : target ≤ m)
    (hquiet : ∀ third rest, after = third :: rest →
      NoSlotFor target live ∨ boundaryCall c third = none) :
    (∀ v ∈ executed c after live, ∀ a, consumedSlot c v.1 v.2 ≠ some (target, a)) ↔
      after = [] ∨ NoSlotFor target live := by
  constructor
  · intro hall
    cases after with
    | nil => exact .inl rfl
    | cons third rest =>
      right
      rcases hquiet third rest rfl with hnone | hbound
      · exact hnone
      · intro a ha
        apply hall (third, live) List.mem_cons_self a
        have hbefore : Before third.number live := by
          rw [hafter.1]
          exact hlive.before
        rw [consumedSlot_eq hbefore, if_pos hbound]
        exact ha
  · rintro (rfl | hnone) v hv a
    · simp [executed, Run.visits] at hv
    · have hstate := NoSlotFor.executed hlive hafter ht hnone hv
      exact consumedSlot_ne_of_noSlotFor (hlive.executed hafter hv).before hstate a

theorem consumed_nowhere_else_iff {c : AuraConfig} {before after : List AuraBlock}
    {b next : AuraBlock} {n : ℕ} {rf : RollingFinality}
    (hbs : Consecutive n (before ++ b :: next :: after)) (h : Between n rf)
    (hdue : becomesDue c b (runLive c before rf) ≠ []) :
    (∀ v ∈ executed c (before ++ b :: next :: after) rf, v.1.number ≠ next.number →
        ∀ a, consumedSlot c v.1 v.2 ≠ some (next.number, a)) ↔
      boundaryCall c next = none ∨ after = [] ∨
        becomesDue c next (liveBlock c b (runLive c before rf)) ≠ [] := by
  obtain ⟨hbefore, hb, hn, hafter⟩ := Consecutive.append.mp hbs
  have hnext : next.number = b.number + 1 := by omega
  have hrun : Between b.number (runLive c before rf) := by
    rw [hb]
    exact h.runLive hbefore
  have hmid : Between next.number (liveBlock c b (runLive c before rf)) := by
    rw [hnext]
    exact hrun.liveBlock
  rw [← hn] at hafter
  have hno := noSlotFor_next_iff hrun hnext hdue
  have hlater := never_consumed_iff hmid.liveBlock hafter (Nat.le_succ next.number)
    (by
      rintro third rest rfl
      by_cases hbound : boundaryCall c next = none
      · exact .inl (hno.mpr (.inl hbound))
      · exact .inr (boundaryCall_after_boundary hnext hafter.1 hbound))
  rw [executed_split, runLive_append_single]
  constructor
  · intro hall
    have hnever : ∀ v ∈ executed c after (liveBlock c next (liveBlock c b (runLive c before rf))),
        ∀ a, consumedSlot c v.1 v.2 ≠ some (next.number, a) := by
      intro v hv
      have hbounds := hafter.mem_bounds (executed_mem hv)
      exact hall v (List.mem_append_right _ (List.mem_cons_of_mem _ hv)) (by omega)
    rcases hlater.mp hnever with hnil | hnone
    · exact .inr (.inl hnil)
    · exact (hno.mp hnone).imp_right .inr
  · intro hcond v hv hne
    rw [List.mem_append, List.mem_cons] at hv
    rcases hv with hv | rfl | hv
    · intro a hs
      have hbound : Consecutive n (before ++ [b]) := Consecutive.append.mpr ⟨hbefore, hb, trivial⟩
      have hle := consumedSlot_le (h.executed hbound hv).before hs
      have hlt := (hbound.mem_bounds (executed_mem hv)).2
      rw [List.length_append, List.length_singleton] at hlt
      omega
    · exact (hne rfl).elim
    · apply hlater.mpr ?_ v hv
      rcases hcond with hquiet | hnil | hmore
      · exact .inr (hno.mpr (.inl hquiet))
      · exact .inl hnil
      · exact .inr (hno.mpr (.inr hmore))

/-- A run delivers every due call exactly once, at the next block, exactly when each due call
meets `SingleCall`. -/
theorem deliveredOnce_iff {c : AuraConfig} {bs : List AuraBlock} {n : ℕ} {rf : RollingFinality}
    (hbs : Consecutive n bs) (h : Between n rf) :
    DeliveredOnce c bs rf ↔
      ∀ before b next after, bs = before ++ b :: next :: after →
        ∀ contract ∈ becomesDue c b (runLive c before rf),
          SingleCall c b next after (runLive c before rf) contract := by
  apply forall_congr'
  intro before
  apply forall_congr'
  intro b
  apply forall_congr'
  intro next
  apply forall_congr'
  intro after
  apply imp_congr_right
  rintro rfl
  obtain ⟨hbefore, hb, hn, -⟩ := Consecutive.append.mp hbs
  have hnext : next.number = b.number + 1 := by omega
  have hrun : Between b.number (runLive c before rf) := by
    rw [hb]
    exact h.runLive hbefore
  have hdelivered := delivered_iff (c := c) hrun hnext
  rw [runLive_append_single]
  constructor
  · intro hall contract hcontract
    have hsame := hdelivered.mp (fun d hd => (hall d hd).1) contract hcontract
    have honce := (consumed_nowhere_else_iff hbs h (List.ne_nil_of_mem hcontract)).mp
      (hall contract hcontract).2
    refine ⟨hsame.1, ?_⟩
    tauto
  · intro hall contract hcontract
    have hcall := hdelivered.mpr (fun d hd => ⟨(hall d hd).1, (hall d hd).2.imp_right And.left⟩)
    refine ⟨hcall contract hcontract, ?_⟩
    rw [consumed_nowhere_else_iff hbs h (List.ne_nil_of_mem hcontract)]
    exact (hall contract hcontract).2.imp_right And.right

def activationBlockChange : List AuraBlock :=
  let event : Receipt := ⟨0, true, 21000, [⟨9#160, [INITIATE_CHANGE_TOPIC], []⟩]⟩
  [⟨10, 1#160, [event], [], [], []⟩, ⟨11, 2#160, [], [], [], []⟩, ⟨12, 3#160, [], [], [], []⟩]

theorem deliveredOnce_iff_activationBlockChange :
    DeliveredOnce (contractFrom 10 9#160 100) activationBlockChange (new []) ↔
      ∀ before b next after, activationBlockChange = before ++ b :: next :: after →
        ∀ contract ∈ becomesDue (contractFrom 10 9#160 100) b
            (runLive (contractFrom 10 9#160 100) before (new [])),
          SingleCall (contractFrom 10 9#160 100) b next after
            (runLive (contractFrom 10 9#160 100) before (new [])) contract :=
  deliveredOnce_iff (n := 10) ⟨rfl, rfl, rfl, trivial⟩ (between_new 10 [])

/-- Block 11 calls `finalizeChange()` as a boundary block, and block 12 calls it again. -/
theorem activationBlockChange_calledTwice :
    Consecutive 10 activationBlockChange ∧
      ¬ DeliveredOnce (contractFrom 10 9#160 100) activationBlockChange (new []) := by
  constructor
  · exact ⟨rfl, rfl, rfl, trivial⟩
  · intro h
    have honce := (h [] _ _ _ rfl 9#160 (by decide)).2
      (activationBlockChange.getLast (by decide), runLive (contractFrom 10 9#160 100)
        activationBlockChange.dropLast (new [])) (by decide) (by decide) 9#160
    revert honce
    decide

end RethGnosis
