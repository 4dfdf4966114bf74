import RethGnosis.Aura.FinalityWindow

set_option autoImplicit false

/-!
# Every tracker the public functions can make

The window invariant holds after any calls with any arguments, in any order. The loop
of `push` is translated a second time with the two places that must not be reached as
faults.
-/
namespace RethGnosis.RollingFinality

inductive Reachable : RollingFinality → Prop where
  | new (validators : List Address) : Reachable (.new validators)
  | fromRecovered (pendingTransitions : BTreeMap ℕ Address)
      (finalizeChangeAt : Option (ℕ × Address)) :
      Reachable (.fromRecovered pendingTransitions finalizeChangeAt)
  | push {rf : RollingFinality} (h : Reachable rf) (blockNumber : ℕ) (signer : Address) :
      Reachable (rf.push blockNumber signer).2
  | addPendingTransition {rf : RollingFinality} (h : Reachable rf) (blockNumber : ℕ)
      (contractAddress : Address) : Reachable (rf.addPendingTransition blockNumber contractAddress)
  | setImmediateFinalize {rf : RollingFinality} (h : Reachable rf) (targetBlock : ℕ)
      (contractAddress : Address) : Reachable (rf.setImmediateFinalize targetBlock contractAddress)
  | takeFinalizeChange {rf : RollingFinality} (h : Reachable rf) (blockNumber : ℕ) :
      Reachable (rf.takeFinalizeChange blockNumber).2
  | setValidators {rf : RollingFinality} (h : Reachable rf) (validators : List Address) :
      Reachable (rf.setValidators validators)

theorem Reachable.windowInv {rf : RollingFinality} (h : Reachable rf) : WindowInv rf := by
  induction h with
  | new validators => exact windowInv_new validators
  | fromRecovered pending slot => exact windowInv_fromRecovered pending slot
  | push _ n signer ih => exact ih.push n signer
  | addPendingTransition _ n contract ih => exact ih.addPendingTransition n contract
  | setImmediateFinalize _ target contract ih => exact ih.setImmediateFinalize target contract
  | takeFinalizeChange _ n ih => exact ih.takeFinalizeChange n
  | @setValidators rf _ validators _ => exact windowInv_setValidators rf validators

inductive LoopFault where
  | countUnderflow
  | emptyQueueBreak
deriving DecidableEq

/-- The `while self.is_finalized()` loop with its `break` and an underflowing `*count -= 1` as
faults. -/
def popFinalizedChecked :
    List (ℕ × Address) → RollingFinality → Except LoopFault (List (ℕ × Address) × RollingFinality)
  | [], rf => if rf.isFinalized then .error .emptyQueueBreak else .ok ([], rf)
  | (num, addr) :: rest, rf =>
    if rf.isFinalized then
      if rf.signCount[addr]? = some 0 then .error .countUnderflow
      else do
        let popped ← popFinalizedChecked rest
          { rf with headers := rest, signCount := Histogram.decrement rf.signCount addr }
        return ((num, addr) :: popped.1, popped.2)
    else
      .ok ([], rf)

def pushChecked (rf : RollingFinality) (blockNumber : ℕ) (signer : Address) :
    Except LoopFault (List (ℕ × Address) × RollingFinality) :=
  if rf.counts signer then do
    let queued := rf.enqueue blockNumber signer
    let popped ← popFinalizedChecked queued.headers queued
    return (popped.1, scheduleTransitions blockNumber popped.1 popped.2)
  else
    .ok ([], rf)

/-- Counts that are in step with the queue rule both faults out. -/
theorem popFinalizedChecked_eq (l : List (ℕ × Address)) (rf : RollingFinality)
    (hl : rf.headers = l) (h : Histogram.Counts rf.signCount (rf.headers.map Prod.snd)) :
    popFinalizedChecked l rf = .ok (popFinalized l rf) := by
  induction l generalizing rf with
  | nil =>
    have hfin : rf.isFinalized = false := by
      rw [isFinalized_eq h, hl, minority_nil]
      rfl
    simp [popFinalizedChecked, popFinalized, hfin]
  | cons e rest ih =>
    obtain ⟨num, addr⟩ := e
    rw [hl] at h
    have hcount : rf.signCount[addr]? = some ((rest.map Prod.snd).count addr + 1) := by
      simpa using h addr
    have hrest := ih
      { rf with headers := rest, signCount := Histogram.decrement rf.signCount addr } rfl
      h.decrement
    unfold popFinalizedChecked popFinalized
    split_ifs with hfin hzero
    · rw [hcount] at hzero
      simp at hzero
    · rw [hrest]
      rfl
    · rfl

theorem WindowInv.pushChecked_eq {rf : RollingFinality} (h : WindowInv rf) (n : ℕ)
    (signer : Address) : rf.pushChecked n signer = .ok (rf.push n signer) := by
  unfold pushChecked RollingFinality.push
  split_ifs
  · have hqueued : Histogram.Counts (rf.enqueue n signer).signCount
        ((rf.enqueue n signer).headers.map Prod.snd) := by
      have hinc := h.counted.increment signer
      simpa [enqueue] using hinc
    simp only [popFinalizedChecked_eq _ (rf.enqueue n signer) rfl hqueued]
    rfl
  · rfl

theorem window_inStep {rf : RollingFinality} (h : Reachable rf) :
    (∀ a, rf.signCount[a]? =
      if a ∈ rf.headers.map Prod.snd then some ((rf.headers.map Prod.snd).count a) else none) ∧
    (∀ e ∈ rf.headers, e.2 ∈ rf.validators) ∧
    (rf.headers.map Prod.snd).toFinset.card * 2 ≤ rf.validators.length ∧
    ∀ n signer, rf.pushChecked n signer = .ok (rf.push n signer) := by
  have hinv := h.windowInv
  have hminority := hinv.unfinalized
  simp only [minority, decide_eq_true_eq] at hminority
  exact ⟨hinv.counted, hinv.known, hminority, hinv.pushChecked_eq⟩

/-- A sealed set of three, two blocks by different signers: the first is popped. -/
theorem window_inStep_twoSigners :
    let rf := (((new []).setValidators [1#160, 2#160, 3#160]).push 1 1#160).2.push 2 2#160
    rf.1 = [(1, 1#160)] ∧ rf.2.signCount[1#160]? = none ∧
      (rf.2.headers.map Prod.snd).toFinset.card * 2 ≤ rf.2.validators.length ∧
      rf.2.pushChecked 3 3#160 = .ok (rf.2.push 3 3#160) := by
  have h := window_inStep
    ((((Reachable.new []).setValidators [1#160, 2#160, 3#160]).push 1 1#160).push 2 2#160)
  refine ⟨by decide +kernel, ?_, h.2.2.1, h.2.2.2 3 3#160⟩
  rw [h.1 1#160]
  decide +kernel

end RethGnosis.RollingFinality
