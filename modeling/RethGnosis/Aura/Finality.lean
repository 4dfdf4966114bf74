import RethGnosis.Primitives

set_option autoImplicit false

/-!
# The rolling finality tracker

`aura/finality.rs`: the queue of unfinalized blocks with its signer histogram,
the blocks that carry an unfinished validator-set change (with the contract that
announced it), and the one scheduled `finalizeChange()` call. Signers are
auto-discovered until `setValidators` seals the set. Block numbers are pre-merge
heights, so `+ 1` on them never leaves `u64`.
-/
namespace RethGnosis

structure RollingFinality where
  validators : List Address
  validatorsSealed : Bool
  headers : List (ℕ × Address)
  signCount : BTreeMap Address ℕ
  pendingTransitions : BTreeMap ℕ Address
  finalizeChangeAt : Option (ℕ × Address)
deriving DecidableEq

namespace RollingFinality

def new (validators : List Address) : RollingFinality where
  validators := validators
  validatorsSealed := false
  headers := []
  signCount := ∅
  pendingTransitions := ∅
  finalizeChangeAt := none

def fromRecovered (pendingTransitions : BTreeMap ℕ Address)
    (finalizeChangeAt : Option (ℕ × Address)) : RollingFinality where
  validators := []
  validatorsSealed := false
  headers := []
  signCount := ∅
  pendingTransitions := pendingTransitions
  finalizeChangeAt := finalizeChangeAt

def isFinalized (rf : RollingFinality) : Bool :=
  rf.validators.length < rf.signCount.size * 2

/-- The `hasSigner()` check of `push`: the signer is known, or the set may still grow. -/
def counts (rf : RollingFinality) (signer : Address) : Bool :=
  rf.validators.contains signer || !rf.validatorsSealed

/-- The `while self.is_finalized()` loop, on the queue it pops from the front. -/
def popFinalized : List (ℕ × Address) → RollingFinality → List (ℕ × Address) × RollingFinality
  | [], rf => ([], rf)
  | (num, addr) :: rest, rf =>
    if rf.isFinalized then
      let popped := popFinalized rest
        { rf with headers := rest, signCount := Histogram.decrement rf.signCount addr }
      ((num, addr) :: popped.1, popped.2)
    else
      ([], rf)

def scheduleTransitions (blockNumber : ℕ) : List (ℕ × Address) → RollingFinality → RollingFinality
  | [], rf => rf
  | (finalizedNum, _) :: rest, rf =>
    match rf.pendingTransitions[finalizedNum]? with
    | some contractAddr =>
      scheduleTransitions blockNumber rest
        { rf with
          pendingTransitions := rf.pendingTransitions.erase finalizedNum
          finalizeChangeAt := some (blockNumber + 1, contractAddr) }
    | none => scheduleTransitions blockNumber rest rf

/-- An unknown signer joins the list (only reached while the set is not sealed). -/
def discover (rf : RollingFinality) (signer : Address) : List Address :=
  if rf.validators.contains signer then rf.validators else rf.validators ++ [signer]

def enqueue (rf : RollingFinality) (blockNumber : ℕ) (signer : Address) : RollingFinality :=
  { rf with
    validators := rf.discover signer
    signCount := Histogram.increment rf.signCount signer
    headers := rf.headers ++ [(blockNumber, signer)] }

def push (rf : RollingFinality) (blockNumber : ℕ) (signer : Address) :
    List (ℕ × Address) × RollingFinality :=
  if rf.counts signer then
    let queued := rf.enqueue blockNumber signer
    let popped := popFinalized queued.headers queued
    (popped.1, scheduleTransitions blockNumber popped.1 popped.2)
  else
    ([], rf)

def setImmediateFinalize (rf : RollingFinality) (targetBlock : ℕ) (contractAddress : Address) :
    RollingFinality :=
  { rf with finalizeChangeAt := some (targetBlock, contractAddress) }

def addPendingTransition (rf : RollingFinality) (blockNumber : ℕ) (contractAddress : Address) :
    RollingFinality :=
  { rf with pendingTransitions := rf.pendingTransitions.insert blockNumber contractAddress }

def takeFinalizeChange (rf : RollingFinality) (blockNumber : ℕ) :
    Option Address × RollingFinality :=
  match rf.finalizeChangeAt with
  | some (targetBlock, addr) =>
    if targetBlock ≤ blockNumber then
      (some addr, { rf with finalizeChangeAt := none, headers := [], signCount := ∅ })
    else
      (none, rf)
  | none => (none, rf)

def setValidators (rf : RollingFinality) (validators : List Address) : RollingFinality :=
  { rf with
    validators := validators
    validatorsSealed := true
    headers := []
    signCount := ∅ }

def validatorCount (rf : RollingFinality) : ℕ := rf.validators.length

end RollingFinality

end RethGnosis
