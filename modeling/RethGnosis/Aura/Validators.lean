import RethGnosis.Primitives

set_option autoImplicit false

/-!
# Validator sets by block number

The transition map of `aura/validators.rs` (activation block to set kind, never
empty), and the boundary rule of `evm_config.rs` that decides from it alone where
`finalizeChange()` is due: at block 0 and on the first block after a
list-to-contract transition block.
-/
namespace RethGnosis

inductive ValidatorSetKind where
  | list (validators : List Address)
  | contract (address : Address)
deriving DecidableEq

structure ValidatorSet where
  sets : BTreeMap ℕ ValidatorSetKind
  nonempty : sets.isEmpty = false

inductive ValidatorSetError where
  | empty
deriving DecidableEq

structure AuraConfig where
  stepDuration : ℕ
  validators : ValidatorSet
  blockRewardContractTransitions : BTreeMap ℕ Address
  posdaoTransition : ℕ
  rewriteBytecode : BTreeMap ℕ (BTreeMap Address Bytes)

namespace ValidatorSet

def new (sets : BTreeMap ℕ ValidatorSetKind) : Except ValidatorSetError ValidatorSet :=
  if h : sets.isEmpty = false then .ok ⟨sets, h⟩ else .error .empty

/-- `sets.range(..=block_number).next_back()`: the highest activation block at or below. -/
def kindAt (vs : ValidatorSet) (blockNumber : ℕ) : Option ValidatorSetKind :=
  (vs.sets.toList.filter (fun entry => entry.1 ≤ blockNumber)).getLast?.map Prod.snd

def contractAddressAt (vs : ValidatorSet) (blockNumber : ℕ) : Option Address :=
  match vs.kindAt blockNumber with
  | some (.contract address) => some address
  | some (.list _) => none
  | none => none

def tryGetListValidators (vs : ValidatorSet) (blockNumber : ℕ) : Option (List Address) :=
  match vs.kindAt blockNumber with
  | some (.list addrs) => some addrs
  | some (.contract _) => none
  | none => none

/-- Round-robin over the list; `none` for an empty one. -/
def expectedProposer (step : ℕ) (validators : List Address) : Option Address :=
  validators[step % validators.length]?

end ValidatorSet

def computeFinalizeChangeAddressFromValidators (validators : ValidatorSet) (blockNumber : ℕ) :
    Option Address :=
  if blockNumber = 0 then
    validators.contractAddressAt 0
  else
    match validators.contractAddressAt blockNumber with
    | none => none
    | some currentContract =>
      let parentContract := validators.contractAddressAt (blockNumber - 1)
      if parentContract ≠ some currentContract then
        none
      else if 2 ≤ blockNumber ∧
          validators.contractAddressAt (blockNumber - 2) ≠ some currentContract then
        let prevWasList := 2 ≤ blockNumber ∧ validators.contractAddressAt (blockNumber - 2) = none
        if prevWasList then some currentContract else none
      else
        none

theorem boundary_succ {vs : ValidatorSet} {n : ℕ} {c : Address}
    (h : computeFinalizeChangeAddressFromValidators vs (n + 1) = some c) :
    vs.contractAddressAt (n + 1) = some c ∧ vs.contractAddressAt n = some c ∧
      1 ≤ n ∧ vs.contractAddressAt (n - 1) = none := by
  unfold computeFinalizeChangeAddressFromValidators at h
  rw [if_neg (by omega)] at h
  cases hc : vs.contractAddressAt (n + 1) with
  | none => simp [hc] at h
  | some current =>
    simp only [hc] at h
    split_ifs at h with hp hg hl
    obtain ⟨h2, hl⟩ := hl
    rw [Option.some.injEq] at h
    subst current
    refine ⟨rfl, not_not.mp hp, by omega, ?_⟩
    rwa [show n + 1 - 2 = n - 1 by omega] at hl

theorem boundary_none_of_active {vs : ValidatorSet} {n : ℕ} {c : Address}
    (h : vs.contractAddressAt n = some c) :
    computeFinalizeChangeAddressFromValidators vs (n + 2) = none := by
  cases hn : computeFinalizeChangeAddressFromValidators vs (n + 2) with
  | none => rfl
  | some d =>
    have hlist := (boundary_succ hn).2.2.2
    rw [Nat.add_sub_cancel, h] at hlist
    contradiction

theorem boundary_not_twice {vs : ValidatorSet} {n : ℕ} {c : Address}
    (h : computeFinalizeChangeAddressFromValidators vs (n + 1) = some c) :
    computeFinalizeChangeAddressFromValidators vs (n + 2) = none :=
  boundary_none_of_active (boundary_succ h).2.1

end RethGnosis
