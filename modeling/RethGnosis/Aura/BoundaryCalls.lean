import RethGnosis.Library.Floor
import RethGnosis.Aura.Validators

set_option autoImplicit false

/-!
# Where the boundary calls are

The active kind at a block is the one of the last entry of the transition map at or below
it. The boundary rule looks at three neighbouring blocks; over the whole map its calls
are block 0 under a contract and the second block of each contract region that follows a
list region or an uncovered prefix.
-/
namespace RethGnosis

namespace ValidatorSet
variable {vs : ValidatorSet} {n : ℕ}

def Active (vs : ValidatorSet) (n : ℕ) (kind : ValidatorSetKind) : Prop :=
  ∃ k, Floor.InForce vs.sets n k kind

theorem kindAt_eq_some_iff {kind : ValidatorSetKind} :
    vs.kindAt n = some kind ↔ vs.Active n kind := by
  have hfloor : vs.kindAt n = (Floor.floor vs.sets.toList n).map Prod.snd := rfl
  rw [hfloor, Option.map_eq_some_iff]
  constructor
  · rintro ⟨⟨k, value⟩, hget, rfl⟩
    exact ⟨k, Floor.floor_toList_eq_some_iff.mp hget⟩
  · rintro ⟨k, hforce⟩
    exact ⟨(k, kind), Floor.floor_toList_eq_some_iff.mpr hforce, rfl⟩

theorem contractAddressAt_eq_some_iff {c : Address} :
    vs.contractAddressAt n = some c ↔ vs.Active n (.contract c) := by
  rw [← kindAt_eq_some_iff, contractAddressAt]
  cases vs.kindAt n with
  | none => simp
  | some kind =>
    cases kind with
    | list validators => simp
    | contract address => simp

theorem contractAddressAt_eq_none_iff :
    vs.contractAddressAt n = none ↔ ∀ c, ¬ vs.Active n (.contract c) := by
  simp only [← contractAddressAt_eq_some_iff, Option.eq_none_iff_forall_ne_some]

theorem contractAddressAt_of_list {validators : List Address}
    (h : vs.Active n (.list validators)) : vs.contractAddressAt n = none := by
  rw [← kindAt_eq_some_iff] at h
  rw [contractAddressAt, h]

/-- From a list, or from no set at all, to the contract `c` at block `transition`. -/
def ChangesToContract (vs : ValidatorSet) (transition : ℕ) (c : Address) : Prop :=
  0 < transition ∧ (∀ a, ¬ vs.Active (transition - 1) (.contract a)) ∧
    vs.Active transition (.contract c)

theorem ChangesToContract.entry {c : Address} (h : vs.ChangesToContract n c) :
    vs.sets[n]? = some (.contract c) := by
  obtain ⟨hpos, hbefore, k, hget, hle, hlast⟩ := h
  by_cases hk : k = n
  · rwa [hk] at hget
  · exact absurd ⟨k, hget, by omega, fun j hj hjn => hlast j hj (by omega)⟩ (hbefore c)

end ValidatorSet

open ValidatorSet

section Boundary
variable {vs : ValidatorSet}

theorem boundary_succ_iff {n : ℕ} {c : Address} :
    computeFinalizeChangeAddressFromValidators vs (n + 1) = some c ↔
      vs.ChangesToContract n c ∧ vs.Active (n + 1) (.contract c) := by
  constructor
  · intro h
    obtain ⟨hsucc, hhere, hpos, hbefore⟩ := boundary_succ h
    exact ⟨⟨hpos, contractAddressAt_eq_none_iff.mp hbefore,
      contractAddressAt_eq_some_iff.mp hhere⟩, contractAddressAt_eq_some_iff.mp hsucc⟩
  · rintro ⟨⟨hpos, hbefore, hhere⟩, hsucc⟩
    rw [← contractAddressAt_eq_none_iff] at hbefore
    rw [← contractAddressAt_eq_some_iff] at hhere hsucc
    have htwo : n + 1 - 2 = n - 1 := by omega
    simp only [computeFinalizeChangeAddressFromValidators, hsucc, Nat.add_sub_cancel, hhere, htwo,
      hbefore]
    rw [if_neg (by omega), if_neg (by simp), if_pos ⟨by omega, by simp⟩, if_pos ⟨by omega, trivial⟩]

theorem boundary_none_of_contract {n : ℕ} {a : Address}
    (h : vs.Active n (.contract a)) :
    computeFinalizeChangeAddressFromValidators vs (n + 2) = none :=
  boundary_none_of_active (contractAddressAt_eq_some_iff.mpr h)

theorem boundary_none_of_list {n : ℕ} {validators : List Address}
    (h : vs.Active n (.list validators)) :
    computeFinalizeChangeAddressFromValidators vs n = none := by
  have hnone := contractAddressAt_of_list h
  unfold computeFinalizeChangeAddressFromValidators
  split_ifs with hzero
  · rw [hzero] at hnone
    exact hnone
  · rw [hnone]

theorem boundary_none_at_change {n : ℕ} {c : Address}
    (hbefore : ¬ vs.Active n (.contract c)) (hhere : vs.Active (n + 1) (.contract c)) :
    computeFinalizeChangeAddressFromValidators vs (n + 1) = none := by
  rw [Option.eq_none_iff_forall_ne_some]
  intro d hd
  obtain ⟨⟨-, -, hn⟩, hsucc⟩ := boundary_succ_iff.mp hd
  rw [← contractAddressAt_eq_some_iff] at hhere hsucc
  rw [hhere, Option.some.injEq] at hsucc
  rw [← hsucc] at hn
  exact hbefore hn

end Boundary

/-- The boundary calls of a transition map are block 0 under a contract, and after each change
to a contract that lasts a second block exactly that block. -/
theorem boundary_calls_iff (vs : ValidatorSet) :
    (∀ n c, computeFinalizeChangeAddressFromValidators vs n = some c ↔
      (n = 0 ∧ vs.Active 0 (.contract c)) ∨
        ∃ transition, n = transition + 1 ∧ vs.ChangesToContract transition c ∧
          vs.Active (transition + 1) (.contract c)) ∧
    (∀ n a c, a ≠ c → vs.Active n (.contract a) → vs.Active (n + 1) (.contract c) →
      computeFinalizeChangeAddressFromValidators vs (n + 1) = none ∧
        computeFinalizeChangeAddressFromValidators vs (n + 2) = none) ∧
    (∀ n validators, vs.Active n (.list validators) →
      computeFinalizeChangeAddressFromValidators vs n = none) ∧
    (∀ n c, vs.Active n (.contract c) →
      computeFinalizeChangeAddressFromValidators vs (n + 2) = none) ∧
    (∀ n c, vs.ChangesToContract n c → vs.sets[n]? = some (.contract c)) := by
  refine ⟨?_, ?_, fun n validators => boundary_none_of_list, fun n c => boundary_none_of_contract,
    fun n c => ChangesToContract.entry⟩
  · intro n c
    cases n with
    | zero =>
      rw [computeFinalizeChangeAddressFromValidators, if_pos rfl, contractAddressAt_eq_some_iff]
      simp
    | succ n =>
      rw [boundary_succ_iff]
      simp
  · intro n a c hne hbefore hhere
    refine ⟨boundary_none_at_change ?_ hhere, boundary_none_of_contract hbefore⟩
    rw [← contractAddressAt_eq_some_iff] at hbefore ⊢
    rw [hbefore, Option.some.injEq]
    exact hne

end RethGnosis
