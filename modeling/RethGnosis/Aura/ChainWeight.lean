import Mathlib.Algebra.Order.Ring.Nat
import Mathlib.Data.List.Chain
import Mathlib.Data.List.Nodup
import Mathlib.Tactic.Linarith
import RethGnosis.Aura.Consensus

set_option autoImplicit false

/-!
# Chains of accepted headers

Each header of a chain is accepted against the one before it. Its difficulty is one
unit of weight, `2 ^ 128 - 1`, less the steps since its parent, so the weight of a
chain is its length up to the steps it spans. Under one validator list the steps of one
signer are apart by multiples of the length of the list.
-/
namespace RethGnosis

def unitWeight : ℕ := 2 ^ 128 - 1

def SealedHeader.weight (h : SealedHeader) : ℕ := h.header.difficulty

def totalDifficulty (headers : List SealedHeader) : ℕ := (headers.map SealedHeader.weight).sum

def chainTip (h₀ : SealedHeader) (headers : List SealedHeader) : SealedHeader := headers.getLastD h₀

section Chain
variable (checks : HeaderChecks) (crypto : SealCrypto) (chainSpec : GnosisChainSpec)
  (c : AuraConfig)

def Accepts (parent header : SealedHeader) : Prop :=
  validateAuraHeaderAgainstParent checks crypto chainSpec c header parent = .ok ()

def AcceptsUnder (validators : List Address) (parent header : SealedHeader) : Prop :=
  Accepts checks crypto chainSpec c parent header ∧
    c.validators.tryGetListValidators parent.header.number = some validators

end Chain

section Reference

def turnsRoot : SealedHeader := referenceSealed referenceKeccak 1#160 10 9 10

def turns : List SealedHeader :=
  [ referenceSealed referenceKeccak 2#160 11 10 11,
    referenceSealed referenceKeccak 1#160 12 11 12,
    referenceSealed referenceKeccak 2#160 13 12 13 ]

theorem turns_accepted :
    (turnsRoot :: turns).IsChain (AcceptsUnder referenceChecks (openCrypto referenceKeccak)
      (referenceSpec [] (listFrom [1#160, 2#160])) (listFrom [1#160, 2#160]) [1#160, 2#160]) := by
  have hactive := listFrom_active [1#160, 2#160]
  refine List.isChain_cons_cons.mpr ⟨⟨?_, hactive 10⟩, List.isChain_cons_cons.mpr
    ⟨⟨?_, hactive 11⟩, List.isChain_cons_cons.mpr ⟨⟨?_, hactive 12⟩, List.isChain_singleton _⟩⟩⟩
  · exact referenceSealed_accepted (by decide) (by decide) (listFrom_proposer rfl)
  · exact referenceSealed_accepted (by decide) (by decide) (listFrom_proposer rfl)
  · exact referenceSealed_accepted (by decide) (by decide) (listFrom_proposer rfl)

end Reference

section Weight
variable {checks : HeaderChecks} {crypto : SealCrypto} {chainSpec : GnosisChainSpec}
  {c : AuraConfig} {h₀ : SealedHeader} {hs ks : List SealedHeader}

/-- What one accepted header adds to its parent; nothing wraps. -/
structure NextStep (parent header : SealedHeader) : Prop where
  increases : parent.header.step < header.header.step
  fits : header.header.step < 2 ^ 64
  weight : header.weight + header.header.step = unitWeight + parent.header.step

theorem Accepts.nextStep {parent header : SealedHeader}
    (h : Accepts checks crypto chainSpec c parent header) : NextStep parent header := by
  obtain ⟨parentStep, step, signer, hchild⟩ := validateAuraHeaderAgainstParent_ok.mp h
  obtain ⟨hstep, hparent⟩ := hchild.steps.step_eq
  have hincreases := hchild.steps.increases
  have hfits := hchild.steps.fits
  have hweight : header.weight = 2 ^ 128 - 1 - (step - parentStep) :=
    hchild.steps.difficulty.trans (calculateAuraDifficulty_eq hincreases hfits)
  refine ⟨by omega, by omega, ?_⟩
  unfold unitWeight
  omega

theorem NextStep.weight_le {parent header : SealedHeader} (h : NextStep parent header) :
    header.weight ≤ 2 ^ 128 - 2 := by
  have hincreases := h.increases
  have hweight := h.weight
  unfold unitWeight at hweight
  omega

theorem NextStep.le_weight {parent header : SealedHeader} (h : NextStep parent header) :
    2 ^ 128 - 2 ^ 64 ≤ header.weight := by
  have hfits := h.fits
  have hweight := h.weight
  unfold unitWeight at hweight
  omega

theorem NextStep.difficulty_eq {parent header : SealedHeader} (h : NextStep parent header) :
    (header.header.difficulty : ℤ) = 2 ^ 128 - 1 + parent.header.step - header.header.step := by
  have hweight := h.weight
  unfold unitWeight at hweight
  change (header.weight : ℤ) = _
  omega

theorem steps_increase (h : (h₀ :: hs).IsChain NextStep) :
    (h₀ :: hs).Pairwise (fun a b => a.header.step < b.header.step) := by
  have hsteps : ((h₀ :: hs).map (fun a => a.header.step)).IsChain (· < ·) :=
    (List.isChain_map _).mpr (h.imp (fun _ _ hnext => hnext.increases))
  exact List.pairwise_map.mp (List.isChain_iff_pairwise.mp hsteps)

theorem chainTip_cons (h : SealedHeader) (rest : List SealedHeader) :
    chainTip h₀ (h :: rest) = chainTip h rest := by
  cases rest <;> rfl

theorem totalDifficulty_cons (h : SealedHeader) (rest : List SealedHeader) :
    totalDifficulty (h :: rest) = h.weight + totalDifficulty rest := rfl

theorem exists_previous {R : SealedHeader → SealedHeader → Prop} (h : (h₀ :: hs).IsChain R)
    {header : SealedHeader} (hmem : header ∈ hs) : ∃ parent, R parent header := by
  induction hs generalizing h₀ with
  | nil => exact absurd hmem List.not_mem_nil
  | cons next rest ih =>
    rw [List.isChain_cons_cons] at h
    rcases List.mem_cons.mp hmem with rfl | hrest
    · exact ⟨h₀, h.1⟩
    · exact ih h.2 hrest

theorem totalDifficulty_add_step (h : (h₀ :: hs).IsChain NextStep) :
    totalDifficulty hs + (chainTip h₀ hs).header.step =
      hs.length * unitWeight + h₀.header.step := by
  induction hs generalizing h₀ with
  | nil =>
    rw [List.length_nil, Nat.zero_mul]
    rfl
  | cons next rest ih =>
    rw [List.isChain_cons_cons] at h
    have hrest := ih h.2
    have hweight := h.1.weight
    rw [chainTip_cons, totalDifficulty_cons, List.length_cons, Nat.succ_mul]
    omega

theorem chainTip_step_bounds (h : (h₀ :: hs).IsChain NextStep) :
    h₀.header.step ≤ (chainTip h₀ hs).header.step ∧
      (hs ≠ [] → (chainTip h₀ hs).header.step < 2 ^ 64) := by
  induction hs generalizing h₀ with
  | nil => exact ⟨Nat.le_refl _, fun hne => absurd rfl hne⟩
  | cons next rest ih =>
    rw [List.isChain_cons_cons] at h
    obtain ⟨hle, hlt⟩ := ih h.2
    have hincreases := h.1.increases
    rw [chainTip_cons]
    refine ⟨by omega, fun _ => ?_⟩
    cases rest with
    | nil => exact h.1.fits
    | cons _ _ => exact hlt (List.cons_ne_nil _ _)

/-- One more block outweighs every step it may cost. -/
theorem longer_outweighs (hhs : (h₀ :: hs).IsChain NextStep) (hks : (h₀ :: ks).IsChain NextStep)
    (hlength : hs.length < ks.length) : totalDifficulty hs < totalDifficulty ks := by
  have hhsWeight := totalDifficulty_add_step hhs
  have hksWeight := totalDifficulty_add_step hks
  have hle := (chainTip_step_bounds hhs).1
  have hne : ks ≠ [] := by
    rintro rfl
    exact absurd hlength (Nat.not_lt_zero _)
  have hlt := (chainTip_step_bounds hks).2 hne
  have hunits : (hs.length + 1) * unitWeight ≤ ks.length * unitWeight :=
    Nat.mul_le_mul_right unitWeight hlength
  have hunit : unitWeight = 2 ^ 128 - 1 := rfl
  rw [Nat.succ_mul] at hunits
  omega

theorem sameLength_outweighs (hhs : (h₀ :: hs).IsChain NextStep)
    (hks : (h₀ :: ks).IsChain NextStep) (hlength : hs.length = ks.length) :
    totalDifficulty hs < totalDifficulty ks ↔
      (chainTip h₀ ks).header.step < (chainTip h₀ hs).header.step := by
  have hhsWeight := totalDifficulty_add_step hhs
  have hksWeight := totalDifficulty_add_step hks
  rw [hlength] at hhsWeight
  omega

theorem chain_weight
    (h : (h₀ :: hs).IsChain (Accepts checks crypto chainSpec c)) :
    (h₀ :: hs).Pairwise (fun a b => a.header.step < b.header.step) ∧
      (∀ header ∈ hs, 2 ^ 128 - 2 ^ 64 ≤ header.header.difficulty ∧
        header.header.difficulty ≤ 2 ^ 128 - 2) ∧
      (h₀ :: hs).IsChain (fun parent header => (header.header.difficulty : ℤ) =
        2 ^ 128 - 1 + parent.header.step - header.header.step) ∧
      ((totalDifficulty hs : ℤ) = hs.length * (2 ^ 128 - 1) -
        ((chainTip h₀ hs).header.step - h₀.header.step)) ∧
      ∀ ks, (h₀ :: ks).IsChain (Accepts checks crypto chainSpec c) →
        (hs.length < ks.length → totalDifficulty hs < totalDifficulty ks) ∧
        (hs.length = ks.length → (totalDifficulty hs < totalDifficulty ks ↔
          (chainTip h₀ ks).header.step < (chainTip h₀ hs).header.step)) := by
  have hhs : (h₀ :: hs).IsChain NextStep := h.imp (fun _ _ haccepts => haccepts.nextStep)
  refine ⟨steps_increase hhs, ?_, ?_, ?_, ?_⟩
  · intro header hmem
    obtain ⟨parent, hnext⟩ := exists_previous hhs hmem
    exact ⟨hnext.le_weight, hnext.weight_le⟩
  · exact hhs.imp (fun _ _ hnext => hnext.difficulty_eq)
  · have hweight := congrArg (fun n : ℕ => (n : ℤ)) (totalDifficulty_add_step hhs)
    have hunit : (unitWeight : ℤ) = 2 ^ 128 - 1 := by decide
    push_cast at hweight
    rw [hunit] at hweight
    linarith
  · intro ks hks
    have hks : (h₀ :: ks).IsChain NextStep := hks.imp (fun _ _ haccepts => haccepts.nextStep)
    exact ⟨longer_outweighs hhs hks, sameLength_outweighs hhs hks⟩

theorem chain_weight_turns :
    (turnsRoot :: turns).IsChain (Accepts referenceChecks (openCrypto referenceKeccak)
        (referenceSpec [] (listFrom [1#160, 2#160])) (listFrom [1#160, 2#160])) ∧
      (totalDifficulty turns : ℤ) = 3 * (2 ^ 128 - 1) - (13 - 10) := by
  have hchain := turns_accepted.imp (fun _ _ haccepts => haccepts.1)
  exact ⟨hchain, (chain_weight hchain).2.2.2.1⟩

end Weight

section Proposers
variable {checks : HeaderChecks} {crypto : SealCrypto} {chainSpec : GnosisChainSpec}
  {c : AuraConfig} {h₀ : SealedHeader} {hs : List SealedHeader} {validators : List Address}

theorem Accepts.signed {parent header : SealedHeader}
    (h : Accepts checks crypto chainSpec c parent header) :
    ∃ signer, recoverSealAuthor crypto header.header = .ok signer := by
  obtain ⟨_, _, signer, hchild⟩ := validateAuraHeaderAgainstParent_ok.mp h
  exact ⟨signer, hchild.signed⟩

/-- In a list without duplicates the proposer determines the step up to the length. -/
theorem step_mod_of_proposer {s t : ℕ} {proposer : Address} (hnodup : validators.Nodup)
    (hs : ValidatorSet.expectedProposer s validators = some proposer)
    (ht : ValidatorSet.expectedProposer t validators = some proposer) :
    s % validators.length = t % validators.length := by
  unfold ValidatorSet.expectedProposer at hs ht
  have hlt : s % validators.length < validators.length := (List.getElem?_eq_some_iff.mp hs).1
  exact (List.getElem?_inj hlt hnodup).mp (hs.trans ht.symm)

theorem AcceptsUnder.proposer {parent header : SealedHeader} {signer : Address}
    (hlaw : HashNumberLaw checks)
    (h : AcceptsUnder checks crypto chainSpec c validators parent header)
    (hsigner : recoverSealAuthor crypto header.header = .ok signer) :
    ValidatorSet.expectedProposer header.header.step validators = some signer := by
  obtain ⟨haccepts, hactive⟩ := h
  obtain ⟨parentStep, step, found, hchild⟩ := validateAuraHeaderAgainstParent_ok.mp haccepts
  have hnumber := (hlaw _ _ _ hchild.hashNumber).1
  have hfound : found = signer := Except.ok.inj (hchild.signed.symm.trans hsigner)
  rw [← hfound, hchild.steps.step_eq.1]
  refine hchild.proposer validators ?_
  rw [hnumber, Nat.add_sub_cancel]
  exact hactive

/-- The later of two blocks of one signer is a multiple of the list's length away. -/
def ApartByTurns (crypto : SealCrypto) (n : ℕ) (a b : SealedHeader) : Prop :=
  ∀ signer, recoverSealAuthor crypto a.header = .ok signer →
    recoverSealAuthor crypto b.header = .ok signer →
      a.header.step < b.header.step ∧ n ∣ b.header.step - a.header.step

theorem ApartByTurns.not_in_window {n first : ℕ} {a b : SealedHeader} {signer : Address}
    (h : ApartByTurns crypto n a b) (ha : recoverSealAuthor crypto a.header = .ok signer)
    (hb : recoverSealAuthor crypto b.header = .ok signer) (hfirst : first ≤ a.header.step) :
    first + n ≤ b.header.step := by
  obtain ⟨hlt, hdvd⟩ := h signer ha hb
  have hle : n ≤ b.header.step - a.header.step := Nat.le_of_dvd (by omega) hdvd
  omega

theorem sealers_apart (hlaw : HashNumberLaw checks) (hnodup : validators.Nodup)
    (h : (h₀ :: hs).IsChain (AcceptsUnder checks crypto chainSpec c validators)) :
    hs.Pairwise (ApartByTurns crypto validators.length) ∧
      ∀ first, ((hs.filter (fun header => first ≤ header.header.step ∧
          header.header.step < first + validators.length)).map
        (fun header => recoverSealAuthor crypto header.header)).Nodup := by
  have hsteps := steps_increase (h.imp (fun _ _ haccepts => haccepts.1.nextStep))
  have hapart : hs.Pairwise (ApartByTurns crypto validators.length) := by
    refine (List.pairwise_cons.mp hsteps).2.imp_of_mem ?_
    intro a b ha hb hlt signer hsignerA hsignerB
    obtain ⟨parentA, hacceptsA⟩ := exists_previous h ha
    obtain ⟨parentB, hacceptsB⟩ := exists_previous h hb
    have hmod := step_mod_of_proposer hnodup (hacceptsA.proposer hlaw hsignerA)
      (hacceptsB.proposer hlaw hsignerB)
    exact ⟨hlt, Nat.dvd_of_mod_eq_zero (Nat.sub_mod_eq_zero_of_mod_eq hmod.symm)⟩
  refine ⟨hapart, fun first => ?_⟩
  refine List.pairwise_map.mpr ((hapart.filter _).imp_of_mem ?_)
  intro a b ha hb hturns hsame
  obtain ⟨haMem, haWindow⟩ := List.mem_filter.mp ha
  obtain ⟨-, hbWindow⟩ := List.mem_filter.mp hb
  obtain ⟨haFirst, -⟩ := of_decide_eq_true haWindow
  obtain ⟨-, hbLast⟩ := of_decide_eq_true hbWindow
  obtain ⟨parent, haccepts⟩ := exists_previous h haMem
  obtain ⟨signer, hsigner⟩ := haccepts.1.signed
  have hpast := hturns.not_in_window hsigner (hsame.symm.trans hsigner) haFirst
  omega

/-- Validator 2 seals the first and the third block, two steps apart. -/
theorem sealers_apart_turns :
    HashNumberLaw referenceChecks ∧ [1#160, 2#160].Nodup ∧
      (turnsRoot :: turns).IsChain (AcceptsUnder referenceChecks (openCrypto referenceKeccak)
        (referenceSpec [] (listFrom [1#160, 2#160])) (listFrom [1#160, 2#160]) [1#160, 2#160]) ∧
      turns.Pairwise (ApartByTurns (openCrypto referenceKeccak) 2) := by
  have hnodup : [1#160, 2#160].Nodup := by decide
  exact ⟨referenceChecks_hashNumber, hnodup, turns_accepted,
    (sealers_apart referenceChecks_hashNumber hnodup turns_accepted).1⟩

end Proposers

end RethGnosis
