import RethGnosis.Aura.Validators
import RethGnosis.Aura.FinalityBatches

set_option autoImplicit false

/-!
# Finality across forks, and its delay

A reported block has more than half of the sealed validators on the blocks from it on, so
two forks can only report blocks of their own if enough validators sealed on both. When
the validators seal in turn, each push reports the block half the list behind it.
-/
namespace RethGnosis.RollingFinality
open Run

/-- What `setValidators` leaves: the sealed list and an empty window. -/
structure Sealed (validators : List Address) (rf : RollingFinality) : Prop where
  validators : rf.validators = validators
  isSealed : rf.validatorsSealed = true
  headers : rf.headers = []
  signCount : rf.signCount = ∅

theorem sealed_setValidators (rf : RollingFinality) (validators : List Address) :
    Sealed validators (rf.setValidators validators) := ⟨rfl, rfl, rfl, rfl⟩

section Quorum
variable {validators : List Address} {rf : RollingFinality} {entries : List (ℕ × Address)}
  {a : ℕ × Address}

theorem Sealed.windowInv (h : Sealed validators rf) : WindowInv rf :=
  windowInv_of_cleared h.headers h.signCount

theorem headers_sublist (h : WindowInv rf) (entries : List (ℕ × Address)) :
    (run pushStep entries rf).headers.Sublist (rf.headers ++ entries) := by
  induction entries generalizing rf with
  | nil =>
    rw [List.append_nil]
    exact List.Sublist.refl _
  | cons entry rest ih =>
    have hfirst : (pushStep entry rf).headers.Sublist (rf.headers ++ [entry]) := by
      by_cases hc : rf.counts entry.2 = true
      · rw [pushStep, push_headers h entry.1 hc]
        exact SuffixTrim.trim_sublist _
      · rw [pushStep, push_of_not_counts (by simpa using hc)]
        exact List.sublist_append_left _ _
    have hrest := ih (h.push entry.1 entry.2)
    have hall := hrest.trans (hfirst.append_right rest)
    rwa [List.append_assoc] at hall

theorem quorum_of_pushed (h : WindowInv rf) (hsealed : rf.validatorsSealed = true) {n : ℕ}
    {signer : Address} (ha : a ∈ (rf.push n signer).1) :
    ∃ after, (a :: after) <:+ rf.headers ++ [(n, signer)] ∧
      rf.validators.length < distinctSigners (a :: after) * 2 ∧
      ∀ e ∈ a :: after, e.2 ∈ rf.validators := by
  have hc : rf.counts signer = true := by
    by_contra hnot
    rw [push_of_not_counts (by simpa using hnot)] at ha
    cases ha
  have hknown : signer ∈ rf.validators := by
    rw [counts_iff, hsealed] at hc
    simpa using hc
  have hsplits := h.splitsAtMajority n hc
  rw [discover_of_mem hknown] at hsplits
  obtain ⟨i, hi, hget⟩ := List.mem_iff_getElem.mp ha
  have hlength : i < (rf.headers ++ [(n, signer)]).length := by
    rw [← hsplits.split, List.length_append]
    omega
  have hwindow : (rf.headers ++ [(n, signer)]).get ⟨i, hlength⟩ = a := by
    rw [List.get_eq_getElem, ← hget]
    simp only [← hsplits.split]
    exact List.getElem_append_left hi
  have hdrop : (rf.headers ++ [(n, signer)]).drop i =
      a :: (rf.headers ++ [(n, signer)]).drop (i + 1) := by
    rw [← hwindow]
    exact List.drop_eq_getElem_cons hlength
  refine ⟨(rf.headers ++ [(n, signer)]).drop (i + 1), ?_, ?_, ?_⟩
  · rw [← hdrop]
    exact List.drop_suffix i _
  · rw [← hdrop]
    exact (hsplits.majority i hlength).mp hi
  · intro e he
    rw [← hdrop] at he
    rcases List.mem_append.mp (List.mem_of_mem_drop he) with hqueued | hnew
    · exact h.known e hqueued
    · rw [List.mem_singleton] at hnew
      rwa [hnew]

theorem mem_batches_iff :
    a ∈ (batches entries rf).flatten ↔
      ∃ before entry after, entries = before ++ entry :: after ∧
        a ∈ ((run pushStep before rf).push entry.1 entry.2).1 := by
  simp only [batches, List.mem_flatten, List.mem_map]
  constructor
  · rintro ⟨batch, ⟨v, hv, rfl⟩, ha⟩
    obtain ⟨before, after, hentries, hstate⟩ := mem_visits_iff.mp hv
    rw [hstate] at ha
    exact ⟨before, v.1, after, hentries, ha⟩
  · rintro ⟨before, entry, after, hentries, ha⟩
    exact ⟨_, ⟨(entry, run pushStep before rf), mem_visits_iff.mpr ⟨before, after, hentries, rfl⟩,
      rfl⟩, ha⟩

variable (validators entries a) in
def sealersFrom : Finset Address :=
  validators.toFinset.filter (fun v => ∃ e ∈ entries, e.2 = v ∧ a.1 ≤ e.1)

theorem mem_sealersFrom {v : Address} :
    v ∈ sealersFrom validators entries a ↔
      v ∈ validators ∧ ∃ e ∈ entries, e.2 = v ∧ a.1 ≤ e.1 := by
  rw [sealersFrom, Finset.mem_filter, List.mem_toFinset]

theorem Sealed.quorum_of_reported (h : Sealed validators rf)
    (hincreasing : entries.Pairwise (fun a b => a.1 < b.1))
    (ha : a ∈ (batches entries rf).flatten) :
    validators.length < (sealersFrom validators entries a).card * 2 := by
  obtain ⟨before, entry, after, rfl, hreported⟩ := mem_batches_iff.mp ha
  have hempty : rf.headers ⊆ before := by
    rw [h.headers]
    exact List.nil_subset _
  obtain ⟨hinv, hsealed, hvalidators, -⟩ :=
    run_pushes h.windowInv h.isSealed hempty (List.Subset.refl before)
  obtain ⟨newer, hsuffix, hmajority, hknown⟩ := quorum_of_pushed hinv hsealed hreported
  rw [hvalidators, h.validators] at hmajority hknown
  have hqueue : ((run pushStep before rf).headers ++ [entry]).Sublist (before ++ [entry]) := by
    have hsub := headers_sublist h.windowInv before
    rw [h.headers, List.nil_append] at hsub
    exact hsub.append_right [entry]
  have hwindow : (a :: newer).Sublist (before ++ entry :: after) := by
    have hpart : (before ++ [entry]).Sublist (before ++ entry :: after) :=
      (List.singleton_sublist.mpr List.mem_cons_self).append_left before
    exact (hsuffix.sublist.trans hqueue).trans hpart
  have hfrom : ∀ e ∈ a :: newer, a.1 ≤ e.1 := by
    have hsorted := hincreasing.sublist hwindow
    rw [List.pairwise_cons] at hsorted
    intro e he
    rcases List.mem_cons.mp he with rfl | hnewer
    · exact Nat.le_refl _
    · exact Nat.le_of_lt (hsorted.1 e hnewer)
  have hsubset : ((a :: newer).map Prod.snd).toFinset ⊆
      sealersFrom validators (before ++ entry :: after) a := by
    intro v hv
    rw [List.mem_toFinset, List.mem_map] at hv
    obtain ⟨e, he, rfl⟩ := hv
    exact mem_sealersFrom.mpr ⟨hknown e he, e, hwindow.subset he, rfl, hfrom e he⟩
  have hcard := Finset.card_le_card hsubset
  rw [distinctSigners] at hmajority
  omega

/-- From a block behind the fork on, only blocks of its own branch count. -/
theorem sealersFrom_branch {common branch : List (ℕ × Address)}
    (hincreasing : (common ++ branch).Pairwise (fun a b => a.1 < b.1)) (ha : a ∈ branch) :
    sealersFrom validators (common ++ branch) a = sealersFrom validators branch a := by
  ext v
  rw [mem_sealersFrom, mem_sealersFrom]
  constructor
  · rintro ⟨hv, e, he, hsigner, hfrom⟩
    refine ⟨hv, e, ?_, hsigner, hfrom⟩
    rcases List.mem_append.mp he with hcommon | hbranch
    · have hlt := (List.pairwise_append.mp hincreasing).2.2 e hcommon a ha
      omega
    · exact hbranch
  · rintro ⟨hv, e, he, hsigner, hfrom⟩
    exact ⟨hv, e, List.mem_append_right _ he, hsigner, hfrom⟩

end Quorum

section Forks
variable {validators : List Address}

/-- Where two forks each report a block of their own, with the same sealed validators, the
validators that sealed on both from these blocks on are at least as many as two majorities
have in common: one, and two when the number of validators is even. -/
theorem forks_share_sealers {rf rf' : RollingFinality} (hleft : Sealed validators rf)
    (hright : Sealed validators rf') {common left right : List (ℕ × Address)}
    (hleftNumbers : (common ++ left).Pairwise (fun a b => a.1 < b.1))
    (hrightNumbers : (common ++ right).Pairwise (fun a b => a.1 < b.1)) {a b : ℕ × Address}
    (ha : a ∈ left) (hb : b ∈ right) (hreportedA : a ∈ (batches (common ++ left) rf).flatten)
    (hreportedB : b ∈ (batches (common ++ right) rf').flatten) :
    2 * (validators.length / 2 + 1) ≤
      (sealersFrom validators left a ∩ sealersFrom validators right b).card +
        validators.length := by
  have hquorumA := hleft.quorum_of_reported hleftNumbers hreportedA
  have hquorumB := hright.quorum_of_reported hrightNumbers hreportedB
  rw [sealersFrom_branch hleftNumbers ha] at hquorumA
  rw [sealersFrom_branch hrightNumbers hb] at hquorumB
  have hunion : (sealersFrom validators left a ∪ sealersFrom validators right b).card ≤
      validators.length := by
    refine (Finset.card_le_card ?_).trans (List.toFinset_card_le validators)
    exact Finset.union_subset (Finset.filter_subset _ _) (Finset.filter_subset _ _)
  have hboth := Finset.card_union_add_card_inter (sealersFrom validators left a)
    (sealersFrom validators right b)
  omega

/-- Three validators, a fork at block 1: validator 2 seals on both branches. -/
theorem forks_share_sealers_three :
    2 * (3 / 2 + 1) ≤
      (sealersFrom [1#160, 2#160, 3#160] [(2, 2#160), (3, 3#160)] (2, 2#160) ∩
        sealersFrom [1#160, 2#160, 3#160] [(2, 3#160), (3, 2#160)] (2, 3#160)).card + 3 := by
  have hsealed := sealed_setValidators (new []) [1#160, 2#160, 3#160]
  have hleft : (2, 2#160) ∈ (batches ([(1, 1#160)] ++ [(2, 2#160), (3, 3#160)])
      ((new []).setValidators [1#160, 2#160, 3#160])).flatten := by decide +kernel
  have hright : (2, 3#160) ∈ (batches ([(1, 1#160)] ++ [(2, 3#160), (3, 2#160)])
      ((new []).setValidators [1#160, 2#160, 3#160])).flatten := by decide +kernel
  exact forks_share_sealers hsealed hsealed (by decide) (by decide) (by decide) (by decide) hleft
    hright

end Forks

section Turns
variable {validators : List Address} {rf : RollingFinality} {entries : List (ℕ × Address)}
  {first : ℕ}

/-- The entries are sealed in turn, one step each, from step `first` on. -/
def InTurn (validators : List Address) (first : ℕ) (entries : List (ℕ × Address)) : Prop :=
  ∀ i e, entries[i]? = some e → ValidatorSet.expectedProposer (first + i) validators = some e.2

theorem InTurn.append_left {newer : List (ℕ × Address)}
    (h : InTurn validators first (entries ++ newer)) : InTurn validators first entries := by
  intro i e he
  refine h i e ?_
  have hi : i < entries.length := (List.getElem?_eq_some_iff.mp he).1
  rw [List.getElem?_append_left hi, he]

theorem InTurn.known (h : InTurn validators first entries) {e : ℕ × Address} (he : e ∈ entries) :
    e.2 ∈ validators := by
  obtain ⟨i, hi⟩ := List.mem_iff_getElem?.mp he
  exact List.mem_of_getElem? (h i e hi)

theorem InTurn.drop_nodup (h : InTurn validators first entries) (hnodup : validators.Nodup)
    {k : ℕ} (hlength : entries.length - k ≤ validators.length) :
    ((entries.drop k).map Prod.snd).Nodup := by
  rw [List.nodup_iff_getElem?_ne_getElem?]
  intro i j hij hj hsame
  rw [List.length_map, List.length_drop] at hj
  have hentry : ∀ n, n < entries.length - k →
      ((entries.drop k).map Prod.snd)[n]? =
        ValidatorSet.expectedProposer (first + (k + n)) validators := by
    intro n hn
    have hlt : k + n < entries.length := by omega
    have hget : entries[k + n]? = some entries[k + n] := List.getElem?_eq_getElem hlt
    rw [List.getElem?_map, List.getElem?_drop, hget, h (k + n) _ hget]
    rfl
  rw [hentry i (by omega), hentry j (by omega)] at hsame
  have hpositive : 0 < validators.length := by omega
  have hmod := (List.getElem?_inj (Nat.mod_lt _ hpositive) hnodup).mp hsame
  have hdvd := Nat.dvd_of_mod_eq_zero (Nat.sub_mod_eq_zero_of_mod_eq hmod.symm)
  have hle := Nat.le_of_dvd (by omega) hdvd
  omega

theorem minority_of_nodup {count : ℕ} {window : List (ℕ × Address)}
    (h : (window.map Prod.snd).Nodup) :
    minority count window = true ↔ window.length ≤ count / 2 := by
  rw [minority, decide_eq_true_iff, List.toFinset_card_of_nodup h, List.length_map]
  omega

theorem batches_append_singleton (entries : List (ℕ × Address)) (entry : ℕ × Address)
    (rf : RollingFinality) :
    batches (entries ++ [entry]) rf =
      batches entries rf ++ [((run pushStep entries rf).push entry.1 entry.2).1] := by
  rw [batches, visits_append, List.map_append]
  rfl

/-- With the last half of the list queued, a push in turn reports the oldest block of them. -/
theorem InTurn.push_window {entry : ℕ × Address} (hnodup : validators.Nodup)
    (hturns : InTurn validators first (entries ++ [entry])) (hinv : WindowInv rf)
    (hvalidators : rf.validators = validators)
    (hheaders : rf.headers = entries.drop (entries.length - validators.length / 2)) :
    (rf.push entry.1 entry.2).1 =
        ((entries ++ [entry]).drop (entries.length - validators.length / 2)).take
          (entries.length + 1 - validators.length / 2 -
            (entries.length - validators.length / 2)) ∧
      (rf.push entry.1 entry.2).2.headers =
        (entries ++ [entry]).drop ((entries ++ [entry]).length - validators.length / 2) := by
  have hknown : entry.2 ∈ rf.validators := by
    rw [hvalidators]
    exact hturns.known (List.mem_append_right _ List.mem_cons_self)
  have hc : rf.counts entry.2 = true := counts_iff.mpr (.inl hknown)
  have hwindow : rf.headers ++ [(entry.1, entry.2)] =
      (entries ++ [entry]).drop (entries.length - validators.length / 2) := by
    rw [hheaders, List.drop_append_of_le_length (Nat.sub_le _ _)]
  have hpositive : 0 < validators.length := by
    rw [hvalidators] at hknown
    exact List.length_pos_of_mem hknown
  have hsmall : ∀ s, s <:+ (entries ++ [entry]).drop (entries.length - validators.length / 2) →
      (minority validators.length s = true ↔ s.length ≤ validators.length / 2) := by
    intro s hs
    apply minority_of_nodup
    have hall := hturns.drop_nodup hnodup (k := entries.length - validators.length / 2) (by
      rw [List.length_append, List.length_singleton]
      omega)
    exact hall.sublist (hs.sublist.map Prod.snd)
  obtain ⟨htrim, hdropped⟩ := SuffixTrim.trim_of_length hsmall
  have hlength : ((entries ++ [entry]).drop (entries.length - validators.length / 2)).length -
      validators.length / 2 =
        entries.length + 1 - validators.length / 2 - (entries.length - validators.length / 2) := by
    rw [List.length_drop, List.length_append, List.length_singleton]
    omega
  rw [hlength] at htrim hdropped
  constructor
  · rw [push_fst hinv entry.1 hc, popped, discover_of_mem hknown, hvalidators, hwindow, hdropped]
  · rw [push_headers hinv entry.1 hc, discover_of_mem hknown, hvalidators, hwindow, htrim,
      List.drop_drop, List.length_append, List.length_singleton]
    congr 1
    omega

theorem InTurn.run_headers (hnodup : validators.Nodup) (h : Sealed validators rf)
    (hturns : InTurn validators first entries) :
    (run pushStep entries rf).headers =
      entries.drop (entries.length - validators.length / 2) := by
  induction entries using List.reverseRecOn with
  | nil =>
    rw [List.drop_nil]
    exact h.headers
  | append_singleton entries entry ih =>
    have hempty : rf.headers ⊆ entries := by
      rw [h.headers]
      exact List.nil_subset _
    obtain ⟨hinv, -, hvalidators, -⟩ :=
      run_pushes h.windowInv h.isSealed hempty (List.Subset.refl entries)
    rw [run_append]
    exact (hturns.push_window hnodup hinv (hvalidators.trans h.validators)
      (ih hturns.append_left)).2

/-- When a duplicate-free sealed list seals in turn, each push reports exactly the block half the
list behind it. -/
theorem finality_delay (hnodup : validators.Nodup) (h : Sealed validators rf)
    (hturns : InTurn validators first entries) (j : ℕ) (hj : j < entries.length) :
    (batches entries rf)[j]? =
      some (if j < validators.length / 2 then []
        else entries[j - validators.length / 2]?.toList) := by
  induction entries using List.reverseRecOn with
  | nil => exact absurd hj (Nat.not_lt_zero j)
  | append_singleton entries entry ih =>
    have hlength : (batches entries rf).length = entries.length := by
      rw [batches, List.length_map, visits_length]
    rw [batches_append_singleton]
    rw [List.length_append, List.length_singleton] at hj
    by_cases hlast : j < entries.length
    · rw [List.getElem?_append_left (by omega), ih hturns.append_left hlast]
      congr 2
      rw [List.getElem?_append_left (by omega)]
    · have hempty : rf.headers ⊆ entries := by
        rw [h.headers]
        exact List.nil_subset _
      obtain ⟨hinv, -, hvalidators, -⟩ :=
        run_pushes h.windowInv h.isSealed hempty (List.Subset.refl entries)
      have hpush := (hturns.push_window hnodup hinv (hvalidators.trans h.validators)
        (hturns.append_left.run_headers hnodup h)).1
      obtain rfl : j = entries.length := by omega
      rw [List.getElem?_append_right (by omega), hlength, Nat.sub_self, List.getElem?_cons_zero,
        hpush]
      split_ifs with hshort
      · have hnone : entries.length + 1 - validators.length / 2 -
            (entries.length - validators.length / 2) = 0 := by omega
        rw [hnone, List.take_zero]
      · have hone : entries.length + 1 - validators.length / 2 -
            (entries.length - validators.length / 2) = 1 := by omega
        rw [hone, List.take_one, List.head?_drop]

/-- Three validators in turn from the second on: the block before is reported. -/
theorem finality_delay_three :
    (batches [(5, 2#160), (6, 3#160), (7, 1#160)]
        ((new []).setValidators [1#160, 2#160, 3#160]))[2]? = some [(6, 3#160)] := by
  have hturns : InTurn [1#160, 2#160, 3#160] 1 [(5, 2#160), (6, 3#160), (7, 1#160)] := by
    rintro (_ | _ | _ | i) e he <;> cases he <;> rfl
  exact finality_delay (by decide) (sealed_setValidators _ _) hturns 2 (by decide)

end Turns

end RethGnosis.RollingFinality
