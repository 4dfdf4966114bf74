import RethGnosis.Library.SuffixTrim
import RethGnosis.Aura.Finality

set_option autoImplicit false

/-!
# What a push does to the window

The histogram always counts the queue, so the greedy loop of `push` is a trim of
the queue to its longest suffix without a majority. Everything later is derived
from the equations stated here; no other module unfolds `push`.
-/
namespace RethGnosis.RollingFinality

def minority (count : ℕ) (window : List (ℕ × Address)) : Bool :=
  (window.map Prod.snd).toFinset.card * 2 ≤ count

theorem minority_suffixClosed (count : ℕ) : SuffixTrim.SuffixClosed (minority count) := by
  intro x t h
  have hsub : (t.map Prod.snd).toFinset ⊆ ((x :: t).map Prod.snd).toFinset := by
    intro a ha
    rw [List.mem_toFinset] at ha ⊢
    exact List.mem_cons_of_mem _ ha
  have hcard := Finset.card_le_card hsub
  simp only [minority, decide_eq_true_eq] at h ⊢
  omega

theorem minority_nil (count : ℕ) : minority count [] = true := by
  simp [minority]

/-- The three collections are in step and no queued block is finalized. -/
structure WindowInv (rf : RollingFinality) : Prop where
  counted : Histogram.Counts rf.signCount (rf.headers.map Prod.snd)
  unfinalized : minority rf.validators.length rf.headers = true
  known : ∀ e ∈ rf.headers, e.2 ∈ rf.validators

theorem windowInv_of_cleared {rf : RollingFinality} (hh : rf.headers = []) (hs : rf.signCount = ∅) :
    WindowInv rf := by
  refine ⟨?_, ?_, ?_⟩
  · rw [hh, hs]
    exact Histogram.Counts.nil
  · rw [hh]
    exact minority_nil _
  · simp [hh]

theorem WindowInv.headers_of_no_validators {rf : RollingFinality} (h : WindowInv rf)
    (hv : rf.validators = []) : rf.headers = [] := by
  rw [List.eq_nil_iff_forall_not_mem]
  intro e he
  have hk := h.known e he
  simp [hv] at hk

theorem isFinalized_eq {rf : RollingFinality}
    (h : Histogram.Counts rf.signCount (rf.headers.map Prod.snd)) :
    rf.isFinalized = !minority rf.validators.length rf.headers := by
  unfold isFinalized minority
  rw [h.size_eq, ← decide_not]
  congr 1
  rw [not_le]

theorem popFinalized_eq (l : List (ℕ × Address)) (rf : RollingFinality) (hl : rf.headers = l)
    (h : Histogram.Counts rf.signCount (rf.headers.map Prod.snd)) :
    ∃ m, popFinalized l rf =
        (SuffixTrim.dropped (minority rf.validators.length) l,
          { rf with
            headers := SuffixTrim.trim (minority rf.validators.length) l
            signCount := m }) ∧
      Histogram.Counts m ((SuffixTrim.trim (minority rf.validators.length) l).map Prod.snd) := by
  induction l generalizing rf with
  | nil =>
    refine ⟨rf.signCount, ?_, ?_⟩
    · cases rf
      simp_all [popFinalized, SuffixTrim.dropped, SuffixTrim.trim]
    · simpa [SuffixTrim.trim, hl] using h
  | cons e rest ih =>
    obtain ⟨num, addr⟩ := e
    have hfin := isFinalized_eq h
    rw [hl] at hfin
    unfold popFinalized SuffixTrim.dropped SuffixTrim.trim
    by_cases hm : minority rf.validators.length ((num, addr) :: rest) = true
    · simp only [hfin, hm, Bool.not_true, Bool.false_eq_true, ↓reduceIte]
      refine ⟨rf.signCount, ?_, ?_⟩
      · cases rf
        simp_all
      · rwa [hl] at h
    · simp only [hfin, hm, Bool.not_false, ↓reduceIte, Bool.false_eq_true]
      have hrest : Histogram.Counts (Histogram.decrement rf.signCount addr)
          (rest.map Prod.snd) := by
        rw [hl] at h
        exact h.decrement
      obtain ⟨m, heq, hcounts⟩ := ih
        { rf with headers := rest, signCount := Histogram.decrement rf.signCount addr } rfl hrest
      exact ⟨m, by rw [heq], hcounts⟩

/-- The contracts whose transitions the blocks of `popped` finalize, in order. -/
def transitionsDue : List (ℕ × Address) → BTreeMap ℕ Address → List Address
  | [], _ => []
  | (finalizedNum, _) :: rest, pending =>
    match pending[finalizedNum]? with
    | some contractAddr => contractAddr :: transitionsDue rest (pending.erase finalizedNum)
    | none => transitionsDue rest pending

theorem mem_transitionsDue {popped : List (ℕ × Address)} {pending : BTreeMap ℕ Address}
    {c : Address} :
    c ∈ transitionsDue popped pending ↔ ∃ k ∈ popped.map Prod.fst, pending[k]? = some c := by
  induction popped generalizing pending with
  | nil => simp [transitionsDue]
  | cons e rest ih =>
    obtain ⟨num, addr⟩ := e
    unfold transitionsDue
    cases hp : pending[num]? with
    | none =>
      simp only [ih, List.map_cons, List.mem_cons, exists_eq_or_imp, hp, reduceCtorEq, false_or]
    | some d =>
      simp only [List.mem_cons, ih, List.map_cons, exists_eq_or_imp, hp, Option.some.injEq]
      constructor
      · rintro (rfl | ⟨k, hk, hc⟩)
        · exact .inl rfl
        · refine .inr ⟨k, hk, ?_⟩
          rw [Std.ExtTreeMap.getElem?_erase] at hc
          split_ifs at hc
          exact hc
      · rintro (rfl | ⟨k, hk, hc⟩)
        · exact .inl rfl
        · by_cases hkn : num = k
          · subst k
            rw [hp, Option.some.injEq] at hc
            exact .inl hc.symm
          · refine .inr ⟨k, hk, ?_⟩
            rw [Std.ExtTreeMap.getElem?_erase]
            simpa [hkn] using hc

theorem scheduleTransitions_eq (n : ℕ) (popped : List (ℕ × Address)) (rf : RollingFinality) :
    ∃ pending, scheduleTransitions n popped rf =
        { rf with
          pendingTransitions := pending
          finalizeChangeAt :=
            ((transitionsDue popped rf.pendingTransitions).getLast?.map (n + 1, ·)).or
              rf.finalizeChangeAt } ∧
      ∀ k, pending[k]? =
        if k ∈ popped.map Prod.fst then none else rf.pendingTransitions[k]? := by
  induction popped generalizing rf with
  | nil =>
    refine ⟨rf.pendingTransitions, ?_, ?_⟩
    · simp [scheduleTransitions, transitionsDue]
    · simp
  | cons e rest ih =>
    obtain ⟨num, addr⟩ := e
    unfold scheduleTransitions transitionsDue
    cases hp : rf.pendingTransitions[num]? with
    | none =>
      obtain ⟨pending, heq, hget⟩ := ih rf
      refine ⟨pending, heq, ?_⟩
      intro k
      rw [hget k]
      by_cases hk : k = num
      · subst k
        simp [hp]
      · simp [hk]
    | some c =>
      obtain ⟨pending, heq, hget⟩ := ih
        { rf with
          pendingTransitions := rf.pendingTransitions.erase num
          finalizeChangeAt := some (n + 1, c) }
      refine ⟨pending, ?_, ?_⟩
      · simp only [heq]
        congr 1
        rw [List.getLast?_cons]
        cases (transitionsDue rest (rf.pendingTransitions.erase num)).getLast? <;> rfl
      · intro k
        rw [hget k]
        simp only [Std.ExtTreeMap.getElem?_erase, Nat.compare_eq_eq]
        by_cases hk : k = num
        · subst k
          simp
        · simp [hk, Ne.symm hk]

def popped (rf : RollingFinality) (n : ℕ) (signer : Address) : List (ℕ × Address) :=
  SuffixTrim.dropped (minority (rf.discover signer).length) (rf.headers ++ [(n, signer)])

theorem push_of_not_counts {rf : RollingFinality} {signer : Address} (h : rf.counts signer = false)
    (n : ℕ) : rf.push n signer = ([], rf) := by
  simp [push, h]

theorem push_eq {rf : RollingFinality} (h : WindowInv rf) (n : ℕ) {signer : Address}
    (hc : rf.counts signer = true) :
    ∃ m pending, rf.push n signer =
        (rf.popped n signer,
          { rf with
            validators := rf.discover signer
            headers := SuffixTrim.trim (minority (rf.discover signer).length)
              (rf.headers ++ [(n, signer)])
            signCount := m
            pendingTransitions := pending
            finalizeChangeAt :=
              ((transitionsDue (rf.popped n signer) rf.pendingTransitions).getLast?.map
                (n + 1, ·)).or rf.finalizeChangeAt }) ∧
      Histogram.Counts m ((SuffixTrim.trim (minority (rf.discover signer).length)
        (rf.headers ++ [(n, signer)])).map Prod.snd) ∧
      ∀ k, pending[k]? =
        if k ∈ (rf.popped n signer).map Prod.fst then none else rf.pendingTransitions[k]? := by
  have hq : Histogram.Counts (rf.enqueue n signer).signCount
      ((rf.enqueue n signer).headers.map Prod.snd) := by
    have := h.counted.increment signer
    simpa [enqueue] using this
  obtain ⟨m, hpop, hm⟩ := popFinalized_eq _ (rf.enqueue n signer) rfl hq
  obtain ⟨pending, hsched, hpending⟩ := scheduleTransitions_eq n (rf.popped n signer)
    { rf.enqueue n signer with
      headers := SuffixTrim.trim (minority (rf.enqueue n signer).validators.length)
        (rf.enqueue n signer).headers
      signCount := m }
  refine ⟨m, pending, ?_, hm, hpending⟩
  unfold push
  simp only [hc, ↓reduceIte]
  rw [hpop]
  exact congrArg (Prod.mk (rf.popped n signer)) hsched

section Push
variable {rf : RollingFinality} (h : WindowInv rf) (n : ℕ) {signer : Address}
  (hc : rf.counts signer = true)
include h hc

theorem push_fst : (rf.push n signer).1 = rf.popped n signer := by
  obtain ⟨m, pending, heq, -, -⟩ := push_eq h n hc
  rw [heq]

theorem push_headers : (rf.push n signer).2.headers =
    SuffixTrim.trim (minority (rf.discover signer).length) (rf.headers ++ [(n, signer)]) := by
  obtain ⟨m, pending, heq, -, -⟩ := push_eq h n hc
  rw [heq]

theorem popped_append_headers :
    rf.popped n signer ++ (rf.push n signer).2.headers = rf.headers ++ [(n, signer)] := by
  rw [push_headers h n hc]
  exact SuffixTrim.dropped_append_trim _

theorem push_pending (k : ℕ) : (rf.push n signer).2.pendingTransitions[k]? =
    if k ∈ (rf.popped n signer).map Prod.fst then none else rf.pendingTransitions[k]? := by
  obtain ⟨m, pending, heq, -, hp⟩ := push_eq h n hc
  rw [heq]
  exact hp k

theorem push_finalizeChangeAt : (rf.push n signer).2.finalizeChangeAt =
    ((transitionsDue (rf.popped n signer) rf.pendingTransitions).getLast?.map (n + 1, ·)).or
      rf.finalizeChangeAt := by
  obtain ⟨m, pending, heq, -, -⟩ := push_eq h n hc
  rw [heq]

end Push

theorem push_validators {rf : RollingFinality} (h : WindowInv rf) (n : ℕ) (signer : Address) :
    (rf.push n signer).2.validators =
      if rf.counts signer then rf.discover signer else rf.validators := by
  by_cases hc : rf.counts signer = true
  · obtain ⟨m, pending, heq, -, -⟩ := push_eq h n hc
    rw [heq, if_pos hc]
  · rw [push_of_not_counts (by simpa using hc), if_neg hc]

theorem push_sealed {rf : RollingFinality} (h : WindowInv rf) (n : ℕ) (signer : Address) :
    (rf.push n signer).2.validatorsSealed = rf.validatorsSealed := by
  by_cases hc : rf.counts signer = true
  · obtain ⟨m, pending, heq, -, -⟩ := push_eq h n hc
    rw [heq]
  · rw [push_of_not_counts (by simpa using hc)]

theorem subset_discover (rf : RollingFinality) (signer : Address) :
    rf.validators ⊆ rf.discover signer := by
  unfold discover
  split_ifs
  · exact List.Subset.refl _
  · exact List.subset_append_left _ _

theorem signer_mem_discover (rf : RollingFinality) (signer : Address) :
    signer ∈ rf.discover signer := by
  unfold discover
  split_ifs with h
  · simpa using h
  · simp

theorem discover_of_mem {rf : RollingFinality} {signer : Address} (h : signer ∈ rf.validators) :
    rf.discover signer = rf.validators := by
  simp [discover, h]

theorem WindowInv.push {rf : RollingFinality} (h : WindowInv rf) (n : ℕ) (signer : Address) :
    WindowInv (rf.push n signer).2 := by
  by_cases hc : rf.counts signer = true
  · obtain ⟨m, pending, heq, hm, -⟩ := push_eq h n hc
    rw [heq]
    refine ⟨hm, ?_, ?_⟩
    · rcases @SuffixTrim.small_trim _ (minority (rf.discover signer).length)
        (rf.headers ++ [(n, signer)]) with hs | hs
      · exact hs
      · rw [hs]
        exact minority_nil _
    · intro e he
      have he' := (SuffixTrim.trim_sublist _).subset he
      rw [List.mem_append, List.mem_singleton] at he'
      rcases he' with he' | rfl
      · exact subset_discover rf signer (h.known e he')
      · exact signer_mem_discover rf signer
  · rw [push_of_not_counts (by simpa using hc)]
    exact h

theorem WindowInv.takeFinalizeChange {rf : RollingFinality} (h : WindowInv rf) (n : ℕ) :
    WindowInv (rf.takeFinalizeChange n).2 := by
  unfold RollingFinality.takeFinalizeChange
  split
  · split_ifs
    · exact windowInv_of_cleared rfl rfl
    · exact h
  · exact h

theorem windowInv_setValidators (rf : RollingFinality) (validators : List Address) :
    WindowInv (rf.setValidators validators) :=
  windowInv_of_cleared rfl rfl

theorem windowInv_new (validators : List Address) : WindowInv (new validators) :=
  windowInv_of_cleared rfl rfl

theorem windowInv_fromRecovered (pending : BTreeMap ℕ Address) (slot : Option (ℕ × Address)) :
    WindowInv (fromRecovered pending slot) :=
  windowInv_of_cleared rfl rfl

theorem WindowInv.addPendingTransition {rf : RollingFinality} (h : WindowInv rf) (n : ℕ)
    (c : Address) : WindowInv (rf.addPendingTransition n c) :=
  ⟨h.counted, h.unfinalized, h.known⟩

theorem WindowInv.setImmediateFinalize {rf : RollingFinality} (h : WindowInv rf) (n : ℕ)
    (c : Address) : WindowInv (rf.setImmediateFinalize n c) :=
  ⟨h.counted, h.unfinalized, h.known⟩

end RethGnosis.RollingFinality
