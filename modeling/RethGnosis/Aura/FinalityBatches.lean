import RethGnosis.Library.Run
import RethGnosis.Aura.TrackerCalls

set_option autoImplicit false

/-!
# The batches that pushes report

A counted push cuts the queue where the entries with a majority from there on end.
Whatever calls are made, what is reported is a part of what was pushed, in order. An
older history only adds its own entries in front of a batch.
-/
namespace RethGnosis.RollingFinality
open Run

def distinctSigners (window : List (ℕ × Address)) : ℕ := (window.map Prod.snd).toFinset.card

/-- `batch` are the entries of `window` from which on more than half of `count` validators signed,
`rest` the others. -/
structure SplitsAtMajority (count : ℕ) (window batch rest : List (ℕ × Address)) : Prop where
  split : batch ++ rest = window
  majority : ∀ i < window.length, i < batch.length ↔ count < distinctSigners (window.drop i) * 2

theorem minority_eq_false_iff {count : ℕ} {window : List (ℕ × Address)} :
    minority count window = false ↔ count < distinctSigners window * 2 := by
  rw [minority, decide_eq_false_iff_not, not_le, distinctSigners]

theorem counts_iff {rf : RollingFinality} {signer : Address} :
    rf.counts signer = true ↔ signer ∈ rf.validators ∨ rf.validatorsSealed = false := by
  simp [counts]

theorem WindowInv.splitsAtMajority {rf : RollingFinality} (h : WindowInv rf) (n : ℕ)
    {signer : Address} (hc : rf.counts signer = true) :
    SplitsAtMajority (rf.discover signer).length (rf.headers ++ [(n, signer)])
      (rf.push n signer).1 (rf.push n signer).2.headers := by
  rw [push_fst h n hc]
  refine ⟨popped_append_headers h n hc, ?_⟩
  intro i hi
  rw [← minority_eq_false_iff]
  exact (minority_suffixClosed _).lt_length_dropped_iff hi

section Calls

inductive TrackerCall where
  | push (blockNumber : ℕ) (signer : Address)
  | addPendingTransition (blockNumber : ℕ) (contractAddress : Address)
  | setImmediateFinalize (targetBlock : ℕ) (contractAddress : Address)
  | takeFinalizeChange (blockNumber : ℕ)
  | setValidators (validators : List Address)

namespace TrackerCall

def step : TrackerCall → RollingFinality → RollingFinality
  | .push blockNumber signer, rf => (rf.push blockNumber signer).2
  | .addPendingTransition blockNumber contract, rf => rf.addPendingTransition blockNumber contract
  | .setImmediateFinalize targetBlock contract, rf => rf.setImmediateFinalize targetBlock contract
  | .takeFinalizeChange blockNumber, rf => (rf.takeFinalizeChange blockNumber).2
  | .setValidators validators, rf => rf.setValidators validators

def reported : TrackerCall → RollingFinality → List (ℕ × Address)
  | .push blockNumber signer, rf => (rf.push blockNumber signer).1
  | _, _ => []

def pushed : TrackerCall → List (ℕ × Address)
  | .push blockNumber signer => [(blockNumber, signer)]
  | _ => []

end TrackerCall

def reportedIn (calls : List TrackerCall) (rf : RollingFinality) : List (ℕ × Address) :=
  (visits TrackerCall.step calls rf).flatMap (fun v => v.1.reported v.2)

def pushedIn (calls : List TrackerCall) : List (ℕ × Address) := calls.flatMap TrackerCall.pushed

theorem Reachable.step {rf : RollingFinality} (h : Reachable rf) (call : TrackerCall) :
    Reachable (call.step rf) := by
  cases call with
  | push n signer => exact h.push n signer
  | addPendingTransition n contract => exact h.addPendingTransition n contract
  | setImmediateFinalize target contract => exact h.setImmediateFinalize target contract
  | takeFinalizeChange n => exact h.takeFinalizeChange n
  | setValidators validators => exact h.setValidators validators

theorem takeFinalizeChange_headers (rf : RollingFinality) (n : ℕ) :
    (rf.takeFinalizeChange n).2.headers = rf.headers ∨
      (rf.takeFinalizeChange n).2.headers = [] := by
  unfold takeFinalizeChange
  split
  · split_ifs
    · exact .inr rfl
    · exact .inl rfl
  · exact .inl rfl

theorem Reachable.step_sublist {rf : RollingFinality} (h : Reachable rf) (call : TrackerCall) :
    (call.reported rf ++ (call.step rf).headers).Sublist (rf.headers ++ call.pushed) := by
  cases call with
  | push n signer =>
    by_cases hc : rf.counts signer = true
    · have hsplit := (h.windowInv.splitsAtMajority n hc).split
      rw [TrackerCall.reported, TrackerCall.step, hsplit]
      exact List.Sublist.refl _
    · have hskip := push_of_not_counts (by simpa using hc) n
      rw [TrackerCall.reported, TrackerCall.step, hskip]
      exact List.sublist_append_left _ _
  | addPendingTransition n contract => exact List.sublist_append_left _ _
  | setImmediateFinalize target contract => exact List.sublist_append_left _ _
  | takeFinalizeChange n =>
    change (rf.takeFinalizeChange n).2.headers.Sublist (rf.headers ++ [])
    rcases takeFinalizeChange_headers rf n with hkeep | hclear
    · rw [hkeep]
      exact List.sublist_append_left _ _
    · rw [hclear]
      exact List.nil_sublist _
  | setValidators validators => exact List.nil_sublist _

theorem Reachable.reportedIn_sublist {rf : RollingFinality} (h : Reachable rf)
    (calls : List TrackerCall) :
    (reportedIn calls rf).Sublist (rf.headers ++ pushedIn calls) := by
  induction calls generalizing rf with
  | nil => exact List.nil_sublist _
  | cons call rest ih =>
    have hrest := (ih (h.step call)).append_left (call.reported rf)
    have hfirst := (h.step_sublist call).append_right (pushedIn rest)
    rw [List.append_assoc] at hfirst
    have hall := hrest.trans hfirst
    rwa [List.append_assoc] at hall

end Calls

structure PushReports (rf : RollingFinality) (n : ℕ) (signer : Address) : Prop where
  counted : signer ∈ rf.validators ∨ rf.validatorsSealed = false →
    (rf.push n signer).2.validators = rf.discover signer ∧
      SplitsAtMajority (rf.push n signer).2.validators.length (rf.headers ++ [(n, signer)])
        (rf.push n signer).1 (rf.push n signer).2.headers
  ignored : signer ∉ rf.validators → rf.validatorsSealed = true → rf.push n signer = ([], rf)

theorem Reachable.pushReports {rf : RollingFinality} (h : Reachable rf) (n : ℕ)
    (signer : Address) : PushReports rf n signer := by
  refine ⟨?_, ?_⟩
  · intro hcounted
    have hc := counts_iff.mpr hcounted
    have hvalidators := push_validators h.windowInv n signer
    rw [if_pos hc] at hvalidators
    refine ⟨hvalidators, ?_⟩
    rw [hvalidators]
    exact h.windowInv.splitsAtMajority n hc
  · intro hunknown hsealed
    have hc : rf.counts signer = false := by simp [counts, hunknown, hsealed]
    exact push_of_not_counts hc n

/-- A counted push reports exactly the entries with a majority from there on and keeps the rest, any
other push does nothing. Over any calls the reports are a part of the queue and the pushes, in
order; with increasing numbers no number occurs twice. -/
theorem reported_batches {rf : RollingFinality} (h : Reachable rf) :
    (∀ n signer, PushReports rf n signer) ∧
      ∀ calls,
        (∀ v ∈ visits TrackerCall.step calls rf, ∀ n signer, PushReports v.2 n signer) ∧
        (reportedIn calls rf).Sublist (rf.headers ++ pushedIn calls) ∧
        ((rf.headers ++ pushedIn calls).Pairwise (fun a b => a.1 < b.1) →
          (reportedIn calls rf).Pairwise (fun a b => a.1 < b.1)) := by
  refine ⟨h.pushReports, ?_⟩
  intro calls
  have hvisited := (@invariant _ _ TrackerCall.step Reachable (fun call _ hs => hs.step call)
    calls rf h).2
  have hsublist := h.reportedIn_sublist calls
  refine ⟨?_, hsublist, ?_⟩
  · intro v hv
    exact (hvisited v hv).pushReports
  · intro hincreasing
    exact hincreasing.sublist hsublist

/-- A sealed set of three with one block in the queue. -/
theorem reported_batches_oneQueued :
    let rf := (((new []).setValidators [1#160, 2#160, 3#160]).push 1 1#160).2
    (∀ n signer, PushReports rf n signer) ∧
      ∀ calls,
        (∀ v ∈ visits TrackerCall.step calls rf, ∀ n signer, PushReports v.2 n signer) ∧
        (reportedIn calls rf).Sublist (rf.headers ++ pushedIn calls) ∧
        ((rf.headers ++ pushedIn calls).Pairwise (fun a b => a.1 < b.1) →
          (reportedIn calls rf).Pairwise (fun a b => a.1 < b.1)) :=
  reported_batches (((Reachable.new []).setValidators [1#160, 2#160, 3#160]).push 1 1#160)

section History

def pushStep (entry : ℕ × Address) (rf : RollingFinality) : RollingFinality :=
  (rf.push entry.1 entry.2).2

def batches (entries : List (ℕ × Address)) (rf : RollingFinality) : List (List (ℕ × Address)) :=
  (visits pushStep entries rf).map (fun v => (v.2.push v.1.1 v.1.2).1)

/-- Sealed trackers with the same validators; the queue of `older` is that of `rf` with a part of
`history` in front, and the queue of `rf` is a part of `entries`. -/
structure Behind (history entries : List (ℕ × Address)) (older rf : RollingFinality) : Prop where
  olderInv : WindowInv older
  inv : WindowInv rf
  olderSealed : older.validatorsSealed = true
  isSealed : rf.validatorsSealed = true
  validators : older.validators = rf.validators
  headers : ∃ kept, kept ⊆ history ∧ older.headers = kept ++ rf.headers
  queued : rf.headers ⊆ entries

variable {history entries : List (ℕ × Address)} {older rf : RollingFinality}

theorem push_validators_sealed {rf : RollingFinality} (h : WindowInv rf)
    (hsealed : rf.validatorsSealed = true) (n : ℕ) (signer : Address) :
    (rf.push n signer).2.validators = rf.validators := by
  rw [push_validators h]
  split_ifs with hc
  · rw [counts_iff, hsealed] at hc
    exact discover_of_mem (by simpa using hc)
  · rfl

theorem Behind.push_known (h : Behind history entries older rf) (n : ℕ) {signer : Address}
    (hknown : signer ∈ rf.validators) :
    ∃ gone kept, gone ⊆ history ∧ kept ⊆ history ∧
      (older.push n signer).1 = gone ++ (rf.push n signer).1 ∧
      (older.push n signer).2.headers = kept ++ (rf.push n signer).2.headers := by
  have hc : rf.counts signer = true := counts_iff.mpr (.inl hknown)
  have hknownOlder : signer ∈ older.validators := by rwa [h.validators]
  have hcOlder : older.counts signer = true := counts_iff.mpr (.inl hknownOlder)
  have hdiscover : older.discover signer = rf.discover signer := by
    rw [discover_of_mem hknownOlder, discover_of_mem hknown, h.validators]
  obtain ⟨old, hold, hheaders⟩ := h.headers
  obtain ⟨gone, kept, hsplit, htrim, hdropped⟩ :=
    (minority_suffixClosed (rf.discover signer).length).trim_append old
      (rf.headers ++ [(n, signer)])
  rw [hsplit, List.append_subset] at hold
  refine ⟨gone, kept, hold.1, hold.2, ?_, ?_⟩
  · rw [push_fst h.olderInv n hcOlder, push_fst h.inv n hc, popped, popped, hdiscover, hheaders,
      List.append_assoc, hdropped]
  · rw [push_headers h.olderInv n hcOlder, push_headers h.inv n hc, hdiscover, hheaders,
      List.append_assoc, htrim]

theorem WindowInv.push_subset {rf : RollingFinality} (h : WindowInv rf) {entry : ℕ × Address}
    (hentry : entry ∈ entries) (hqueued : rf.headers ⊆ entries) :
    (rf.push entry.1 entry.2).1 ⊆ entries ∧ (pushStep entry rf).headers ⊆ entries := by
  by_cases hc : rf.counts entry.2 = true
  · have hsplit := (h.splitsAtMajority entry.1 hc).split
    have hall : rf.headers ++ [entry] ⊆ entries := by
      rw [List.append_subset]
      exact ⟨hqueued, by simpa using hentry⟩
    rw [← hsplit, List.append_subset] at hall
    exact hall
  · have hskip := push_of_not_counts (by simpa using hc) entry.1
    rw [pushStep, hskip]
    exact ⟨List.nil_subset _, hqueued⟩

theorem Behind.push (h : Behind history entries older rf) {entry : ℕ × Address}
    (hentry : entry ∈ entries) :
    (∃ gone, gone ⊆ history ∧
        (older.push entry.1 entry.2).1 = gone ++ (rf.push entry.1 entry.2).1) ∧
      Behind history entries (pushStep entry older) (pushStep entry rf) := by
  have hsubset := h.inv.push_subset hentry h.queued
  have hnext : (∃ kept, kept ⊆ history ∧
      (pushStep entry older).headers = kept ++ (pushStep entry rf).headers) →
        Behind history entries (pushStep entry older) (pushStep entry rf) := by
    intro hheaders
    refine ⟨h.olderInv.push _ _, h.inv.push _ _, ?_, ?_, ?_, hheaders, hsubset.2⟩
    · rw [pushStep, push_sealed h.olderInv, h.olderSealed]
    · rw [pushStep, push_sealed h.inv, h.isSealed]
    · rw [pushStep, pushStep, push_validators_sealed h.olderInv h.olderSealed,
        push_validators_sealed h.inv h.isSealed, h.validators]
  by_cases hknown : entry.2 ∈ rf.validators
  · obtain ⟨gone, kept, hgone, hkept, hbatch, hheaders⟩ := h.push_known entry.1 hknown
    exact ⟨⟨gone, hgone, hbatch⟩, hnext ⟨kept, hkept, hheaders⟩⟩
  · have hskip : rf.push entry.1 entry.2 = ([], rf) :=
      push_of_not_counts (by simp [counts, hknown, h.isSealed]) _
    have hskipOlder : older.push entry.1 entry.2 = ([], older) :=
      push_of_not_counts (by simp [counts, h.validators, hknown, h.olderSealed]) _
    refine ⟨⟨[], List.nil_subset _, ?_⟩, hnext ?_⟩
    · rw [hskip, hskipOlder]
      rfl
    · rw [pushStep, pushStep, hskip, hskipOlder]
      exact h.headers

theorem filter_mem_batch {gone batch : List (ℕ × Address)} (hgone : gone ⊆ history)
    (hbatch : batch ⊆ entries) (hdisjoint : history.Disjoint entries) :
    (gone ++ batch).filter (fun e => e ∈ entries) = batch := by
  have hnone : gone.filter (fun e => e ∈ entries) = [] := by
    rw [List.filter_eq_nil_iff]
    intro e he hin
    exact hdisjoint (hgone he) (by simpa using hin)
  have hall : batch.filter (fun e => e ∈ entries) = batch := by
    rw [List.filter_eq_self]
    intro e he
    simpa using hbatch he
  rw [List.filter_append, hnone, hall, List.nil_append]

/-- Over a run the batches, cut down to the entries of the run, do not depend on the history. -/
theorem Behind.batches_eq (h : Behind history entries older rf)
    (hdisjoint : history.Disjoint entries) :
    (batches entries older).map (fun batch => batch.filter (fun e => e ∈ entries)) =
      batches entries rf := by
  rw [batches, batches, List.map_map]
  refine outputs_eq (R := Behind history entries)
    (f := fun (entry : ℕ × Address) rf =>
      (rf.push entry.1 entry.2).1.filter (fun e => e ∈ entries))
    (g := fun (entry : ℕ × Address) rf => (rf.push entry.1 entry.2).1) ?_ h
  intro entry hentry older rf hbehind
  obtain ⟨⟨gone, hgone, hbatch⟩, hnext⟩ := hbehind.push hentry
  refine ⟨?_, hnext⟩
  rw [hbatch]
  exact filter_mem_batch hgone (hbehind.inv.push_subset hentry hbehind.queued).1 hdisjoint

theorem run_pushes {rf : RollingFinality} (h : WindowInv rf) (hsealed : rf.validatorsSealed = true)
    (hqueued : rf.headers ⊆ history) {pushes : List (ℕ × Address)} (hpushes : pushes ⊆ history) :
    WindowInv (run pushStep pushes rf) ∧ (run pushStep pushes rf).validatorsSealed = true ∧
      (run pushStep pushes rf).validators = rf.validators ∧
      (run pushStep pushes rf).headers ⊆ history := by
  induction pushes generalizing rf with
  | nil => exact ⟨h, hsealed, rfl, hqueued⟩
  | cons entry rest ih =>
    rw [List.cons_subset] at hpushes
    have hsubset := h.push_subset hpushes.1 hqueued
    have hvalidators := push_validators_sealed h hsealed entry.1 entry.2
    have hrest := @ih (pushStep entry rf) (h.push _ _) (by rw [pushStep, push_sealed h, hsealed])
      hsubset.2 hpushes.2
    rw [pushStep, hvalidators] at hrest
    exact hrest

/-- In a sealed tracker with an empty window, what is reported of `entries` and by which push is the
same after `history` as without it. -/
theorem finality_forgets_history {rf : RollingFinality} {history entries : List (ℕ × Address)}
    (hsealed : rf.validatorsSealed = true) (hheaders : rf.headers = [])
    (hcount : rf.signCount = ∅)
    (hincreasing : (history ++ entries).Pairwise (fun a b => a.1 < b.1)) :
    (batches entries (run pushStep history rf)).map (fun batch =>
        batch.filter (fun e => e ∈ entries)) =
      batches entries rf := by
  have hinv := windowInv_of_cleared hheaders hcount
  have hempty : rf.headers ⊆ history := by
    rw [hheaders]
    exact List.nil_subset _
  obtain ⟨holder, holderSealed, hvalidators, hqueued⟩ :=
    run_pushes hinv hsealed hempty (List.Subset.refl history)
  have hbehind : Behind history entries (run pushStep history rf) rf := by
    refine ⟨holder, hinv, holderSealed, hsealed, hvalidators, ⟨_, hqueued, ?_⟩, ?_⟩
    · rw [hheaders, List.append_nil]
    · rw [hheaders]
      exact List.nil_subset _
  refine hbehind.batches_eq ?_
  intro e hhistory hentries
  have hlt := (List.pairwise_append.mp hincreasing).2.2 e hhistory e hentries
  exact lt_irrefl _ hlt

/-- Three validators; the two blocks after the first report one of the two in either case. -/
theorem finality_forgets_history_oneBefore :
    (batches [(2, 2#160), (3, 3#160)]
        (run pushStep [(1, 1#160)] ((new []).setValidators [1#160, 2#160, 3#160]))).map
          (fun batch => batch.filter (fun e => e ∈ [(2, 2#160), (3, 3#160)])) =
      batches [(2, 2#160), (3, 3#160)] ((new []).setValidators [1#160, 2#160, 3#160]) :=
  finality_forgets_history rfl rfl rfl (by decide)

end History

end RethGnosis.RollingFinality
