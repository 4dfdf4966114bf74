import Mathlib.Algebra.Order.Ring.Nat
import Mathlib.Data.Finset.Card

set_option autoImplicit false

/-!
# Histograms in an ordered map

An ordered map that stores, for each element of a list, how often it occurs,
kept in step with the list by `increment` and `decrement`. Its size is the
number of distinct elements.
-/

abbrev BTreeMap (κ α : Type) [Ord κ] := Std.ExtTreeMap κ α compare

theorem BTreeMap.nodup_keys {κ α : Type} [Ord κ] [Std.TransOrd κ] (m : BTreeMap κ α) :
    m.keys.Nodup := by
  have hdistinct := Std.ExtTreeMap.distinct_keys (t := m)
  exact hdistinct.imp (fun hne heq => hne (by simp [heq]))

namespace Histogram

variable {κ : Type} [Ord κ] [Std.TransOrd κ]

/-- `*map.entry(a).or_insert(0) += 1` -/
def increment (m : BTreeMap κ ℕ) (a : κ) : BTreeMap κ ℕ :=
  m.insert a (m[a]?.getD 0 + 1)

/-- Decrement the count of `a`, removing the entry that reaches zero. -/
def decrement (m : BTreeMap κ ℕ) (a : κ) : BTreeMap κ ℕ :=
  match m[a]? with
  | none => m
  | some count => if count - 1 = 0 then m.erase a else m.insert a (count - 1)

variable [DecidableEq κ]

def Counts (m : BTreeMap κ ℕ) (l : List κ) : Prop :=
  ∀ a, m[a]? = if a ∈ l then some (l.count a) else none

theorem Counts.nil : Counts (∅ : BTreeMap κ ℕ) [] := by
  intro a
  simp

variable [Std.LawfulEqOrd κ]

theorem Counts.increment {m : BTreeMap κ ℕ} {l : List κ} (h : Counts m l) (a : κ) :
    Counts (increment m a) (l ++ [a]) := by
  intro b
  unfold Histogram.increment
  rw [Std.ExtTreeMap.getElem?_insert, h a, h b]
  by_cases hab : a = b
  · subst b
    by_cases ha : a ∈ l
    · simp [ha]
    · simp [ha, List.count_eq_zero_of_not_mem ha]
  · simp [hab, Ne.symm hab]

theorem Counts.decrement {m : BTreeMap κ ℕ} {l : List κ} {a : κ} (h : Counts m (a :: l)) :
    Counts (decrement m a) l := by
  intro b
  have ha : m[a]? = some (l.count a + 1) := by simpa using h a
  have hb := h b
  unfold Histogram.decrement
  simp only [ha, Nat.add_sub_cancel]
  by_cases hab : a = b
  · subst b
    by_cases hl : a ∈ l
    · have hc : l.count a ≠ 0 := (List.count_pos_iff.mpr hl).ne'
      simp [hl, hc]
    · simp [hl, List.count_eq_zero_of_not_mem hl]
  · have hbm : (b ∈ a :: l) = (b ∈ l) := by simp [Ne.symm hab]
    have hbc : (a :: l).count b = l.count b := List.count_cons_of_ne hab
    simp only [hbm, hbc] at hb
    by_cases hl : l.count a = 0
    · rw [if_pos hl, Std.ExtTreeMap.getElem?_erase, hb]
      simp [hab]
    · rw [if_neg hl, Std.ExtTreeMap.getElem?_insert, hb]
      simp [hab]

omit [Std.LawfulEqOrd κ] in
theorem Counts.mem_iff {m : BTreeMap κ ℕ} {l : List κ} (h : Counts m l) (a : κ) :
    a ∈ m ↔ a ∈ l := by
  rw [Std.ExtTreeMap.mem_iff_isSome_getElem?, h a]
  by_cases ha : a ∈ l <;> simp [ha]

theorem Counts.size_eq {m : BTreeMap κ ℕ} {l : List κ} (h : Counts m l) :
    m.size = l.toFinset.card := by
  have hk : m.keys.toFinset = l.toFinset := by
    ext a
    rw [List.mem_toFinset, List.mem_toFinset, Std.ExtTreeMap.mem_keys, h.mem_iff]
  rw [← hk, List.toFinset_card_of_nodup (BTreeMap.nodup_keys m), Std.ExtTreeMap.length_keys]

end Histogram
