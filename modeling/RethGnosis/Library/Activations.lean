import Mathlib.Algebra.Order.Ring.Nat
import Mathlib.Data.List.Chain
import Mathlib.Data.List.Dedup
import Mathlib.Data.List.Sort

set_option autoImplicit false

/-!
# Repeats in a list, and its elements in ascending order

Walking a list and leaving out what equals the last element kept gives its elements in
ascending order, each once, exactly if the list ascends from the first element that is
kept.
-/
namespace Activations

variable {α : Type} [LinearOrder α]

/-- The elements that differ from the last one kept, `applied` at the start. -/
def dropRepeats (applied : α) : List α → List α
  | [] => []
  | a :: rest => if a = applied then dropRepeats applied rest else a :: dropRepeats a rest

def fresh (applied : α) (l : List α) : List α := l.dropWhile (fun a => a = applied)

theorem dropRepeats_fresh (applied : α) (l : List α) :
    dropRepeats applied l = dropRepeats applied (fresh applied l) := by
  induction l with
  | nil => rfl
  | cons a rest ih =>
    by_cases h : a = applied
    · rw [dropRepeats, if_pos h, ih, fresh, fresh, List.dropWhile_cons_of_pos (by simpa using h)]
    · rw [fresh, List.dropWhile_cons_of_neg (by simpa using h)]

/-- After `a`, what is kept ascends strictly exactly if the whole list ascends. -/
theorem isChain_dropRepeats (a : α) (l : List α) :
    (a :: dropRepeats a l).IsChain (· < ·) ↔ (a :: l).IsChain (· ≤ ·) := by
  induction l generalizing a with
  | nil => simp [dropRepeats]
  | cons b rest ih =>
    rw [dropRepeats, List.isChain_cons_cons]
    split_ifs with h
    · rw [ih, h]
      simp
    · rw [List.isChain_cons_cons, ih]
      constructor
      · rintro ⟨hlt, hrest⟩
        exact ⟨hlt.le, hrest⟩
      · rintro ⟨hle, hrest⟩
        exact ⟨lt_of_le_of_ne hle (Ne.symm h), hrest⟩

theorem mem_cons_dropRepeats {x a : α} {l : List α} : x ∈ a :: dropRepeats a l ↔ x ∈ a :: l := by
  induction l generalizing a with
  | nil => rfl
  | cons b rest ih =>
    rw [dropRepeats]
    split_ifs with h
    · rw [ih, h]
      simp
    · rw [List.mem_cons, ih]
      exact List.mem_cons.symm

theorem fresh_cases (applied : α) (l : List α) :
    fresh applied l = [] ∨ ∃ a rest, fresh applied l = a :: rest ∧ a ≠ applied := by
  induction l with
  | nil => exact .inl rfl
  | cons a rest ih =>
    by_cases h : a = applied
    · rw [fresh, List.dropWhile_cons_of_pos (by simpa using h)]
      exact ih
    · rw [fresh, List.dropWhile_cons_of_neg (by simpa using h)]
      exact .inr ⟨a, rest, rfl, h⟩

theorem isChain_dropRepeats_iff_fresh (applied : α) (l : List α) :
    (dropRepeats applied l).IsChain (· < ·) ↔ (fresh applied l).IsChain (· ≤ ·) := by
  rw [dropRepeats_fresh]
  rcases fresh_cases applied l with h | ⟨a, rest, h, hne⟩
  · rw [h, dropRepeats]
    simp
  · rw [h, dropRepeats, if_neg hne]
    exact isChain_dropRepeats a rest

theorem mem_dropRepeats_iff_fresh {applied x : α} {l : List α} :
    x ∈ dropRepeats applied l ↔ x ∈ fresh applied l := by
  rw [dropRepeats_fresh]
  rcases fresh_cases applied l with h | ⟨a, rest, h, hne⟩
  · rw [h, dropRepeats]
  · rw [h, dropRepeats, if_neg hne]
    exact mem_cons_dropRepeats

def ascending (l : List α) : List α := l.dedup.insertionSort (· ≤ ·)

theorem mem_ascending {x : α} {l : List α} : x ∈ ascending l ↔ x ∈ l := by
  rw [ascending, List.mem_insertionSort, List.mem_dedup]

theorem ascending_sorted (l : List α) : (ascending l).SortedLT := by
  have hnodup : (ascending l).Nodup :=
    (List.perm_insertionSort (· ≤ ·) l.dedup).nodup_iff.mpr l.nodup_dedup
  exact List.sortedLE_insertionSort.sortedLT_of_nodup hnodup

theorem eq_ascending_iff {l elements : List α} :
    l = ascending elements ↔ l.IsChain (· < ·) ∧ ∀ x, x ∈ elements ↔ x ∈ l := by
  constructor
  · rintro rfl
    exact ⟨(ascending_sorted elements).isChain, fun x => mem_ascending.symm⟩
  · rintro ⟨hchain, hmem⟩
    refine hchain.sortedLT.eq_of_mem_iff (ascending_sorted elements) (fun x => ?_)
    rw [mem_ascending, hmem]

/-- What is kept of a list is the ascending list of `elements` exactly if the list ascends from
there on and has these elements. -/
theorem dropRepeats_eq_ascending {applied : α} {l elements : List α} :
    dropRepeats applied l = ascending elements ↔
      (fresh applied l).IsChain (· ≤ ·) ∧ ∀ x, x ∈ elements ↔ x ∈ fresh applied l := by
  rw [eq_ascending_iff, isChain_dropRepeats_iff_fresh]
  simp only [mem_dropRepeats_iff_fresh]

theorem ascending_eq_nil {elements : List α} : ascending elements = [] ↔ elements = [] := by
  rw [eq_comm, eq_ascending_iff, List.eq_nil_iff_forall_not_mem]
  simp

theorem head?_ascending {elements : List α} {n : α} :
    (ascending elements).head? = some n ↔ n ∈ elements ∧ ∀ a ∈ elements, n ≤ a := by
  have hsorted := (ascending_sorted elements).pairwise
  have hmem : ∀ a, a ∈ elements ↔ a ∈ ascending elements := fun a => mem_ascending.symm
  simp only [hmem]
  cases h : ascending elements with
  | nil => simp
  | cons least rest =>
    rw [h, List.pairwise_cons] at hsorted
    rw [List.head?_cons, Option.some.injEq]
    constructor
    · rintro rfl
      refine ⟨List.mem_cons_self, fun a ha => ?_⟩
      rcases List.mem_cons.mp ha with rfl | hrest
      · exact le_rfl
      · exact (hsorted.1 a hrest).le
    · rintro ⟨hn, hle⟩
      rcases List.mem_cons.mp hn with rfl | hrest
      · rfl
      · exact le_antisymm (hsorted.1 n hrest).le (hle least List.mem_cons_self)

end Activations
