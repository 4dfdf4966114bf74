import Mathlib.Algebra.Order.Ring.Nat
import Mathlib.Data.List.Infix

set_option autoImplicit false

/-!
# Trimming a queue to a small suffix

`trim small` drops entries from the front of a list until what remains is
`small` (or nothing remains). For a predicate that passes to suffixes the
result on `a ++ b` differs from the result on `b` only by leftovers of `a`, so
what happens to the entries of `b` does not depend on the history `a`.
-/
namespace SuffixTrim

variable {α : Type} (small : List α → Bool)

def trim : List α → List α
  | [] => []
  | x :: t => if small (x :: t) then x :: t else trim t

def dropped : List α → List α
  | [] => []
  | x :: t => if small (x :: t) then [] else x :: dropped t

def SuffixClosed : Prop := ∀ x t, small (x :: t) = true → small t = true

variable {small}

theorem dropped_append_trim (l : List α) : dropped small l ++ trim small l = l := by
  induction l with
  | nil => rfl
  | cons x t ih =>
    unfold dropped trim
    split_ifs
    · rfl
    · exact congrArg (x :: ·) ih

theorem trim_sublist (l : List α) : (trim small l).Sublist l := by
  have h := List.sublist_append_right (dropped small l) (trim small l)
  rwa [dropped_append_trim] at h

theorem trim_of_small {l : List α} (h : small l = true) : trim small l = l := by
  cases l with
  | nil => rfl
  | cons x t => simp only [trim, h, ↓reduceIte]

theorem dropped_of_small {l : List α} (h : small l = true) : dropped small l = [] := by
  cases l with
  | nil => rfl
  | cons x t => simp only [dropped, h, ↓reduceIte]

theorem small_trim (l : List α) : small (trim small l) = true ∨ trim small l = [] := by
  induction l with
  | nil => exact .inr rfl
  | cons x t ih =>
    unfold trim
    split_ifs with h
    · exact .inl h
    · exact ih

theorem SuffixClosed.append (h : SuffixClosed small) (a b : List α)
    (hab : small (a ++ b) = true) : small b = true := by
  induction a with
  | nil => exact hab
  | cons x t ih => exact ih (h x (t ++ b) hab)

theorem SuffixClosed.lt_length_dropped_iff (h : SuffixClosed small) {l : List α} {i : ℕ}
    (hi : i < l.length) : i < (dropped small l).length ↔ small (l.drop i) = false := by
  induction l generalizing i with
  | nil => simp at hi
  | cons x t ih =>
    unfold dropped
    split_ifs with hs
    · have hsuffix : small ((x :: t).drop i) = true := by
        refine h.append ((x :: t).take i) _ ?_
        rwa [List.take_append_drop]
      simp [hsuffix]
    · cases i with
      | zero => simpa using hs
      | succ i =>
        rw [List.length_cons, Nat.add_lt_add_iff_right, List.drop_succ_cons]
        exact ih (by simpa using hi)

/-- The history `a` only leaves a remainder in front of the trimmed `b`. -/
theorem SuffixClosed.trim_append (h : SuffixClosed small) (a b : List α) :
    ∃ gone kept, a = gone ++ kept ∧
      trim small (a ++ b) = kept ++ trim small b ∧
      dropped small (a ++ b) = gone ++ dropped small b := by
  induction a with
  | nil => exact ⟨[], [], rfl, rfl, rfl⟩
  | cons x t ih =>
    by_cases hs : small (x :: t ++ b) = true
    · have hb := h.append (x :: t) b hs
      refine ⟨[], x :: t, rfl, ?_, ?_⟩
      · rw [trim_of_small hs, trim_of_small hb]
      · rw [dropped_of_small hs, dropped_of_small hb]
        rfl
    · obtain ⟨gone, kept, rfl, htrim, hdropped⟩ := ih
      refine ⟨x :: gone, kept, rfl, ?_, ?_⟩
      · rw [← htrim]
        simp only [List.cons_append] at hs ⊢
        simp only [trim, hs, Bool.false_eq_true, ↓reduceIte]
      · change dropped small (x :: (gone ++ kept ++ b)) = x :: (gone ++ dropped small b)
        rw [← hdropped]
        simp only [List.cons_append] at hs
        simp only [dropped, hs, Bool.false_eq_true, ↓reduceIte]

theorem trim_of_length {m : ℕ} {l : List α}
    (h : ∀ s, s <:+ l → (small s = true ↔ s.length ≤ m)) :
    trim small l = l.drop (l.length - m) ∧ dropped small l = l.take (l.length - m) := by
  induction l with
  | nil => exact ⟨List.drop_nil.symm, List.take_nil.symm⟩
  | cons x t ih =>
    have hall := h (x :: t) (List.suffix_refl _)
    unfold trim dropped
    split_ifs with hs
    · have hle := hall.mp hs
      rw [Nat.sub_eq_zero_of_le hle]
      exact ⟨rfl, rfl⟩
    · have hlt : m < (x :: t).length := Nat.lt_of_not_le (fun hle => hs (hall.mpr hle))
      have hcut : (x :: t).length - m = t.length - m + 1 := by
        rw [List.length_cons] at hlt ⊢
        omega
      obtain ⟨htrim, hdropped⟩ := ih (fun s hsuffix => h s (hsuffix.trans (List.suffix_cons x t)))
      rw [hcut, List.drop_succ_cons, List.take_succ_cons, htrim, hdropped]
      exact ⟨rfl, rfl⟩

end SuffixTrim
