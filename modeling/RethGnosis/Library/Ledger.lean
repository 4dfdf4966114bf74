import Mathlib.Algebra.Order.Ring.Nat
import Mathlib.Algebra.BigOperators.Group.Finset.Piecewise
import Mathlib.Algebra.Order.BigOperators.Group.Finset
import RethGnosis.Library.Histogram

set_option autoImplicit false

/-!
# Balances and their total

Credits and debits of a balance function over arbitrary accounts, with the total
over a finite set of accounts that contains the touched one. `creditUpTo` stops at
a cap, as a saturating addition does. A list of credits adds to each account what is
listed for it; an ordered map of amounts is read as a balance function.
-/
namespace Ledger
open Finset

variable {ι : Type}

def total (accounts : Finset ι) (b : ι → ℕ) : ℕ := ∑ a ∈ accounts, b a

theorem le_total {accounts : Finset ι} {a : ι} (ha : a ∈ accounts) (b : ι → ℕ) :
    b a ≤ total accounts b :=
  single_le_sum (fun _ _ => Nat.zero_le _) ha

variable [DecidableEq ι]

def credit (a : ι) (x : ℕ) (b : ι → ℕ) : ι → ℕ := Function.update b a (b a + x)

def debit (a : ι) (x : ℕ) (b : ι → ℕ) : ι → ℕ := Function.update b a (b a - x)

def creditUpTo (cap : ℕ) (a : ι) (x : ℕ) (b : ι → ℕ) : ι → ℕ :=
  Function.update b a (min (b a + x) cap)

theorem total_update {accounts : Finset ι} {a : ι} (ha : a ∈ accounts) (b : ι → ℕ) (v : ℕ) :
    total accounts (Function.update b a v) + b a = total accounts b + v := by
  have hrest := add_sum_erase accounts b ha
  have hupdated := sum_update_of_mem ha b v
  rw [sdiff_singleton_eq_erase] at hupdated
  unfold total
  omega

theorem total_credit {accounts : Finset ι} {a : ι} (ha : a ∈ accounts) (x : ℕ) (b : ι → ℕ) :
    total accounts (credit a x b) = total accounts b + x := by
  have h := total_update ha b (b a + x)
  unfold credit
  omega

theorem total_debit {accounts : Finset ι} {a : ι} (ha : a ∈ accounts) {x : ℕ} {b : ι → ℕ}
    (hx : x ≤ b a) : total accounts (debit a x b) + x = total accounts b := by
  have h := total_update ha b (b a - x)
  unfold debit
  omega

theorem creditUpTo_eq {cap : ℕ} {a : ι} {x : ℕ} {b : ι → ℕ} (h : b a + x ≤ cap) :
    creditUpTo cap a x b = credit a x b := by
  rw [creditUpTo, credit, min_eq_left h]

def listed (l : List (ι × ℕ)) (a : ι) : ℕ := ((l.filter (fun p => p.1 = a)).map Prod.snd).sum

theorem listed_cons (p : ι × ℕ) (l : List (ι × ℕ)) (a : ι) :
    listed (p :: l) a = (if p.1 = a then p.2 else 0) + listed l a := by
  unfold listed
  by_cases h : p.1 = a
  · simp [h]
  · simp [h]

theorem credit_apply (a : ι) (x : ℕ) (b : ι → ℕ) (c : ι) :
    credit a x b c = b c + if a = c then x else 0 := by
  unfold credit
  by_cases h : a = c
  · rw [← h, Function.update_self, if_pos rfl]
  · rw [Function.update_of_ne (Ne.symm h), if_neg h, Nat.add_zero]

def creditAll (l : List (ι × ℕ)) (b : ι → ℕ) : ι → ℕ :=
  l.foldl (fun b p => credit p.1 p.2 b) b

theorem creditAll_apply (l : List (ι × ℕ)) (b : ι → ℕ) (a : ι) :
    creditAll l b a = b a + listed l a := by
  induction l generalizing b with
  | nil => rfl
  | cons p l ih =>
    calc creditAll (p :: l) b a
        = creditAll l (credit p.1 p.2 b) a := rfl
      _ = b a + (if p.1 = a then p.2 else 0) + listed l a := by rw [ih, credit_apply]
      _ = b a + listed (p :: l) a := by rw [listed_cons, Nat.add_assoc]

theorem total_creditAll {accounts : Finset ι} (l : List (ι × ℕ)) (b : ι → ℕ)
    (h : ∀ p ∈ l, p.1 ∈ accounts) :
    total accounts (creditAll l b) = total accounts b + (l.map Prod.snd).sum := by
  induction l generalizing b with
  | nil => rfl
  | cons p l ih =>
    have hrest : ∀ q ∈ l, q.1 ∈ accounts := fun q hq => h q (List.mem_cons_of_mem p hq)
    calc total accounts (creditAll (p :: l) b)
        = total accounts (creditAll l (credit p.1 p.2 b)) := rfl
      _ = total accounts b + p.2 + (l.map Prod.snd).sum := by
          rw [ih _ hrest, total_credit (h p List.mem_cons_self)]
      _ = total accounts b + ((p :: l).map Prod.snd).sum := by
          rw [List.map_cons, List.sum_cons, Nat.add_assoc]

theorem total_listed {accounts : Finset ι} (l : List (ι × ℕ)) (h : ∀ p ∈ l, p.1 ∈ accounts) :
    total accounts (listed l) = (l.map Prod.snd).sum := by
  have hzero : total accounts (fun _ : ι => 0) = 0 := sum_const_zero
  have hlisted : creditAll l (fun _ => 0) = listed l := by
    funext a
    rw [creditAll_apply, Nat.zero_add]
  rw [← hlisted, total_creditAll l _ h, hzero, Nat.zero_add]

section Map
variable [Ord ι] [Std.TransOrd ι] [Std.LawfulEqOrd ι] {m : BTreeMap ι ℕ}

/-- `*m.entry(a).or_default() += x` -/
theorem getD_insert_eq_credit (a : ι) (x : ℕ) :
    (fun c => (m.insert a (m.getD a 0 + x)).getD c 0) = credit a x (fun c => m.getD c 0) := by
  funext c
  by_cases h : a = c
  · rw [← h, Std.ExtTreeMap.getD_insert_self, credit, Function.update_self]
  · rw [Std.ExtTreeMap.getD_insert, if_neg (by simpa using h), credit,
      Function.update_of_ne (Ne.symm h)]

/-- The values of a map are its balances, summed over any accounts that contain its keys. -/
theorem sum_values_eq_total {accounts : Finset ι} (h : ∀ a ∈ m, a ∈ accounts) :
    (m.toList.map Prod.snd).sum = total accounts (fun a => m.getD a 0) := by
  have hvalues : m.toList.map Prod.snd = m.keys.map (fun a => m.getD a 0) := by
    rw [← Std.ExtTreeMap.map_fst_toList_eq_keys, List.map_map]
    refine List.map_congr_left ?_
    rintro ⟨a, x⟩ hentry
    rw [Std.ExtTreeMap.mem_toList_iff_getElem?_eq_some] at hentry
    rw [Function.comp_apply, Std.ExtTreeMap.getD_eq_getD_getElem?, hentry]
    rfl
  have hsubset : m.keys.toFinset ⊆ accounts := by
    intro a ha
    rw [List.mem_toFinset, Std.ExtTreeMap.mem_keys] at ha
    exact h a ha
  have houtside : ∀ a ∈ accounts, a ∉ m.keys.toFinset → m.getD a 0 = 0 := by
    intro a _ ha
    rw [List.mem_toFinset, Std.ExtTreeMap.mem_keys] at ha
    exact Std.ExtTreeMap.getD_eq_fallback ha
  rw [hvalues, ← List.sum_toFinset _ (BTreeMap.nodup_keys m)]
  exact sum_subset hsubset houtside

end Map

end Ledger
