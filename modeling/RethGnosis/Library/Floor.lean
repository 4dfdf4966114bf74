import Mathlib.Algebra.Order.Ring.Nat
import Mathlib.Data.List.Pairwise
import RethGnosis.Library.Histogram

set_option autoImplicit false

/-!
# The last entry at or below a key

`floor l n` is the last entry of an association list whose key is at most `n`. In a list
with strictly ascending keys no such entry has a greater key; in an ordered map it is the
entry after which no key up to `n` follows.
-/
namespace Floor

section List
variable {κ α : Type} [LinearOrder κ] {l : List (κ × α)} {n : κ} {entry : κ × α}

def floor (l : List (κ × α)) (n : κ) : Option (κ × α) :=
  (l.filter (fun entry => entry.1 ≤ n)).getLast?

theorem floor_eq_none_iff : floor l n = none ↔ ∀ entry ∈ l, n < entry.1 := by
  simp only [floor, List.getLast?_eq_none_iff, List.filter_eq_nil_iff, decide_eq_true_eq, not_le]

theorem mem_of_floor (h : floor l n = some entry) : entry ∈ l ∧ entry.1 ≤ n := by
  have hmem := List.mem_of_getLast? h
  rwa [List.mem_filter, decide_eq_true_eq] at hmem

theorem le_floor (hl : l.Pairwise (fun a b => a.1 < b.1)) (h : floor l n = some entry)
    {other : κ × α} (hother : other ∈ l) (hle : other.1 ≤ n) : other.1 ≤ entry.1 := by
  obtain ⟨init, hinit⟩ := List.getLast?_eq_some_iff.mp h
  have hmem : other ∈ l.filter (fun entry => entry.1 ≤ n) := by
    rw [List.mem_filter, decide_eq_true_eq]
    exact ⟨hother, hle⟩
  have hsorted := hl.filter (fun entry => entry.1 ≤ n)
  rw [hinit, List.pairwise_append] at hsorted
  rw [hinit, List.mem_append, List.mem_singleton] at hmem
  rcases hmem with hmem | rfl
  · exact (hsorted.2.2 other hmem entry List.mem_cons_self).le
  · exact le_rfl

end List

section Map
variable {α : Type} {m : BTreeMap ℕ α} {n : ℕ}

def InForce (m : BTreeMap ℕ α) (n k : ℕ) (value : α) : Prop :=
  m[k]? = some value ∧ k ≤ n ∧ ∀ j, k < j → j ≤ n → m[j]? = none

theorem ascending_toList (m : BTreeMap ℕ α) : m.toList.Pairwise (fun a b => a.1 < b.1) := by
  have hordered := Std.ExtTreeMap.ordered_keys_toList (t := m)
  exact hordered.imp Nat.compare_eq_lt.mp

theorem floor_toList_eq_some_iff {k : ℕ} {value : α} :
    floor m.toList n = some (k, value) ↔ InForce m n k value := by
  constructor
  · intro h
    obtain ⟨hmem, hle⟩ := mem_of_floor h
    refine ⟨Std.ExtTreeMap.mem_toList_iff_getElem?_eq_some.mp hmem, hle, ?_⟩
    intro j hj hjn
    cases hget : m[j]? with
    | none => rfl
    | some other =>
      have hother := Std.ExtTreeMap.mem_toList_iff_getElem?_eq_some.mpr hget
      have hbound : j ≤ k := le_floor (ascending_toList m) h hother hjn
      omega
  · rintro ⟨hget, hle, hlast⟩
    have hmem := Std.ExtTreeMap.mem_toList_iff_getElem?_eq_some.mpr hget
    cases h : floor m.toList n with
    | none =>
      have hlt : n < k := floor_eq_none_iff.mp h (k, value) hmem
      omega
    | some found =>
      obtain ⟨j, other⟩ := found
      obtain ⟨hfound, hjn⟩ := mem_of_floor h
      rw [Std.ExtTreeMap.mem_toList_iff_getElem?_eq_some] at hfound
      have hkj : k ≤ j := le_floor (ascending_toList m) h hmem hle
      have hjk : ¬ k < j := fun hlt => by
        rw [hlast j hlt hjn] at hfound
        contradiction
      obtain rfl : j = k := by omega
      rw [hget, Option.some.injEq] at hfound
      rw [hfound]

theorem floor_toList_eq_none_iff :
    floor m.toList n = none ↔ ∀ k ≤ n, m[k]? = none := by
  rw [floor_eq_none_iff]
  constructor
  · intro h k hk
    cases hget : m[k]? with
    | none => rfl
    | some value =>
      have hlt := h (k, value) (Std.ExtTreeMap.mem_toList_iff_getElem?_eq_some.mpr hget)
      exact absurd hk (not_le.mpr hlt)
  · rintro h ⟨k, value⟩ hentry
    by_contra hle
    rw [Std.ExtTreeMap.mem_toList_iff_getElem?_eq_some, h k (not_lt.mp hle)] at hentry
    contradiction

end Map

end Floor
