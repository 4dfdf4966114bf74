import Mathlib.Algebra.Order.Ring.Nat
import Mathlib.Data.List.Nodup
import RethGnosis.Library.Histogram

set_option autoImplicit false

/-!
# Maps changed entry by entry

A loop over entries each of which changes a map at its own key. With distinct keys every
entry finds at its key what stood there before the loop, so the order of the entries does
not matter. `overlay` fills an empty map with the values of those entries that have one.
-/
namespace Overlay

variable {ε κ α : Type} [Ord κ] [Std.TransOrd κ]

/-- An entry changes the map at its own key, to `f` of what stands there. -/
def Local (key : ε → κ) (f : ε → Option α → Option α)
    (step : BTreeMap κ α → ε → BTreeMap κ α) : Prop :=
  (∀ m e, (step m e)[key e]? = f e m[key e]?) ∧ ∀ m e k, key e ≠ k → (step m e)[k]? = m[k]?

section Fold
variable {key : ε → κ} {f : ε → Option α → Option α} {step : BTreeMap κ α → ε → BTreeMap κ α}
  {entries : List ε} {m : BTreeMap κ α}

theorem Local.get_of_notMem (h : Local key f step) {k : κ} (hk : k ∉ entries.map key) :
    (entries.foldl step m)[k]? = m[k]? := by
  induction entries generalizing m with
  | nil => rfl
  | cons e rest ih =>
    rw [List.map_cons, List.mem_cons, not_or] at hk
    rw [List.foldl_cons, ih hk.2, h.2 m e k (Ne.symm hk.1)]

theorem Local.get_of_mem (h : Local key f step) (hnodup : (entries.map key).Nodup) {e : ε}
    (he : e ∈ entries) : (entries.foldl step m)[key e]? = f e m[key e]? := by
  induction entries generalizing m with
  | nil => simp at he
  | cons first rest ih =>
    rw [List.map_cons, List.nodup_cons] at hnodup
    rw [List.foldl_cons]
    rcases List.mem_cons.mp he with rfl | he
    · rw [h.get_of_notMem hnodup.1, h.1]
    · have hne : key first ≠ key e := by
        intro heq
        exact hnodup.1 (heq ▸ List.mem_map_of_mem he)
      rw [ih hnodup.2 he, h.2 m first _ hne]

variable [Std.LawfulEqOrd κ]

theorem Local.foldl_perm (h : Local key f step) (hnodup : (entries.map key).Nodup)
    {order : List ε} (hperm : order.Perm entries) :
    order.foldl step m = entries.foldl step m := by
  have horder : (order.map key).Nodup := (hperm.map key).nodup_iff.mpr hnodup
  refine Std.ExtTreeMap.ext_getElem? ?_
  intro k
  by_cases hk : k ∈ entries.map key
  · obtain ⟨e, he, rfl⟩ := List.mem_map.mp hk
    rw [h.get_of_mem hnodup he, h.get_of_mem horder (hperm.mem_iff.mpr he)]
  · have hkorder : k ∉ order.map key := fun hmem => hk ((hperm.map key).mem_iff.mp hmem)
    rw [h.get_of_notMem hk, h.get_of_notMem hkorder]

end Fold

section Overlay
variable (key : ε → κ) (value : ε → Option α)

def put (m : BTreeMap κ α) (e : ε) : BTreeMap κ α :=
  match value e with
  | some v => m.insert (key e) v
  | none => m

def overlay (entries : List ε) : BTreeMap κ α := entries.foldl (put key value) ∅

variable {key value} {entries : List ε}

theorem overlay_append_singleton (front : List ε) (last : ε) :
    overlay key value (front ++ [last]) = put key value (overlay key value front) last :=
  List.foldl_append

theorem overlay_eq_empty (h : ∀ e ∈ entries, value e = none) : overlay key value entries = ∅ := by
  have hfold : ∀ m : BTreeMap κ α, entries.foldl (put key value) m = m := by
    induction entries with
    | nil => exact fun _ => rfl
    | cons e rest ih =>
      intro m
      rw [List.forall_mem_cons] at h
      have hput : put key value m e = m := by rw [put, h.1]
      rw [List.foldl_cons, hput, ih h.2]
  exact hfold ∅

variable [Std.LawfulEqOrd κ]

theorem put_local : Local key (fun e old => (value e).or old) (put key value) := by
  constructor
  · intro m e
    unfold put
    dsimp only
    cases value e with
    | none => rfl
    | some v => rw [Std.ExtTreeMap.getElem?_insert_self, Option.some_or]
  · intro m e k hne
    unfold put
    cases value e with
    | none => rfl
    | some v => rw [Std.ExtTreeMap.getElem?_insert, if_neg (by simpa using hne)]

theorem overlay_get_of_notMem {k : κ} (h : k ∉ entries.map key) :
    (overlay key value entries)[k]? = none := by
  rw [overlay, put_local.get_of_notMem h, Std.ExtTreeMap.getElem?_empty]

theorem overlay_get_of_mem (hnodup : (entries.map key).Nodup) {e : ε} (he : e ∈ entries) :
    (overlay key value entries)[key e]? = value e := by
  rw [overlay, put_local.get_of_mem hnodup he, Std.ExtTreeMap.getElem?_empty, Option.or_none]

theorem overlay_get_eq_some {k : κ} {v : α} (h : (overlay key value entries)[k]? = some v) :
    ∃ e ∈ entries, key e = k ∧ value e = some v := by
  induction entries using List.reverseRecOn with
  | nil => simp [overlay] at h
  | append_singleton front e ih =>
    rw [overlay_append_singleton] at h
    by_cases hkey : key e = k
    · subst hkey
      rw [put_local.1] at h
      rcases Option.or_eq_some_iff.mp h with hvalue | ⟨-, hfront⟩
      · exact ⟨e, by simp, rfl, hvalue⟩
      · obtain ⟨e', he', hrest⟩ := ih hfront
        exact ⟨e', by simp [he'], hrest⟩
    · rw [put_local.2 _ _ _ hkey] at h
      obtain ⟨e', he', hrest⟩ := ih h
      exact ⟨e', by simp [he'], hrest⟩

theorem overlay_get_isSome {e : ε} (he : e ∈ entries) (hvalue : (value e).isSome) :
    (overlay key value entries)[key e]?.isSome := by
  induction entries using List.reverseRecOn with
  | nil => simp at he
  | append_singleton front last ih =>
    rw [overlay_append_singleton]
    by_cases hkey : key last = key e
    · rw [← hkey, put_local.1, Option.isSome_or, Bool.or_eq_true]
      rcases List.mem_append.mp he with hfront | hlast
      · exact .inr (hkey ▸ ih hfront)
      · rw [List.mem_singleton.mp hlast] at hvalue
        exact .inl hvalue
    · rw [put_local.2 _ _ _ hkey]
      rcases List.mem_append.mp he with hfront | hlast
      · exact ih hfront
      · rw [List.mem_singleton.mp hlast] at hkey
        contradiction

theorem overlay_perm (hnodup : (entries.map key).Nodup) {order : List ε}
    (hperm : order.Perm entries) : overlay key value order = overlay key value entries :=
  put_local.foldl_perm hnodup hperm

end Overlay

end Overlay
